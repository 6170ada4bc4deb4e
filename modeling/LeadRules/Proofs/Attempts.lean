import LeadRules.Proofs.Calls
import LeadRules.Proofs.Pauses
import Mathlib.Data.List.DropRight
import Mathlib.Data.List.Forall2

/-! The attempts of a delivery. One step lemma says what an attempt does and what follows it; from
it come how often a posting is posted, how long the pauses are and whether it is reported, for
every script of answers. -/
namespace LeadRules

namespace Reply

def delivers : Reply → Bool
  | response status _ => status < 400
  | refused _ | broken _ => false

def problem? : Reply → Option Text
  | response status _ => some (s!"HTTP {status}" : String)
  | refused text => some text
  | broken _ => none

/-- Whether the other side answered, or the post failed on its way. -/
def isPlain : Reply → Bool
  | broken _ => false
  | response .. | refused _ => true

end Reply

namespace Transport

/-- The answer to the post that comes after as many others: the script in its order, of which the
last answer stays. Without a script every post is accepted. -/
def answer (t : Transport) (i : Nat) : Reply :=
  (t.script[i]?.or t.script.getLast?).getD (.response 200 "")

theorem send_answer (t : Transport) (post : Post) : (t.send post).1 = t.answer 0 := by
  obtain ⟨script, posts, pauses⟩ := t
  rcases script with _ | ⟨reply, _ | ⟨next, rest⟩⟩ <;> rfl

theorem answer_send (t : Transport) (post : Post)
    (i : Nat) : (t.send post).2.answer i = t.answer (i + 1) := by
  obtain ⟨script, posts, pauses⟩ := t
  rcases script with _ | ⟨reply, _ | ⟨next, rest⟩⟩
  · rfl
  · cases i <;> rfl
  · simp [send, answer]

theorem posts_send (t : Transport) (post : Post) : (t.send post).2.posts = t.posts ++ [post] := by
  obtain ⟨script, posts, pauses⟩ := t
  rcases script with _ | ⟨reply, _ | ⟨next, rest⟩⟩ <;> rfl

theorem pauses_send (t : Transport) (post : Post) : (t.send post).2.pauses = t.pauses := by
  obtain ⟨script, posts, pauses⟩ := t
  rcases script with _ | ⟨reply, _ | ⟨next, rest⟩⟩ <;> rfl

theorem isPlain_answer {t : Transport} (plain : ∀ reply ∈ t.script, reply.isPlain = true)
    (i : Nat) : (t.answer i).isPlain = true := by
  unfold answer
  cases given : t.script[i]?.or t.script.getLast? with
  | none => rfl
  | some reply =>
    rcases Option.or_eq_some_iff.1 given with here | ⟨-, last⟩
    · exact plain reply (List.mem_of_getElem? here)
    · exact plain reply (List.mem_of_getLast? last)

end Transport

def Posting.post (s : Settings) (p : Posting) : Post :=
  { url := p.url, payload := p.payload, userAgent := s.userAgent, requestedAt := p.requestedAt,
    timeout := s.webhookTimeout }

namespace Delivery

variable {d : Delivery} {answers : Nat → Reply} {now : DateTime} {n : Nat}

def after (d : Delivery) (answers : Nat → Reply) (now : DateTime) : Nat → Delivery
  | 0 => d
  | n + 1 => (d.after answers now n).answered (n + 1) now (answers n)

/-- What one attempt makes of a delivery. -/
theorem answered_facts (d : Delivery) (n : Nat) (now : DateTime) (reply : Reply) :
    ((d.answered n now reply).lead = d.lead ∧ (d.answered n now reply).url = d.url ∧
      (d.answered n now reply).payload = d.payload) ∧
    (d.answered n now reply).attempts = n ∧
    (d.answered n now reply).deliveredAt = (if reply.delivers then some now else d.deliveredAt) ∧
    (reply.isPlain = true →
      (d.answered n now reply).error = if reply.delivers then none else reply.problem?) := by
  cases reply with
  | response status text =>
    by_cases good : status < 400 <;> simp [answered, Reply.delivers, Reply.problem?, good]
  | refused text => exact ⟨⟨rfl, rfl, rfl⟩, rfl, rfl, fun _ => rfl⟩
  | broken fault => exact ⟨⟨rfl, rfl, rfl⟩, rfl, rfl, fun plain => absurd plain Bool.false_ne_true⟩

/-- Attempts change nothing of what a delivery is about. -/
theorem after_frame (d : Delivery) (answers : Nat → Reply) (now : DateTime) (n : Nat) :
    (d.after answers now n).lead = d.lead ∧ (d.after answers now n).url = d.url ∧
    (d.after answers now n).payload = d.payload := by
  induction n with
  | zero => exact ⟨rfl, rfl, rfl⟩
  | succ n ih =>
    obtain ⟨⟨lead, url, payload⟩, -⟩ :=
      answered_facts (d.after answers now n) (n + 1) now (answers n)
    exact ⟨lead.trans ih.1, url.trans ih.2.1, payload.trans ih.2.2⟩

theorem attempts_after (fresh : d.attempts = 0) : (d.after answers now n).attempts = n := by
  cases n with
  | zero => exact fresh
  | succ n => exact (answered_facts ..).2.1

/-- The error of a delivery is what its last attempt failed with, and none if that delivered. -/
theorem error_after (plain : (answers n).isPlain = true) :
    (d.after answers now (n + 1)).error =
      if (answers n).delivers then none else (answers n).problem? :=
  (answered_facts ..).2.2.2 plain

theorem deliveredAt_after_succ (d : Delivery) (answers : Nat → Reply) (now : DateTime) (n : Nat) :
    (d.after answers now (n + 1)).deliveredAt =
      if (answers n).delivers then some now else (d.after answers now n).deliveredAt :=
        (answered_facts ..).2.2.1

/-- A delivery that no attempt delivered is not delivered. -/
theorem deliveredAt_after (fresh : d.deliveredAt = none)
    (unmet : ∀ i < n, (answers i).delivers = false) :
    (d.after answers now n).deliveredAt = none := by
  induction n with
  | zero => exact fresh
  | succ n ih =>
    rw [deliveredAt_after_succ, unmet n (Nat.lt_succ_self n), if_neg Bool.false_ne_true]
    exact ih fun i below => unmet i (Nat.lt_succ_of_lt below)

end Delivery

namespace Dispatcher

variable {s : Settings} {p : Posting} {t : Transport} {d : Delivery} {answers : Nat → Reply}
  {h : Host} {n : Nat}

theorem attemptOnce_run (s : Settings) (p : Posting) (n : Nat) (plain : (t.answer 0).isPlain = true)
    (fresh : d.deliveredAt = none)
    (h : Host) : ∃ k, h.Relogged k ∧ attemptOnce s p n ((d, t), h) =
      (.ok (t.answer 0).delivers, ((d.answered n h.now (t.answer 0), (t.send (p.post s)).2), k)) := by
  have first : (t.send (p.post s)).1 = t.answer 0 := t.send_answer _
  have delivered : (d.answered n h.now (t.answer 0)).delivered = (t.answer 0).delivers := by
    obtain ⟨-, -, time, -⟩ := d.answered_facts n h.now (t.answer 0)
    rw [Delivery.delivered, time, fresh]
    cases (t.answer 0).delivers <;> rfl
  refine ⟨{ h with log := h.log ++ (d.note? n (t.answer 0)).toArray }, rfl, ?_⟩
  simp only [attemptOnce, Op.run_bind, Op.run_get, Op.run_set]
  unfold Posting.post at first
  simp only [first]
  cases reply : t.answer 0 with
  | broken fault =>
    rw [reply] at plain
    cases plain
  | response status text =>
    rw [reply] at delivered
    simp only [Op.run_pure, delivered]
    rfl
  | refused text =>
    rw [reply] at delivered
    simp only [Op.run_pure, delivered]
    rfl

/-- How attempts come to an end, of which so many may be made: with what result, and after how
many. -/
inductive Ends (s : Settings) (answers : Nat → Reply) (tries : Nat) : Except Fault Bool → Nat → Prop
  | delivered {n : Nat} (within : n < tries) (unmet : ∀ i < n, (answers i).delivers = false)
      (met : (answers n).delivers = true) : Ends s answers tries (.ok true) (n + 1)
  | spent (unmet : ∀ i < tries, (answers i).delivers = false) :
      Ends s answers tries (.ok false) tries
  /-- The pause before the next attempt could not be told. -/
  | stopped {n : Nat} {fault : Fault} (within : n + 1 < tries)
      (unmet : ∀ i ≤ n, (answers i).delivers = false)
      (pause : s.pauseAfter n = .error fault) : Ends s answers tries (.error fault) (n + 1)

/-- What the other side saw of the attempts from one on: so many posts, and the pauses in between.
-/
structure Sent (s : Settings) (p : Posting) (first made : Nat) (t u : Transport) : Prop where
  posts : u.posts = t.posts ++ List.replicate (made - first) (p.post s)
  answers : ∀ i, u.answer i = t.answer (made - first + i)
  pauses : ∃ times, u.pauses = t.pauses ++ times ∧
    List.Forall₂
      (fun i time => s.pauseAfter i = .ok time) (List.range' first (made - 1 - first)) times

theorem Sent.once (s : Settings) (p : Posting) (n : Nat) (t : Transport) :
    Sent s p n (n + 1) t (t.send (p.post s)).2 where
  posts := by rw [t.posts_send, Nat.add_sub_cancel_left]; rfl
  answers i := by rw [t.answer_send, Nat.add_sub_cancel_left, Nat.add_comm]
  pauses := ⟨[], by rw [t.pauses_send, List.append_nil], by simp⟩

/-- A post and a pause before later ones. -/
theorem Sent.before {made : Nat} {time : Value} {u : Transport} (pause : s.pauseAfter n = .ok time)
    (more : n + 1 < made)
    (later : Sent s p (n + 1) made ((t.send (p.post s)).2.pause time) u) : Sent s p n made t u where
  posts := by
    have count : made - n = 1 + (made - (n + 1)) := by omega
    rw [later.posts, count, List.replicate_add, ← List.append_assoc]
    exact congrArg (· ++ _) (t.posts_send _)
  answers i := by
    have count : made - n + i = made - (n + 1) + i + 1 := by omega
    rw [later.answers, count]
    exact t.answer_send _ _
  pauses := by
    obtain ⟨times, seen, told⟩ := later.pauses
    have count : made - 1 - n = (made - 1 - (n + 1)) + 1 := by omega
    refine ⟨time :: times, ?_, ?_⟩
    · rw [seen, List.append_cons]
      exact congrArg (· ++ [time] ++ times) (t.pauses_send _)
    · rw [count, List.range'_succ]
      exact .cons pause told

/-- One attempt, and what follows it. -/
theorem attemptFrom_step (plain : ∀ i, (answers i).isPlain = true) (s : Settings)
    (p : Posting) (left : Nat)
    (next : t.answer 0 = answers n) (open_ : (d.after answers h.now n).deliveredAt = none) :
      ∃ k, h.Relogged k ∧
      attemptFrom s p n (left + 1) ((d.after answers h.now n, t), h) =
        let here := (d.after answers h.now (n + 1), (t.send (p.post s)).2)
        if (answers n).delivers then (.ok true, (here, k))
        else if left = 0 then (.ok false, (here, k))
        else match s.pauseAfter n with
          | .error fault => (.error fault, (here, k))
          | .ok time => attemptFrom s p (n + 1) left ((here.1, here.2.pause time), k) := by
  obtain ⟨k, noted, run⟩ := attemptOnce_run s p (n + 1) (next ▸ plain n) open_ h
  refine ⟨k, noted, ?_⟩
  rw [next] at run
  rw [attemptFrom, Op.run_bind, run]
  cases (answers n).delivers with
  | true => rfl
  | false =>
    cases left with
    | zero => rfl
    | succ left =>
      simp only [Bool.false_eq_true, if_false, Nat.succ_ne_zero, ne_eq, not_false_eq_true, if_true,
        Op.run_bind, Op.run_ofExcept]
      cases s.pauseAfter n <;> rfl

/-- Attempts go on until one delivers, all are made, or a pause cannot be told. The induction is
on how many may still follow. -/
theorem attemptFrom_ends (plain : ∀ i, (answers i).isPlain = true) (s : Settings)
    (p : Posting) (left : Nat)
    (next : ∀ i, t.answer i = answers (n + i)) (unmet : ∀ i < n, (answers i).delivers = false)
    (fresh : d.deliveredAt = none)
    (h : Host) : ∃ result made u k,
      attemptFrom s p n (left + 1) ((d.after answers h.now n, t), h) =
        (result, ((d.after answers h.now made, u), k)) ∧
      h.Relogged k ∧ Ends s answers (n + left + 1) result made ∧ n < made ∧
      Sent s p n made t u := by
  induction left generalizing n t h with
  | zero =>
    obtain ⟨k, noted, run⟩ :=
      attemptFrom_step plain s p 0 (next 0) (Delivery.deliveredAt_after fresh unmet)
    cases met : (answers n).delivers with
    | true =>
      simp only [Nat.add_zero, met, if_true] at run
      exact ⟨_, _, _, k, run, noted, .delivered (Nat.lt_succ_self n) unmet met, Nat.lt_succ_self n,
        .once s p n t⟩
    | false =>
      simp only [Nat.add_zero, met, Bool.false_eq_true, if_false, if_true] at run
      exact ⟨_, _, _, k, run, noted, .spent (Nat.forall_lt_succ_right.2 ⟨unmet, met⟩),
        Nat.lt_succ_self n, .once s p n t⟩
  | succ left ih =>
    obtain ⟨k, noted, run⟩ :=
      attemptFrom_step plain s p (left + 1) (next 0) (Delivery.deliveredAt_after fresh unmet)
    cases met : (answers n).delivers with
    | true =>
      simp only [Nat.add_zero, met, if_true] at run
      exact ⟨_, _, _, k, run, noted, .delivered (by omega) unmet met, Nat.lt_succ_self n, .once s p n t⟩
    | false =>
      simp only [Nat.add_zero, met, Bool.false_eq_true, if_false, Nat.succ_ne_zero] at run
      have unmet := Nat.forall_lt_succ_right.2 ⟨unmet, met⟩
      cases pause : s.pauseAfter n with
      | error fault =>
        rw [pause] at run
        have missed : ∀ i ≤ n, (answers i).delivers = false :=
          fun i below => unmet i (Nat.lt_succ_of_le below)
        exact ⟨_, _, _, k, run, noted, .stopped (by omega) missed pause, Nat.lt_succ_self n, .once s p n t⟩
      | ok time =>
        rw [pause] at run
        have next' (i : Nat) :
            ((t.send (p.post s)).2.pause time).answer i = answers (n + 1 + i) := by
          rw [Nat.add_right_comm, Nat.add_assoc, ← next (i + 1)]
          exact t.answer_send _ i
        obtain ⟨result, made, u, l, later, noted', ends, more, sent⟩ := ih next' unmet k
        rw [noted.now] at later
        rw [Nat.add_right_comm n 1] at ends
        exact ⟨result, made, u, l, run.trans later, noted.trans noted', ends, by omega,
          sent.before pause more⟩

theorem attempts_pos {tries : Nat} (known : s.webhookAttempts = .ok tries) : 0 < tries := by
  unfold Settings.webhookAttempts at known
  split at known
  · obtain rfl := Except.ok.inj known
    omega
  · split at known
    · cases known
    · obtain rfl := Except.ok.inj known
      exact Nat.one_pos
  · cases known

/-- How a delivery comes to an end: by its attempts, or before them when their number cannot be
told. -/
inductive Settles (s : Settings) (answers : Nat → Reply) : Except Fault Bool → Nat → Prop
  | ended {tries made : Nat} {result : Except Fault Bool} (known : s.webhookAttempts = .ok tries)
      (ends : Ends s answers tries result made) : Settles s answers result made
  | unstarted {fault : Fault} (unknown : s.webhookAttempts = .error fault) :
      Settles s answers (.error fault) 0

theorem deliver_run (plain : ∀ i, (t.answer i).isPlain = true) (s : Settings) (p : Posting)
    (fresh : d.deliveredAt = none) (h : Host) :
    ∃ result made u k, deliver s p ((d, t), h) = (result, ((d.after t.answer h.now made, u), k)) ∧
      h.Relogged k ∧
      Settles s t.answer result made ∧ Sent s p 0 made t u := by
  rw [deliver, Op.run_bind, Op.run_ofExcept]
  cases known : s.webhookAttempts with
  | error fault =>
    exact ⟨_, 0, t, h, rfl, .refl h, .unstarted known,
      ⟨by simp, fun i => by simp, [], by simp, by simp⟩⟩
  | ok tries =>
    obtain ⟨left, rfl⟩ := Nat.exists_eq_succ_of_ne_zero (Nat.ne_of_gt (attempts_pos known))
    have next (i : Nat) : t.answer i = t.answer (0 + i) := by rw [Nat.zero_add]
    obtain ⟨result, made, u, k, run, noted, ends, -, sent⟩ :=
      attemptFrom_ends plain s p left next nofun fresh h
    rw [Nat.zero_add] at ends
    exact ⟨result, made, u, k, run, noted, .ended known ends, sent⟩

def reportsOf (delivery : Delivery) : Except Fault Bool → List (Delivery × Text)
  | .ok false => [(delivery, delivery.failureText)]
  | .ok true | .error _ => []

structure Dispatched (p : Posting) (now : DateTime) (d e : Dispatcher) (result : Except Fault Bool)
    (made : Nat) (delivery : Delivery) :
    Prop where
  settles : Settles d.settings d.transport.answer result made
  account : delivery = (Delivery.start p now).after d.transport.answer now made
  sent : Sent d.settings p 0 made d.transport e.transport
  history : e.history = (d.history ++ [delivery]).rtake historyLimit
  reports : e.reports = d.reports ++ reportsOf delivery result
  settings : e.settings = d.settings
  background : e.background = d.background

theorem remember_history (d : Dispatcher) (delivery : Delivery) :
    (d.remember delivery).history = (d.history ++ [delivery]).rtake historyLimit := by
  simp only [remember, List.rtake]

theorem remember_frame (d : Dispatcher) (delivery : Delivery) :
    (d.remember delivery).settings = d.settings ∧ (d.remember delivery).transport = d.transport ∧
      (d.remember delivery).reports = d.reports ∧
      (d.remember delivery).background = d.background := by
  simp only [remember, and_self]

theorem rtake_historyLimit (l : List Delivery) (delivery : Delivery) :
    (l ++ [delivery]).rtake historyLimit = l.rtake 499 ++ [delivery] := by
  rw [historyLimit, List.rtake_concat_succ]

theorem current_of_latest {d : Dispatcher} {delivery : Delivery}
    (latest : d.history.getLast? = some delivery) (p : Posting)
    (now : DateTime) : d.current p now = delivery := by
  rw [current, latest]
  rfl

/-- The delivery that was started last is put back as its attempts left it, and reported when they
are used up. -/
theorem finish_run {x : Dispatcher} {result : Except Fault Bool} {delivery : Delivery}
    {u : Transport} {k : Host}
    (known : x.current p h.now = d)
    (run : deliver x.settings p ((d, x.transport), h) = (result, ((delivery, u), k))) :
    ∃ l, k.Relogged l ∧ finish p (x, h) = (result.map fun _ => (), ({ x with
        history := x.history.dropLast ++ [delivery], transport := u, reports :=
          x.reports ++ reportsOf delivery result }, l)) := by
  unfold finish
  simp only [Op.run_bind, Op.run_get, Op.run_store, Op.run_onPart, known, run]
  rcases result with fault | _ | _
  · refine ⟨k, .refl k, ?_⟩
    rw [reportsOf, List.append_nil]
    rfl
  · refine ⟨k.note .error delivery.failureText, rfl, ?_⟩
    have latest :
        ({ x with history := x.history.dropLast ++ [delivery], transport := u } :
          Dispatcher).current p h.now = delivery :=
      current_of_latest List.getLast?_concat p h.now
    simp only [Bool.false_eq_true, if_false, Op.run_bind, Op.run_store, Op.run_onHost, Op.run_log, latest]
    rfl
  · refine ⟨k, .refl k, ?_⟩
    rw [reportsOf, List.append_nil]
    rfl

theorem dispatch_run {d : Dispatcher} (plain : ∀ i, (d.transport.answer i).isPlain = true)
    (p : Posting) (h : Host) :
    ∃ result made delivery e k,
      dispatch p (d, h) =
        (if d.background then .ok delivery else result.map fun _ => delivery, (e, k)) ∧
        h.Relogged k ∧
      Dispatched p h.now d e result made delivery := by
  obtain ⟨result, made, u, k, delivered, noted, settles, sent⟩ :=
    deliver_run plain d.settings p (d := .start p h.now) rfl h
  obtain ⟨settings, transport, reports, background⟩ := d.remember_frame (.start p h.now)
  have history := d.remember_history (.start p h.now)
  rw [rtake_historyLimit] at history
  unfold dispatch
  simp only [Op.run_bind, Op.run_get, Op.run_store, Op.run_setStore, Op.run_attempt]
  generalize d.remember (.start p h.now) = x at *
  have known : x.current p h.now = .start p h.now :=
    current_of_latest (by rw [history, List.getLast?_concat]) p h.now
  rw [← settings] at delivered
  generalize account : (Delivery.start p h.now).after d.transport.answer h.now made =
    delivery at delivered
  obtain ⟨l, noted', finished⟩ := finish_run known (transport.symm ▸ delivered)
  have latest :
      (d.history ++ [delivery]).rtake historyLimit = x.history.dropLast ++ [delivery] := by
    rw [rtake_historyLimit, history, List.dropLast_concat]
  rw [finished, ← background]
  generalize left : ({ x with
    history := x.history.dropLast ++ [delivery], transport := u, reports :=
      x.reports ++ reportsOf delivery result } : Dispatcher) = e
  have dispatched : Dispatched p h.now d e result made delivery := by
    subst left
    exact ⟨settles, account.symm, sent, latest.symm, congrArg (· ++ _) reports, settings, background⟩
  have known : e.current p h.now = delivery :=
    current_of_latest (left ▸ List.getLast?_concat) p h.now
  have away : x.background = e.background := left ▸ rfl
  refine ⟨result, made, delivery, e, l, ?_, noted.trans noted', dispatched⟩
  rw [away]
  cases result with
  | ok met => simp only [Except.map, Op.run_bind, Op.run_pure, Op.run_store, known, ite_self]
  | error fault =>
    cases waits : e.background with
    | false => simp [Except.map, Op.run_bind, waits]
    | true =>
      simp only [Except.map, Op.run_bind, Op.run_pure, Op.run_store, waits, known, Bool.not_true,
        Bool.false_eq_true, if_false, if_true]

/-- What the other side saw of a delivery: so many posts, and in between pauses that double. -/
structure Retried (s : Settings) (p : Posting) (made : Nat) (t u : Transport) : Prop where
  posts : u.posts = t.posts ++ List.replicate made (p.post s)
  pauses : ∃ times, u.pauses = t.pauses ++ times ∧
    List.Forall₂ s.webhookBackoff.Doubled (List.range (made - 1)) times
  answers : ∀ i, u.answer i = t.answer (made + i)

theorem Sent.retried {made : Nat} {u : Transport} (sent : Sent s p 0 made t u) (few : made ≤ 1024)
    (finite : ∀ i, i + 1 < made → s.webhookBackoff.StaysFinite i) : Retried s p made t u where
  posts := sent.posts
  answers := sent.answers
  pauses := by
    obtain ⟨times, seen, told⟩ := sent.pauses
    refine ⟨times, seen, ?_⟩
    have within : ∀ i ∈ List.range' 0 (made - 1 - 0), i + 1 < made := fun i member => by
      have := (List.mem_range'_1.1 member).2
      omega
    rw [List.range_eq_range']
    refine ((List.forall₂_and_left _ _).2 ⟨within, told⟩).imp fun i time ⟨below, pause⟩ => ?_
    obtain ⟨time', pause', doubled⟩ := Settings.pauseAfter_doubled (by omega) (finite i below)
    obtain rfl := Except.ok.inj (pause.symm.trans pause')
    exact doubled

theorem webhookAttempts_of_whole {retries : Int} (whole : s.webhookRetries.asInt? = some retries) :
    s.webhookAttempts = .ok (max 1 retries).toNat := by
  rw [Settings.webhookAttempts, whole]

section Account

variable {d e : Dispatcher} {made : Nat} {delivery : Delivery} {now : DateTime}

theorem Dispatched.about {result : Except Fault Bool}
    (dispatched : Dispatched p now d e result made delivery) :
    (delivery.lead = p.lead ∧ delivery.url = p.url ∧ delivery.payload = p.payload) ∧
    delivery.attempts = made := by
  rw [dispatched.account]
  exact ⟨Delivery.after_frame .., Delivery.attempts_after rfl⟩

/-- What is told of a delivery that the last of its posts delivered. -/
theorem Dispatched.met (dispatched : Dispatched p now d e (.ok true) (n + 1) delivery)
    (plain : (d.transport.answer n).isPlain = true) (met : (d.transport.answer n).delivers = true) :
    delivery.delivered = true ∧ delivery.error = none ∧ e.reports = d.reports := by
  refine ⟨?_, ?_, dispatched.reports.trans (List.append_nil _)⟩
  · rw [Delivery.delivered, dispatched.account, Delivery.deliveredAt_after_succ, if_pos met]
    rfl
  · rw [dispatched.account, Delivery.error_after plain, if_pos met]

/-- What is told of a delivery that none of its posts delivered. -/
theorem Dispatched.spent (dispatched : Dispatched p now d e (.ok false) (n + 1) delivery)
    (plain : (d.transport.answer n).isPlain = true)
    (unmet : ∀ i < n + 1, (d.transport.answer i).delivers = false) :
    delivery.delivered = false ∧ delivery.error = (d.transport.answer n).problem? ∧
      e.reports = d.reports ++ [(delivery, delivery.failureText)] := by
  refine ⟨?_, ?_, dispatched.reports⟩
  · rw [Delivery.delivered, dispatched.account, Delivery.deliveredAt_after rfl unmet]
    rfl
  · rw [dispatched.account, Delivery.error_after plain, unmet n (Nat.lt_succ_self n),
      if_neg Bool.false_ne_true]

end Account

/-- There is one first post that delivers. -/
theorem first_unique {m : Nat} (unmet : ∀ i < n, (answers i).delivers = false)
    (met : (answers n).delivers = true)
    (unmet' : ∀ i < m, (answers i).delivers = false)
    (met' : (answers m).delivers = true) : m = n := by
  rcases Nat.lt_trichotomy m n with before | same | after
  · rw [unmet m before] at met'
    cases met'
  · exact same
  · rw [unmet' n after] at met
    cases met

/-- A posting is posted until a post delivers it or all attempts are made, with doubling pauses in
between; it is reported, once, just if none did. -/
theorem dispatch_retries {d : Dispatcher} {retries : Int} {tries : Nat}
    (whole : d.settings.webhookRetries.asInt? = some retries)
    (bound : tries = (max 1 retries).toNat) (few : tries ≤ 1024)
    (finite : ∀ i, i + 1 < tries → d.settings.webhookBackoff.StaysFinite i)
    (plain : ∀ reply ∈ d.transport.script, reply.isPlain = true) (p : Posting) (h : Host) :
    ∃ delivery e k, dispatch p (d, h) = (.ok delivery, (e, k)) ∧
      e.history = (d.history ++ [delivery]).rtake historyLimit ∧
      (delivery.lead = p.lead ∧ delivery.url = p.url ∧ delivery.payload = p.payload) ∧
      (∀ n < tries, (∀ i < n, (d.transport.answer i).delivers = false) →
        (d.transport.answer n).delivers = true →
        Retried d.settings p (n + 1) d.transport e.transport ∧ delivery.delivered = true ∧
        delivery.error = none ∧
        delivery.attempts = n + 1 ∧ e.reports = d.reports) ∧
      ((∀ i < tries, (d.transport.answer i).delivers = false) →
        Retried d.settings p tries d.transport e.transport ∧ delivery.delivered = false ∧
        delivery.error = (d.transport.answer (tries - 1)).problem? ∧ delivery.attempts = tries ∧
        e.reports = d.reports ++ [(delivery, delivery.failureText)]) := by
  have plain := Transport.isPlain_answer plain
  obtain ⟨result, made, delivery, e, k, run, -, dispatched⟩ := dispatch_run plain p h
  obtain ⟨about, attempts⟩ := dispatched.about
  cases dispatched.settles with
  | unstarted unknown =>
    rw [webhookAttempts_of_whole whole] at unknown
    cases unknown
  | @ended tries' _ _ known ends =>
    obtain rfl : tries' = tries := by
      rw [webhookAttempts_of_whole whole, ← bound] at known
      exact (Except.ok.inj known).symm
    cases ends with
    | @delivered n within unmet met =>
      have retried := dispatched.sent.retried (by omega) fun i below => finite i (by omega)
      obtain ⟨delivered, error, reports⟩ := dispatched.met (plain n) met
      refine ⟨delivery, e, k, ?_, dispatched.history, about, fun m _ unmet' met' => ?_, fun none => ?_⟩
      · rw [run]
        exact congrArg (·, _) (ite_self _)
      · obtain rfl := first_unique unmet met unmet' met'
        exact ⟨retried, delivered, error, attempts, reports⟩
      · rw [none n within] at met
        cases met
    | spent unmet =>
      have positive := attempts_pos known
      obtain ⟨last, rfl⟩ : ∃ last, made = last + 1 := ⟨made - 1, by omega⟩
      obtain ⟨delivered, error, reports⟩ := dispatched.spent (plain last) unmet
      refine ⟨delivery, e, k, ?_, dispatched.history, about, fun n within _ met => ?_, fun _ => ?_⟩
      · rw [run]
        exact congrArg (·, _) (ite_self _)
      · rw [unmet n within] at met
        cases met
      · exact ⟨dispatched.sent.retried few finite, delivered, error, attempts, reports⟩
    | stopped within unmet pause =>
      obtain ⟨time, told, -⟩ := Settings.pauseAfter_doubled (by omega) (finite _ within)
      rw [told] at pause
      cases pause

def greeting : Posting :=
  { lead := "L1", url := "https://hooks.example.com/lead", payload := .map [],
    requestedAt := .first }

def recovering : Dispatcher where
  settings := .initial (.ofText "home") .first
  transport := { script := [.response 503 "busy", .refused "reset", .response 204 ""] }

theorem dispatch_retries_recovering :
    recovering.settings.webhookRetries.asInt? = some 3 ∧
    (∀ i, i + 1 < 3 → recovering.settings.webhookBackoff.StaysFinite i) ∧
    (∀ reply ∈ recovering.transport.script, reply.isPlain = true) ∧
    ∃ delivery e k, dispatch greeting (recovering, .still) = (.ok delivery, (e, k)) ∧
      delivery.delivered = true ∧
      delivery.error = none ∧ delivery.attempts = 3 ∧ e.reports = [] ∧
      Retried recovering.settings greeting 3 recovering.transport e.transport := by
  have finite (i : Nat) (below : i + 1 < 3) : recovering.settings.webhookBackoff.StaysFinite i := by
    refine .inr ⟨.ofNat 2, rfl, ?_⟩
    obtain rfl | rfl : i = 0 ∨ i = 1 := by omega
    · decide +kernel
    · decide +kernel
  have plain : ∀ reply ∈ recovering.transport.script, reply.isPlain = true := by decide
  have whole : recovering.settings.webhookRetries.asInt? = some 3 := rfl
  obtain ⟨delivery, e, k, run, -, -, met, -⟩ :=
    dispatch_retries whole rfl (by decide) finite plain greeting .still
  obtain ⟨retried, delivered, error, attempts, reports⟩ := met 2 (by decide) (by decide) (by decide)
  exact ⟨whole, finite, plain, delivery, e, k, run, delivered, error, attempts, reports, retried⟩

end Dispatcher
end LeadRules
