import LeadRules.Proofs.Attempts
import LeadRules.Proofs.Window

/-! Failed deliveries. Whatever is dispatched, one delivery after the other, a delivery is
reported just when its attempts are used up and none delivered. The failed deliveries are told by
their error texts: one whose last post failed on its way without a text is not among them. -/
namespace LeadRules

/-- Whether the number of attempts and all pauses between them can be told. -/
def Settings.Regular (s : Settings) : Prop :=
  ∃ tries, s.webhookAttempts = .ok tries ∧ ∀ i, i + 1 < tries → ∃ time, s.pauseAfter i = .ok time

structure Trail where
  delivery : Delivery
  answers : List Reply

namespace Trail

variable {s : Settings} {p : Posting} {now : DateTime} {t : Trail}
  {script : Nat → Reply} {made : Nat}

def met (t : Trail) : Bool := t.answers.any Reply.delivers

def spent (s : Settings) (t : Trail) : Bool :=
  s.webhookAttempts.toOption = some t.answers.length && !t.met

/-- Whether the last post failed on its way, without a text. -/
def silent (t : Trail) : Bool :=
  match t.answers.getLast? with
  | some (.refused text) => text = ""
  | _ => false

inductive Ended (s : Settings) (t : Trail) : Prop
  | met (delivered : t.met = true)
  | spent (all : t.spent s = true)
  | unstarted {fault : Fault} (unknown : s.webhookAttempts = .error fault) (none : t.answers = [])
  /-- The pause before the next attempt could not be told. -/
  | stopped {n tries : Nat} {fault : Fault} (known : s.webhookAttempts = .ok tries)
      (made : t.answers.length = n + 1)
      (within : n + 1 < tries) (pause : s.pauseAfter n = .error fault)

structure Fits (s : Settings) (call : Posting × DateTime) (t : Trail) : Prop where
  about : t.delivery.lead = call.1.lead ∧ t.delivery.url = call.1.url ∧
    t.delivery.payload = call.1.payload
  attempts : t.delivery.attempts = t.answers.length
  delivered : t.delivery.delivered = t.met
  /-- Nothing is posted after the post that delivered. -/
  stops : ∀ reply ∈ t.answers.dropLast, reply.delivers = false
  ended : t.Ended s
  /-- It counts as failed by its error text. -/
  failed : t.delivery.hasFailed = (!t.met && !t.answers.isEmpty && !t.silent)

def ofScript (p : Posting) (now : DateTime) (script : Nat → Reply) (made : Nat) : Trail where
  delivery := (Delivery.start p now).after script now made
  answers := (List.range made).map script

@[simp] theorem length_answers : (ofScript p now script made).answers.length = made := by simp [ofScript]

theorem fits_unstarted {fault : Fault} (unknown : s.webhookAttempts = .error fault) :
    (ofScript p now script 0).Fits s (p, now) where
  about := ⟨rfl, rfl, rfl⟩
  attempts := rfl
  delivered := rfl
  stops := nofun
  ended := .unstarted unknown rfl
  failed := rfl

theorem status_ne_empty (status : Int) : ((s!"HTTP {status}" : String) : Text) ≠ "" := by
  intro same
  have points := congrArg Text.points same
  simp only [Text.ofString, Text.ofChars, String.toList_append, List.map_append] at points
  cases List.append_eq_nil_iff.1 points |>.1

section Started

variable {n : Nat}

theorem answers_succ :
    (ofScript p now script (n + 1)).answers = (List.range n).map script ++ [script n] := by
  rw [ofScript, List.range_succ, List.map_append]
  rfl

theorem met_succ (unmet : ∀ i < n, (script i).delivers = false) :
    (ofScript p now script (n + 1)).met = (script n).delivers := by
  have before : ((List.range n).map script).any Reply.delivers = false := by
    rw [List.any_map, List.any_eq_false]
    exact fun i below => Bool.eq_false_iff.1 (unmet i (List.mem_range.1 below))
  rw [met, answers_succ, List.any_append, before, Bool.false_or, List.any_cons, List.any_nil, Bool.or_false]

theorem fits_started (plain : ∀ i, (script i).isPlain = true)
    (unmet : ∀ i < n, (script i).delivers = false)
    (ended : (ofScript p now script (n + 1)).Ended s) :
    (ofScript p now script (n + 1)).Fits s (p, now) := by
  have met : (ofScript p now script (n + 1)).met = (script n).delivers := met_succ unmet
  have delivered : (ofScript p now script (n + 1)).delivery.delivered = (script n).delivers := by
    dsimp only [ofScript, Delivery.delivered]
    rw [Delivery.deliveredAt_after_succ, Delivery.deliveredAt_after rfl unmet]
    cases (script n).delivers <;> rfl
  constructor
  case about => exact Delivery.after_frame ..
  case attempts =>
    rw [length_answers]
    exact Delivery.attempts_after rfl
  case delivered => rw [delivered, met]
  case stops =>
    rw [answers_succ, List.dropLast_concat]
    intro reply member
    obtain ⟨i, below, rfl⟩ := List.mem_map.1 member
    exact unmet i (List.mem_range.1 below)
  case ended => exact ended
  case failed =>
    have error : (ofScript p now script (n + 1)).delivery.error = if (script n).delivers then
        none else (script n).problem? :=
      Delivery.error_after (plain n)
    have last : (ofScript p now script (n + 1)).answers.getLast? = some (script n) := by
      rw [answers_succ, List.getLast?_concat]
    have some : (ofScript p now script (n + 1)).answers.isEmpty = false := by simp [ofScript]
    rw [Delivery.hasFailed, error, delivered, met, some, silent, last]
    cases reply : script n with
    | response status text =>
      by_cases good : status < 400
      · simp [Reply.delivers, good]
      · simpa [Reply.delivers, Reply.problem?, good] using status_ne_empty status
    | refused text => simp [Reply.delivers, Reply.problem?]
    | broken fault =>
      have := plain n
      rw [reply] at this
      cases this

end Started

/-- Where attempts and pauses can be told, what was posted in vain is spent. -/
theorem Ended.spent_of_regular (ended : t.Ended s) (regular : s.Regular) (posted : t.answers ≠ [])
    (unmet : t.met = false) :
    t.spent s = true := by
  obtain ⟨tries, known, told⟩ := regular
  cases ended with
  | met delivered =>
    rw [delivered] at unmet
    cases unmet
  | spent all => exact all
  | unstarted _ none => exact absurd none posted
  | stopped known' made within pause =>
    obtain rfl := Except.ok.inj (known.symm.trans known')
    obtain ⟨time, told⟩ := told _ within
    rw [told] at pause
    cases pause

/-- What is spent was posted, in vain. -/
theorem posted_of_spent (all : t.spent s = true) : t.answers ≠ [] ∧ t.met = false := by
  rw [spent, Bool.and_eq_true, decide_eq_true_eq, Bool.not_eq_true'] at all
  refine ⟨fun none => ?_, all.2⟩
  cases known : s.webhookAttempts with
  | error fault =>
    rw [known] at all
    cases all.1
  | ok tries =>
    rw [known, none] at all
    exact absurd (Option.some.inj all.1) (Nat.ne_of_gt (Dispatcher.attempts_pos known))

end Trail

namespace Dispatcher

variable {d₀ d e : Dispatcher} {calls : List (Posting × DateTime)} {trails : List Trail}
  {p : Posting} {h : Host}

inductive Course (d₀ : Dispatcher) : List (Posting × DateTime) → Dispatcher → Prop
  | start : Course d₀ [] d₀
  | dispatched {calls : List (Posting × DateTime)} {d : Dispatcher} (course : Course d₀ calls d)
      (p : Posting) (h : Host) :
      Course d₀ (calls ++ [(p, h.now)]) (dispatch p (d, h)).2.1

/-- What a course keeps: the deliveries took the answers of the script one after the other, the
latest of them are the history, and those that are spent were reported. -/
structure Recorded (d₀ : Dispatcher) (calls : List (Posting × DateTime)) (trails : List Trail)
    (d : Dispatcher) : Prop where
  settings : d.settings = d₀.settings
  fits : List.Forall₂ (Trail.Fits d₀.settings) calls trails
  taken : ∃ n, trails.flatMap Trail.answers = (List.range n).map d₀.transport.answer ∧
    ∀ i, d.transport.answer i = d₀.transport.answer (n + i)
  history : d.history = (trails.rtake historyLimit).map Trail.delivery
  reports : d.reports = (trails.filter (Trail.spent d₀.settings)).map fun t =>
    (t.delivery, t.delivery.failureText)

theorem rtake_map {α β : Type} (f : α → β) (l : List α)
    (n : Nat) : (l.map f).rtake n = (l.rtake n).map f := by
  rw [List.rtake, List.rtake, List.length_map, List.map_drop]

/-- How the delivery that is dispatched next fares. -/
theorem Dispatched.trail {result : Except Fault Bool} {made : Nat} {delivery : Delivery}
    {now : DateTime}
    (plain : ∀ i, (d.transport.answer i).isPlain = true)
    (dispatched : Dispatched p now d e result made delivery) :
    ∃ t : Trail, t.delivery = delivery ∧ t.answers = (List.range made).map d.transport.answer ∧
      t.Fits d.settings (p, now) ∧
      reportsOf delivery result = if t.spent d.settings then
        [(delivery, delivery.failureText)] else [] := by
  have account := dispatched.account
  refine ⟨.ofScript p now d.transport.answer made, account.symm, rfl, ?_⟩
  cases dispatched.settles with
  | unstarted unknown =>
    refine ⟨Trail.fits_unstarted unknown, ?_⟩
    rw [reportsOf, Trail.spent, unknown]
    rfl
  | ended known ends =>
    cases ends with
    | delivered within unmet met =>
      refine ⟨Trail.fits_started plain unmet (.met ((Trail.met_succ unmet).trans met)), ?_⟩
      rw [reportsOf, Trail.spent, Trail.met_succ unmet, met, Bool.not_true, Bool.and_false,
        if_neg Bool.false_ne_true]
    | spent unmet =>
      obtain ⟨n, rfl⟩ := Nat.exists_eq_succ_of_ne_zero (Nat.ne_of_gt (attempts_pos known))
      have before : ∀ i < n, (d.transport.answer i).delivers = false :=
        fun i below => unmet i (Nat.lt_succ_of_lt below)
      have spent : (Trail.ofScript p now d.transport.answer (n + 1)).spent d.settings = true := by
        simp [Trail.spent, Trail.met_succ before, unmet n (Nat.lt_succ_self n), known, Except.toOption]
      exact ⟨Trail.fits_started plain before (.spent spent), (if_pos spent).symm⟩
    | @stopped n _ within unmet pause =>
      have before : ∀ i < n, (d.transport.answer i).delivers = false :=
        fun i below => unmet i (Nat.le_of_lt below)
      have unspent :
          ¬(Trail.ofScript p now d.transport.answer (n + 1)).spent d.settings = true := by
        simp [Trail.spent, known, Except.toOption, Nat.ne_of_gt within]
      exact ⟨Trail.fits_started plain before (.stopped known Trail.length_answers within pause),
        (if_neg unspent).symm⟩

theorem Recorded.next (recorded : Recorded d₀ calls trails d)
    (plain : ∀ i, (d₀.transport.answer i).isPlain = true) (p : Posting)
    (h : Host) :
    ∃ t, Recorded d₀ (calls ++ [(p, h.now)]) (trails ++ [t]) (dispatch p (d, h)).2.1 := by
  obtain ⟨n, taken, next⟩ := recorded.taken
  have plain : ∀ i, (d.transport.answer i).isPlain = true := fun i => next i ▸ plain _
  obtain ⟨result, made, delivery, e, k, run, -, dispatched⟩ := dispatch_run plain p h
  obtain ⟨t, rfl, answers, fits, reported⟩ := dispatched.trail plain
  rw [recorded.settings] at fits reported
  rw [run]
  refine ⟨t, dispatched.settings.trans recorded.settings, ?_, ⟨n + made, ?_, fun i => ?_⟩, ?_, ?_⟩
  · exact List.rel_append recorded.fits (.cons fits .nil)
  · rw [List.flatMap_append, taken, List.flatMap_singleton, answers, List.range_add,
      List.map_append, List.map_map]
    exact congrArg _ (List.map_congr_left fun i _ => next i)
  · rw [dispatched.sent.answers, next, Nat.sub_zero, Nat.add_assoc]
  · rw [dispatched.history, recorded.history, ← List.map_singleton, ← List.map_append, rtake_map,
      Window.rtake_rtake_append]
  · rw [dispatched.reports, recorded.reports, List.filter_append, List.map_append, reported]
    cases spent : t.spent d₀.settings <;> simp [spent]

theorem Course.recorded (course : Course d₀ calls d)
    (plain : ∀ i, (d₀.transport.answer i).isPlain = true) (new : d₀.history = [])
    (unreported : d₀.reports = []) : ∃ trails, Recorded d₀ calls trails d := by
  induction course with
  | start => exact ⟨[], rfl, .nil, ⟨0, rfl, fun i => by rw [Nat.zero_add]⟩, new, unreported⟩
  | dispatched _ p h ih =>
    obtain ⟨trails, recorded⟩ := ih
    obtain ⟨t, next⟩ := recorded.next plain p h
    exact ⟨trails ++ [t], next⟩

theorem fits_of_mem {s : Settings} (fits : List.Forall₂ (Trail.Fits s) calls trails) {t : Trail}
    (member : t ∈ trails) :
    ∃ call, t.Fits s call := by
  induction fits with
  | nil => cases member
  | cons first _ ih =>
    rcases List.mem_cons.1 member with rfl | member
    · exact ⟨_, first⟩
    · exact ih member

/-- The failed deliveries are, of the latest ones, those that were posted, in vain, and whose
last post left a text. -/
theorem Recorded.failedDeliveries (recorded : Recorded d₀ calls trails d) : d.failedDeliveries =
    ((trails.rtake historyLimit).filter fun t => !t.met && !t.answers.isEmpty && !t.silent).map
      Trail.delivery := by
  have told : ∀ t ∈ trails.rtake historyLimit,
      t.delivery.hasFailed = (!t.met && !t.answers.isEmpty && !t.silent) := fun t member => by
    obtain ⟨call, fits⟩ := fits_of_mem recorded.fits ((Window.rtake_suffix _ _).subset member)
    exact fits.failed
  rw [Dispatcher.failedDeliveries, recorded.history, List.filter_map]
  exact congrArg _ (List.filter_congr told)

theorem filter_eq_filter_iff {α : Type} {f g : α → Bool} {l : List α} : l.filter f = l.filter g ↔
    ∀ x ∈ l, f x = g x := by
  refine ⟨fun same x member => ?_, List.filter_congr⟩
  have kept : x ∈ l.filter f ↔ x ∈ l.filter g := by rw [same]
  rw [List.mem_filter, List.mem_filter, and_iff_right member, and_iff_right member] at kept
  exact Bool.eq_iff_iff.2 kept

/-- They are the spent ones just when each of the latest that was posted in vain is
either spent or silent. -/
theorem Recorded.failedDeliveries_eq_iff (recorded : Recorded d₀ calls trails d) :
    d.failedDeliveries =
      ((trails.rtake historyLimit).filter (Trail.spent d₀.settings)).map Trail.delivery ↔
      ∀ t ∈ trails.rtake historyLimit, t.answers ≠ [] → t.met = false →
        (t.spent d₀.settings = true ↔ t.silent = false) := by
  have fits : ∀ t ∈ trails.rtake historyLimit, ∃ call, t.Fits d₀.settings call := fun t member =>
    fits_of_mem recorded.fits ((Window.rtake_suffix _ _).subset member)
  -- Whether a delivery is spent can be told from it alone, so that one in the list stands for
  -- all that are like it.
  let used (x : Delivery) : Bool :=
    d₀.settings.webhookAttempts.toOption = some x.attempts && !x.delivered
  have told : ∀ t ∈ trails.rtake historyLimit, t.spent d₀.settings = used t.delivery :=
    fun t member => by
    obtain ⟨call, fits⟩ := fits t member
    simp only [Trail.spent, used, fits.attempts, fits.delivered]
  have spent : ((trails.rtake historyLimit).filter (Trail.spent d₀.settings)).map Trail.delivery =
      d.history.filter used := by
    rw [recorded.history, List.filter_map, List.filter_congr told]
    rfl
  rw [spent, Dispatcher.failedDeliveries, filter_eq_filter_iff, recorded.history, List.forall_mem_map]
  refine forall₂_congr fun t member => ?_
  obtain ⟨call, fits⟩ := fits t member
  rw [fits.failed, ← told t member]
  have posted := Trail.posted_of_spent (s := d₀.settings) (t := t)
  cases all : t.spent d₀.settings with
  | true =>
    obtain ⟨some, unmet⟩ := posted all
    simp [some, unmet]
  | false => cases t.met <;> simp

/-- A delivery is reported just when its attempts are used up and none delivered. The failed
deliveries are, of the latest ones, those that were posted, in vain, and whose last post
left a text. So they are the spent ones just when each of the latest that was posted in vain
is either spent or silent, which says that none is silent where the number of attempts and
the pauses can be told. -/
theorem failed_deliveries_tell (plain : ∀ reply ∈ d₀.transport.script, reply.isPlain = true)
    (new : d₀.history = [])
    (unreported : d₀.reports = []) (course : Course d₀ calls d) :
      ∃ trails, Recorded d₀ calls trails d ∧
      d.failedDeliveries =
        ((trails.rtake historyLimit).filter fun t => !t.met && !t.answers.isEmpty && !t.silent).map
          Trail.delivery ∧
      (d.failedDeliveries =
        ((trails.rtake historyLimit).filter (Trail.spent d₀.settings)).map Trail.delivery ↔
        ∀ t ∈ trails.rtake historyLimit, t.answers ≠ [] → t.met = false →
          (t.spent d₀.settings = true ↔ t.silent = false)) ∧
      (d₀.settings.Regular → ∀ t ∈ trails, t.answers ≠ [] → t.met = false →
        t.spent d₀.settings = true) := by
  obtain ⟨trails, recorded⟩ := course.recorded (Transport.isPlain_answer plain) new unreported
  refine ⟨trails, recorded, recorded.failedDeliveries, recorded.failedDeliveries_eq_iff,
    fun regular t member posted unmet => ?_⟩
  obtain ⟨call, fits⟩ := fits_of_mem recorded.fits member
  exact fits.ended.spent_of_regular regular posted unmet

def hushed : Dispatcher where
  settings := { Settings.initial (.ofText "home") .first with webhookRetries := .int 1 }
  transport := { script := [.refused "", .response 500 ""] }

/-- The first of two spent deliveries is reported, but it is not among the failed ones. -/
theorem failed_deliveries_tell_hushed :
    ∃ d trails, Course hushed [(greeting, .first), (greeting, .first)] d ∧
    hushed.settings.Regular ∧ Recorded hushed [(greeting, .first), (greeting, .first)] trails d ∧
    d.reports.length = 2 ∧ d.failedDeliveries.length = 1 ∧
    d.failedDeliveries ≠ ((trails.rtake historyLimit).filter (Trail.spent hushed.settings)).map
      Trail.delivery ∧
    ∃ t ∈ trails.rtake historyLimit, t.spent hushed.settings = true ∧ t.silent = true := by
  have course : Course hushed _ _ :=
    .dispatched (.dispatched .start greeting .still) greeting .still
  have plain : ∀ reply ∈ hushed.transport.script, reply.isPlain = true := by decide
  have regular : hushed.settings.Regular := ⟨1, rfl, fun i few => by omega⟩
  obtain ⟨trails, recorded, -, told, vain⟩ := failed_deliveries_tell plain rfl rfl course
  have reports :
      (dispatch greeting ((dispatch greeting (hushed, .still)).2.1, .still)).2.1.reports.length =
      2 := by decide +kernel
  have failed :
      (dispatch greeting
        ((dispatch greeting (hushed, .still)).2.1, .still)).2.1.failedDeliveries.length = 1 := by
    decide +kernel
  have all : trails.rtake historyLimit = trails := by
    have short : trails.length - historyLimit = 0 := by
      rw [← recorded.fits.length_eq]
      decide
    rw [List.rtake, short, List.drop_zero]
  have hidden : ¬∀ t ∈ trails.rtake historyLimit, t.answers ≠ [] → t.met = false →
      (t.spent hushed.settings = true ↔ t.silent = false) := by
    intro spoken
    have same := congrArg List.length (told.2 spoken)
    rw [failed, all, List.length_map] at same
    rw [recorded.reports, List.length_map] at reports
    omega
  refine ⟨_, trails, course, regular, recorded, reports, failed, mt told.1 hidden, ?_⟩
  push Not at hidden
  obtain ⟨t, member, posted, unmet, odd⟩ := hidden
  have spent := vain regular t (all ▸ member) posted unmet
  refine ⟨t, member, spent, ?_⟩
  simpa [spent] using odd

end Dispatcher
end LeadRules
