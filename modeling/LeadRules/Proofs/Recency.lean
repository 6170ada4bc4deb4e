import LeadRules.Proofs.Amounts
import LeadRules.Proofs.EdgeStates
import LeadRules.Proofs.Turn
import LeadRules.Proofs.Window
import Mathlib.Data.List.Dedup

/-! The edge states as a cache. Of the keys whose states were altered those are kept whose last
change is latest, as many as there is room for; and what is kept of a key tells of all its steps
since it was last absent. -/
namespace LeadRules

namespace Recency

variable {κ : Type} {l before later : List κ} {k : κ} {n : Nat}

theorem exists_last (member : k ∈ l) : ∃ before later, l = before ++ k :: later ∧ k ∉ later := by
  obtain ⟨later, before, parts, last⟩ := List.eq_append_cons_of_mem (List.mem_reverse.2 member)
  refine ⟨before.reverse, later.reverse, ?_, by simpa using last⟩
  rw [← List.reverse_reverse l, parts]
  simp

variable [DecidableEq κ]

/-- Of all times that a key comes in the last one counts. -/
theorem dedup_concat (l : List κ) (k : κ) : (l ++ [k]).dedup = l.dedup.filter (· ≠ k) ++ [k] := by
  induction l with
  | nil => rfl
  | cons x rest ih =>
    by_cases again : x ∈ rest
    · rw [List.cons_append, List.dedup_cons_of_mem (List.mem_append_left _ again),
        List.dedup_cons_of_mem again, ih]
    · by_cases same : x = k
      · rw [List.cons_append, List.dedup_cons_of_mem (by simp [same]), List.dedup_cons_of_notMem again, ih]
        simp [same]
      · rw [List.cons_append, List.dedup_cons_of_notMem (by simp [again, same]),
          List.dedup_cons_of_notMem again, ih]
        simp [same]

/-- It makes no difference whether the oldest keys are dropped before another one comes in, too. -/
theorem rtake_filter_concat (distinct : l.Nodup) (k : κ) (n : Nat) :
    ((l.rtake n).filter (· ≠ k) ++ [k]).rtake n = (l.filter (· ≠ k) ++ [k]).rtake n := by
  by_cases short : l.length ≤ n
  · have all : l.rtake n = l := by rw [List.rtake, Nat.sub_eq_zero_of_le short, List.drop_zero]
    rw [all]
  · obtain ⟨old, parts⟩ := Window.rtake_suffix l n
    have full : (l.rtake n).length = n := by
      rw [List.rtake, List.length_drop]
      omega
    have once : ((l.rtake n).filter fun x => !decide (x ≠ k)).length ≤ 1 := by
      have := List.nodup_iff_count_le_one.1 (distinct.sublist (Window.rtake_suffix l n).sublist) k
      rw [List.count, List.countP_eq_length_filter] at this
      simpa [beq_eq_decide] using this
    have split := List.length_eq_length_filter_add (l := l.rtake n) fun x => decide (x ≠ k)
    have enough : n ≤ ((l.rtake n).filter (· ≠ k) ++ [k]).length := by
      rw [List.length_append, List.length_singleton]
      omega
    conv_rhs =>
      rw [← parts, List.filter_append, List.append_assoc, Window.rtake_append_of_le enough]

/-- A key is among the last ones just if there are fewer others that came in after its last time. -/
theorem mem_rtake_dedup (last : k ∉ later) : k ∈ (before ++ k :: later).dedup.rtake n ↔
    later.dedup.length < n := by
  obtain ⟨old, parts⟩ : k :: later.dedup <:+ (before ++ k :: later).dedup := by
    rw [List.dedup_append, List.dedup_cons_of_notMem last]
    exact List.suffix_union_right before _
  rw [← parts]
  refine ⟨fun member => ?_, Window.mem_rtake_append⟩
  by_contra many
  rw [List.append_cons, Window.rtake_append_of_le (Nat.le_of_not_lt many)] at member
  exact last (List.mem_dedup.1 ((Window.rtake_suffix _ n).subset member))

end Recency

namespace EdgeState

/-- Two states whose components are equal each, as containers compare them or as they are written.
-/
structure Alike (a b : EdgeState) : Prop where
  lead : a.lead = b.lead
  rule : a.rule = b.rule
  score : a.score = b.score ∨ a.score.alike b.score = true
  scoreFrom : a.scoreFrom = b.scoreFrom ∨ a.scoreFrom.alike b.scoreFrom = true
  stage : a.stage = b.stage ∨ a.stage.alike b.stage = true
  stageFrom : a.stageFrom = b.stageFrom ∨ a.stageFrom.alike b.stageFrom = true
  idleMarker : a.idleMarker = b.idleMarker
  firedAt : a.firedAt = b.firedAt

theorem Alike.refl (s : EdgeState) : Alike s s :=
  ⟨rfl, rfl, .inl rfl, .inl rfl, .inl rfl, .inl rfl, rfl, rfl⟩

theorem Alike.trans {a b c : EdgeState} (first : Alike a b) (second : Alike b c) : Alike a c := by
  have either {u v w : Value} (left : u = v ∨ u.alike v = true) (right : v = w ∨ v.alike w = true) :
      u = w ∨ u.alike w = true := by
    rcases left with rfl | left
    · exact right
    · rcases right with rfl | right
      · exact .inr left
      · exact .inr (Value.alike_trans left right)
  exact ⟨first.lead.trans second.lead, first.rule.trans second.rule,
    either first.score second.score, either first.scoreFrom second.scoreFrom,
    either first.stage second.stage, either first.stageFrom second.stageFrom,
    first.idleMarker.trans second.idleMarker, first.firedAt.trans second.firedAt⟩

/-- A change that makes no difference leaves an equal state. -/
theorem alike_of_unaltered {s : EdgeState} {c : EdgeChange} (same : s.isAlteredBy c = false) :
    Alike (s.apply c) s := by
  have equal {seen : Value × Value} {p : Option (Value × Value)}
    (again : p.all (isRepeat seen) = true) :
      ((p.map (·.1)).getD seen.1 = seen.1 ∨ ((p.map (·.1)).getD seen.1).alike seen.1 = true) ∧
        ((p.map (·.2)).getD seen.2 = seen.2 ∨ ((p.map (·.2)).getD seen.2).alike seen.2 = true) := by
    cases p with
    | none => exact ⟨.inl rfl, .inl rfl⟩
    | some p =>
      obtain ⟨first, second⟩ := Bool.and_eq_true_iff.1 again
      exact ⟨.inr first, .inr second⟩
  simp only [isAlteredBy, Bool.not_eq_false', Bool.and_eq_true, decide_eq_true_eq] at same
  obtain ⟨⟨⟨score, stage⟩, idle⟩, fired⟩ := same
  exact ⟨rfl, rfl, (equal score).2, (equal score).1, (equal stage).2, (equal stage).1, idle, fired⟩

abbrev Step := EdgeState → Bool × EdgeChange

def Respects (step : Step) : Prop :=
  ∀ a b, Alike a b → Alike (a.apply (step a).2) (b.apply (step b).2)

/-- A state after steps, each of which counts only if it makes a difference. -/
def settleAll (s : EdgeState) (steps : List Step) : EdgeState :=
  steps.foldl (fun s step => s.settle (step s).2) s

def applyAll (s : EdgeState) (steps : List Step) : EdgeState :=
  steps.foldl (fun s step => s.apply (step s).2) s

/-- A step that makes no difference may as well be applied. -/
theorem alike_settle (s : EdgeState) (c : EdgeChange) : Alike (s.apply c) (s.settle c) := by
  cases differs : s.isAlteredBy c with
  | true =>
    rw [settle, if_pos differs]
    exact .refl _
  | false =>
    rw [settle, differs, if_neg Bool.false_ne_true]
    exact alike_of_unaltered differs

theorem applyAll_alike {steps : List Step} (respected : ∀ step ∈ steps, Respects step)
    {a b : EdgeState} (alike : Alike a b) : Alike (a.applyAll steps) (b.settleAll steps) := by
  induction steps generalizing a b with
  | nil => exact alike
  | cons step rest ih =>
    have stepped := (respected step List.mem_cons_self a b alike).trans (alike_settle b _)
    exact ih (fun later member => respected later (List.mem_cons_of_mem _ member)) stepped

end EdgeState

/-- What an event makes of a state depends on no part of it in which equal states may differ. -/
theorem Trigger.respects_matchEvent (t : Trigger) (e : Event) :
    EdgeState.Respects (t.matchEvent e) := by
  intro a b alike
  have change : (t.matchEvent e a).2 = (t.matchEvent e b).2 := by
    cases t <;> cases occurrence : e.occurrence <;>
      simp only [matchEvent, occurrence, alike.firedAt, alike.idleMarker]
  rw [change]
  have either {u v : Value} (w : Option Value) (like : u = v ∨ u.alike v = true) :
      w.getD u = w.getD v ∨ (w.getD u).alike (w.getD v) = true := by
    cases w with
    | none => exact like
    | some w => exact .inl rfl
  exact ⟨alike.lead, alike.rule, either _ alike.score, either _ alike.scoreFrom,
    either _ alike.stage, either _ alike.stageFrom,
    by simp only [EdgeState.apply, alike.idleMarker], by simp only [EdgeState.apply, alike.firedAt]⟩

namespace EdgeStore

open EdgeState (Step)

structure Access where
  key : EdgeKey
  step : Step

def observeAll : List Access → StoreOp EdgeStore (List Bool)
  | [] => return []
  | a :: rest => do
    let fired ← observe a.key a.step
    let others ← observeAll rest
    return fired :: others

def after (s : EdgeStore) (accesses : List Access) : EdgeStore :=
  accesses.foldl (fun s a => (s.transition a.key a.step).store) s

def alters (s : EdgeStore) (a : Access) : Bool := (s.get a.key).isAlteredBy (a.step (s.get a.key)).2

/-- The keys whose states accesses alter, in their order and each as often as it is altered. -/
def altered (s : EdgeStore) : List Access → List (Key × Key)
  | [] => []
  | a :: rest =>
    let later := altered (s.transition a.key a.step).store rest
    if s.alters a then a.key.identity :: later else later

def stepsOf (id : Key × Key) (accesses : List Access) : List Step :=
  (accesses.filter (·.key.identity = id)).map (·.step)

/-- A key was absent before some accesses and has been there since the first of them. -/
structure EnteredBy (s : EdgeStore) (id : Key × Key) (before since : List Access) : Prop where
  absent : id ∉ (s.after before).states.keys
  there : ∀ some, some ≠ [] → some <+: since → id ∈ (s.after (before ++ some)).states.keys

variable {s : EdgeStore} {a : Access} {accesses before since : List Access}
  {id : Key × Key} {M : Nat}

theorem after_concat (s : EdgeStore) (accesses : List Access) (a : Access) :
    s.after (accesses ++ [a]) = ((s.after accesses).transition a.key a.step).store := by
  rw [after, List.foldl_append]
  rfl

theorem after_unaltered (same : (s.after accesses).alters a = false) :
    s.after (accesses ++ [a]) = s.after accesses := by
  rw [after_concat, transition_unaltered same]

theorem altered_concat (s : EdgeStore) (accesses : List Access) (a : Access) :
    s.altered (accesses ++ [a]) = s.altered accesses ++ if (s.after accesses).alters a then
      [a.key.identity] else [] := by
  induction accesses generalizing s with
  | nil => rfl
  | cons b rest ih =>
    have later := ih (s.transition b.key b.step).store
    simp only [List.cons_append, altered, later]
    split <;> rfl

theorem maxEntries_after (s : EdgeStore) (accesses : List Access) :
    (s.after accesses).maxEntries = s.maxEntries := by
  induction accesses using List.reverseRecOn with
  | nil => rfl
  | append_singleton accesses a ih => rw [after_concat, maxEntries_transition, ih]

/-- The key of an altered state becomes the last one, and only the last ones are kept. -/
theorem keys_altered (bound : s.maxEntries = M) (differs : s.alters a = true) :
    (s.transition a.key a.step).store.states.keys =
      (s.states.keys.filter (· ≠ a.key.identity) ++ [a.key.identity]).rtake M := by
  rw [transition_altered differs]
  simp only [remember, OrderedMap.keys_boundTo, OrderedMap.keys_putWrittenLast, OrderedMap.excess,
    ← OrderedMap.length_keys, bound]
  rw [List.rtake]
  congr 1
  omega

theorem keys_after (fresh : s.states = .empty) (bound : s.maxEntries = M) (accesses : List Access) :
    (s.after accesses).states.keys = (s.altered accesses).dedup.rtake M := by
  induction accesses using List.reverseRecOn with
  | nil =>
    rw [after, List.foldl_nil, fresh]
    simp [altered, OrderedMap.empty, OrderedMap.keys]
  | append_singleton accesses a ih =>
    rw [altered_concat]
    cases differs : (s.after accesses).alters a with
    | false => rw [after_unaltered differs, ih, if_neg Bool.false_ne_true, List.append_nil]
    | true =>
      have room : (s.after accesses).maxEntries = M := (maxEntries_after s accesses).trans bound
      rw [after_concat, keys_altered room differs, ih, if_pos rfl, Recency.dedup_concat,
        Recency.rtake_filter_concat (List.nodup_dedup _)]

theorem get_of_find {w : EdgeKey} {st : EdgeState}
    (found : s.states.get? a.key.identity = some (w, st)) : s.get a.key = st := by
  rw [get, found]
  rfl

theorem get_of_absent (absent : s.states.get? a.key.identity = none) :
    s.get a.key = .fresh a.key.1.value a.key.2.value := by
  rw [get, absent]
  rfl

/-- What is found after an access is what was there, or what the access stored. -/
theorem find_transition {w : EdgeKey} {st : EdgeState}
    (found : (s.transition a.key a.step).store.states.get? id = some (w, st)) :
    (s.states.get? id = some (w, st) ∧ (a.key.identity = id → s.alters a = false)) ∨
      (a.key.identity = id ∧ w = ((s.states.get? id).map (·.1)).getD a.key ∧
        st = (s.get a.key).settle (a.step (s.get a.key)).2) := by
  cases differs : s.alters a with
  | false =>
    rw [transition_unaltered differs] at found
    exact .inl ⟨found, fun _ => rfl⟩
  | true =>
    rw [transition_altered differs] at found
    have stored := OrderedMap.get?_of_boundTo found
    rw [OrderedMap.get?_putWrittenLast] at stored
    by_cases here : id = a.key.identity
    · subst here
      rw [if_pos rfl] at stored
      obtain ⟨rfl, rfl⟩ := Prod.mk.inj (Option.some.inj stored)
      exact .inr ⟨rfl, rfl, (if_pos differs).symm⟩
    · rw [if_neg here] at stored
      exact .inl ⟨stored, fun same => absurd same.symm here⟩

theorem stepsOf_concat (id : Key × Key) (accesses : List Access) (a : Access) :
    stepsOf id (accesses ++ [a]) = stepsOf id accesses ++ if a.key.identity = id then
      [a.step] else [] := by
  by_cases here : a.key.identity = id <;> simp [stepsOf, List.filter_append, here]

theorem settleAll_concat (st : EdgeState) (steps : List Step) (step : Step) :
    st.settleAll (steps ++ [step]) = (st.settleAll steps).settle (step (st.settleAll steps)).2 := by
  simp only [EdgeState.settleAll, List.foldl_append, List.foldl_cons, List.foldl_nil]

theorem EnteredBy.start (absent : id ∉ (s.after before).states.keys)
    (there : id ∈ (s.after (before ++ [a])).states.keys) :
    EnteredBy s id before [a] where
  absent := absent
  there some nonempty beginning := by
    rcases List.prefix_concat_iff.1 (show some <+: [] ++ [a] from beginning) with rfl | none
    · exact there
    · exact absurd (List.prefix_nil.1 none) nonempty

theorem EnteredBy.extend (entered : EnteredBy s id before since)
    (there : id ∈ (s.after (before ++ (since ++ [a]))).states.keys) :
    EnteredBy s id before (since ++ [a]) where
  absent := entered.absent
  there some nonempty beginning := by
    rcases List.prefix_concat_iff.1 beginning with rfl | earlier
    · exact there
    · exact entered.there some nonempty earlier

/-- A stored state is what the steps of its key made of a fresh one, from the access on with
which the key came in. -/
structure StoredSince (s : EdgeStore) (id : Key × Key) (w : EdgeKey) (st : EdgeState)
    (before since : List Access) : Prop where
  entered : EnteredBy s id before since
  /-- The key stands as it was written when it came in. -/
  key : since.head?.map (·.key) = some w
  identity : w.identity = id
  state : st = (EdgeState.fresh w.1.value w.2.value).settleAll (stepsOf id since)

theorem StoredSince.start (absent : id ∉ (s.after before).states.keys)
    (there : id ∈ (s.after (before ++ [a])).states.keys)
    (here : a.key.identity = id) : StoredSince s id a.key
      ((EdgeState.fresh a.key.1.value a.key.2.value).settle
        (a.step (.fresh a.key.1.value a.key.2.value)).2) before [a] where
  entered := .start absent there
  key := rfl
  identity := here
  state := by simp [stepsOf, here, EdgeState.settleAll]

theorem StoredSince.extend {w : EdgeKey} {st : EdgeState}
    (stored : StoredSince s id w st before since)
    (there : id ∈ (s.after (before ++ (since ++ [a]))).states.keys) :
    StoredSince s id w (if a.key.identity = id then st.settle (a.step st).2 else st) before
      (since ++ [a]) where
  entered := stored.entered.extend there
  key := by
    obtain ⟨first, head, same⟩ := Option.map_eq_some_iff.1 stored.key
    rw [List.head?_append, head, ← same]
    rfl
  identity := stored.identity
  state := by
    rw [stepsOf_concat]
    split
    · rw [settleAll_concat, ← stored.state]
    · rw [List.append_nil, stored.state]

theorem stored_after (fresh : s.states = .empty) {w : EdgeKey} {st : EdgeState}
    (found : (s.after accesses).states.get? id = some (w, st)) :
    ∃ before since, accesses = before ++ since ∧ StoredSince s id w st before since := by
  induction accesses using List.reverseRecOn generalizing w st with
  | nil =>
    rw [after, List.foldl_nil, fresh] at found
    cases found
  | append_singleton accesses a ih =>
    have there : id ∈ (s.after (accesses ++ [a])).states.keys := by
      rw [← OrderedMap.contains_iff, OrderedMap.contains, found]
      rfl
    rw [after_concat] at found
    -- What was there before goes on, and what was not there comes in now.
    have extended {w : EdgeKey} {st : EdgeState}
      (prior : (s.after accesses).states.get? id = some (w, st)) :
        ∃ before since, accesses ++ [a] = before ++ since ∧
          StoredSince s id w (if a.key.identity = id then st.settle (a.step st).2 else st)
            before since := by
      obtain ⟨before, since, rfl, stored⟩ := ih prior
      rw [List.append_assoc] at there
      exact ⟨before, since ++ [a], List.append_assoc .., stored.extend there⟩
    rcases find_transition found with ⟨prior, unaltered⟩ | ⟨rfl, rfl, rfl⟩
    · have kept : st = if a.key.identity = id then st.settle (a.step st).2 else st := by
        split
        next here =>
          subst here
          have same := unaltered rfl
          rw [alters, get_of_find prior] at same
          rw [EdgeState.settle, same, if_neg Bool.false_ne_true]
        · rfl
      rw [kept]
      exact extended prior
    · cases prior : (s.after accesses).states.get? a.key.identity with
      | some e =>
        obtain ⟨w, st⟩ := e
        rw [get_of_find prior]
        simpa using extended prior
      | none =>
        rw [get_of_absent prior]
        have absent : a.key.identity ∉ (s.after accesses).states.keys := by
          rw [← OrderedMap.contains_iff, OrderedMap.contains, prior]
          exact Bool.false_ne_true
        exact ⟨accesses, [a], rfl, .start absent there rfl⟩

/-- Accesses come to the flags of their steps, each at the state that is then stored. -/
theorem observeAll_run (room : 0 ≤ s.maxEntries) (accesses : List Access) (h : Host) :
    ∃ flags k, h.Relogged k ∧
    observeAll accesses (s, h) = (.ok flags, (s.after accesses, k)) ∧
      flags.length = accesses.length ∧
      ∀ before a later, accesses = before ++ a :: later →
        flags[before.length]? = some (a.step ((s.after before).get a.key)).1 := by
  induction accesses generalizing s h with
  | nil => exact ⟨[], h, .refl h, rfl, rfl, fun before a later parts => absurd parts (by simp)⟩
  | cons b rest ih =>
    obtain ⟨k, noted, run⟩ := observe_run b.key b.step s h
    have bounded : (s.transition b.key b.step).exhausted = false := by
      rw [exhausted_transition, decide_eq_false (Int.not_lt.2 room), Bool.and_false]
    rw [bounded, if_neg Bool.false_ne_true] at run
    have room' : 0 ≤ (s.transition b.key b.step).store.maxEntries := by rwa [maxEntries_transition]
    obtain ⟨flags, k', noted', run', length, told⟩ := ih room' k
    refine ⟨(s.transition b.key b.step).fired :: flags, k', noted.trans noted', ?_,
      congrArg Nat.succ length, fun before a later parts => ?_⟩
    · simp only [observeAll, Op.run_bind, run, run']
      rfl
    · cases before with
      | nil =>
        obtain ⟨rfl, -⟩ := List.cons_eq_cons.1 parts
        exact congrArg some fired_transition
      | cons c before =>
        obtain ⟨rfl, rest⟩ := List.cons_eq_cons.1 parts
        exact told before a later rest

/-- A key is kept just if it was altered and fewer others were since then than there is room for. -/
theorem mem_keys_after (fresh : s.states = .empty) (bound : s.maxEntries = M)
    (accesses : List Access) (id : Key × Key) :
    id ∈ (s.after accesses).states.keys ↔
      ∃ before later, s.altered accesses = before ++ id :: later ∧ id ∉ later ∧
        later.dedup.length < M := by
  rw [keys_after fresh bound]
  constructor
  · intro member
    have there : id ∈ s.altered accesses :=
      List.mem_dedup.1 ((Window.rtake_suffix _ M).subset member)
    obtain ⟨before, later, parts, last⟩ := Recency.exists_last there
    rw [parts, Recency.mem_rtake_dedup last] at member
    exact ⟨before, later, parts, last, member⟩
  · rintro ⟨before, later, parts, last, few⟩
    rw [parts, Recency.mem_rtake_dedup last]
    exact few

/-- The edge states are those of the keys that were altered last, in this order, as many as
there is room for. An access that makes no difference leaves everything as it is, and each flag
is that of its step. A stored state is what the steps of its key made of a fresh one since the
key was last absent; it equals what comes of applying them one after the other, if they do not
tell equal states apart. -/
theorem keeps_latest_altered (fresh : s.states = .empty) (bound : s.maxEntries = M)
    (accesses : List Access) :
    (∀ h, ∃ flags k, h.Relogged k ∧ observeAll accesses (s, h) = (.ok flags, (s.after accesses, k)) ∧
      flags.length = accesses.length ∧ ∀ before a later, accesses = before ++ a :: later →
        flags[before.length]? = some (a.step ((s.after before).get a.key)).1) ∧
    (s.after accesses).states.keys = (s.altered accesses).dedup.rtake M ∧
    (∀ id, id ∈ (s.after accesses).states.keys ↔
      ∃ before later, s.altered accesses = before ++ id :: later ∧ id ∉ later ∧
        later.dedup.length < M) ∧
    (∀ a, (s.after accesses).alters a = false → s.after (accesses ++ [a]) = s.after accesses) ∧
    ∀ id w st, (s.after accesses).states.get? id = some (w, st) →
      ∃ before since, accesses = before ++ since ∧ StoredSince s id w st before since ∧
        ((∀ step ∈ stepsOf id since, EdgeState.Respects step) →
          ((EdgeState.fresh w.1.value w.2.value).applyAll (stepsOf id since)).Alike st) := by
  refine ⟨observeAll_run (by omega) accesses, keys_after fresh bound accesses,
    mem_keys_after fresh bound accesses, fun a => after_unaltered, fun id w st found => ?_⟩
  obtain ⟨before, since, parts, stored⟩ := stored_after fresh found
  refine ⟨before, since, parts, stored, fun respected => ?_⟩
  rw [stored.state]
  exact EdgeState.applyAll_alike respected (.refl _)

def narrow : EdgeStore := { maxEntries := 1 }

def greeting (lead : Text) : Access where
  key := .ofTexts lead "r"
  step := Trigger.newLead.matchEvent
    { id := "e", lead := { id := lead }, occurredAt := .first, occurrence := .leadCreated }

def greetings : List Access := [greeting "L1", greeting "L2", greeting "L1"]

/-- The first lead is forgotten for the second one, so that it is greeted again; and what is
stored is what the greetings since made of a fresh state. -/
theorem keeps_latest_altered_narrow :
    (∃ flags k, observeAll greetings (narrow, .still) = (.ok flags, (narrow.after greetings, k)) ∧
      flags[2]? = some true) ∧
    (narrow.after greetings).states.keys = [(greeting "L1").key.identity] ∧
    ∀ id w st, (narrow.after greetings).states.get? id = some (w, st) → ∃ before since,
      greetings = before ++ since ∧
      ((EdgeState.fresh w.1.value w.2.value).applyAll (stepsOf id since)).Alike st := by
  obtain ⟨observed, keys, -, -, states⟩ :=
    keeps_latest_altered (s := narrow) (M := 1) rfl rfl greetings
  obtain ⟨flags, k, -, run, -, told⟩ := observed .still
  have respected : ∀ a ∈ greetings, EdgeState.Respects a.step := by
    intro a member
    obtain ⟨lead, rfl⟩ : ∃ lead, a = greeting lead := by
      simp only [greetings, List.mem_cons, List.not_mem_nil, or_false] at member
      rcases member with rfl | rfl | rfl <;> exact ⟨_, rfl⟩
    exact Trigger.respects_matchEvent _ _
  refine ⟨⟨flags, k, run, ?_⟩, ?_, fun id w st found => ?_⟩
  · exact (told [greeting "L1", greeting "L2"] (greeting "L1") [] rfl).trans (by decide +kernel)
  · rw [keys]
    decide +kernel
  · obtain ⟨before, since, parts, -, applied⟩ := states id w st found
    refine ⟨before, since, parts, applied fun step member => ?_⟩
    obtain ⟨a, there, rfl⟩ := List.mem_map.1 member
    exact respected a (parts ▸ List.mem_append_right before (List.mem_of_mem_filter there))

end EdgeStore
end LeadRules
