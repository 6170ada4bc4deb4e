import LeadRules.EdgeStore
import LeadRules.Proofs.OrderedMap

/-! What a transition leaves of the edge states. A trigger that has seen an event does not fire on
it again, nor does its state change again, unless it keeps no state at all. -/
namespace LeadRules

theorem Binary64.alike_self {x : Binary64} (plain : x ≠ .nan .computed) : x.alike x = true := by
  rcases x with (_ | _) | ⟨negative, rank, bounded⟩
  · rfl
  · exact absurd rfl plain
  · simp [alike, same, compareWith, place?]

/-- Only numbers can be compared. -/
theorem Binary64.compareWith_iff {holds : Int → Int → Bool} {x y : Binary64} :
    compareWith holds x y = true ↔
    ∃ m n, x.place? = some m ∧ y.place? = some n ∧ holds m n = true := by
  unfold compareWith
  cases x.place? <;> cases y.place? <;> simp

namespace Value

mutual
/-- Whether a value has no NaN but the named one, as every value read from a JSON text. -/
def isPlain : Value → Bool
  | float x => x ≠ .nan .computed
  | list items => arePlain items
  | map entries => havePlain entries
  | _ => true
def arePlain : List Value → Bool
  | [] => true
  | v :: rest => isPlain v && arePlain rest
def havePlain : List (Value × Value) → Bool
  | [] => true
  | (k, v) :: rest => isPlain k && isPlain v && havePlain rest
end

theorem alikeEntries_of_forall {entries others : List (Value × Value)}
    (found : ∀ e ∈ entries, e ∈ others ∧ alike e.1 e.1 = true ∧ alike e.2 e.2 = true) :
    alikeEntries entries others = true := by
  induction entries with
  | nil => rfl
  | cons e rest ih =>
    obtain ⟨there, keys, values⟩ := found e List.mem_cons_self
    have here : (others.any fun e' => alike e.1 e'.1 && alike e.2 e'.2) = true :=
      List.any_eq_true.2 ⟨e, there, by simp [keys, values]⟩
    simpa [alikeEntries, here] using ih fun e member => found e (List.mem_cons_of_mem _ member)

mutual
/-- A value without a computed NaN is like itself. -/
theorem alike_self : ∀ {v : Value}, v.isPlain = true → alike v v = true
  | null, _ => rfl
  | bool _, _ => by simp [alike, alikeNumber, asInt?]
  | int _, _ => by simp [alike, alikeNumber, asInt?]
  | float _, plain =>
    by simpa [alike, alikeNumber, asInt?] using Binary64.alike_self (by simpa [isPlain] using plain)
  | text _, _ => by simp [alike]
  | list _, plain => by simpa [alike] using alikeItems_self (by simpa [isPlain] using plain)
  | map entries, plain => by
    simpa [alike] using alikeEntries_of_forall fun e member =>
      ⟨member, alike_entry (by simpa [isPlain] using plain) e member⟩
theorem alikeItems_self : ∀ {items : List Value}, arePlain items = true →
    alikeItems items items = true
  | [], _ => rfl
  | _ :: _, plain => by
    obtain ⟨first, rest⟩ := Bool.and_eq_true_iff.1 plain
    simp [alikeItems, alike_self first, alikeItems_self rest]
theorem alike_entry : ∀ {entries : List (Value × Value)}, havePlain entries = true →
    ∀ e ∈ entries, alike e.1 e.1 = true ∧ alike e.2 e.2 = true
  | (k, v) :: rest, plain, e, member => by
    obtain ⟨here, later⟩ := Bool.and_eq_true_iff.1 plain
    obtain ⟨key, value⟩ := Bool.and_eq_true_iff.1 here
    rcases List.mem_cons.1 member with rfl | member
    · exact ⟨alike_self key, alike_self value⟩
    · exact alike_entry later e member
end

end Value

/-- Whether the transition that an event tells of is recognised when it comes again. -/
def Occurrence.isPlain : Occurrence → Bool
  | stageChanged old new => old.isPlain && new.isPlain
  | scoreChanged previous new => (Value.float previous).isPlain && (Value.float new).isPlain
  | _ => true

namespace EdgeState

theorem isRepeat_self {p : Value × Value} (first : p.1.isPlain = true)
    (second : p.2.isPlain = true) :
    isRepeat p p = true := by
  simp [isRepeat, Value.alike_self first, Value.alike_self second]

@[simp] theorem isAlteredBy_nothing (s : EdgeState) : s.isAlteredBy {} = false := by simp [isAlteredBy]

@[simp] theorem isAlteredBy_score (s : EdgeState) (p : Value × Value) :
    s.isAlteredBy { score := some p } = !isRepeat (s.scoreFrom, s.score) p := by simp [isAlteredBy]

@[simp] theorem isAlteredBy_stage (s : EdgeState) (p : Value × Value) :
    s.isAlteredBy { stage := some p } = !isRepeat (s.stageFrom, s.stage) p := by simp [isAlteredBy]

/-- A state after a change, which counts only if it makes a difference. -/
def settle (s : EdgeState) (c : EdgeChange) : EdgeState := if s.isAlteredBy c then s.apply c else s

end EdgeState

namespace Trigger

/-- What an event does to a state: nothing, or it tells the trigger what it waits for, and changes
its part of the state alone. -/
inductive Matched (e : Event) (s : EdgeState) : Trigger → Bool × EdgeChange → Prop
  | unmoved {t : Trigger} : Matched e s t (false, {})
  | created (occurrence : e.occurrence = .leadCreated) (first : s.firedAt = none) :
      Matched e s .newLead (true, { firedAt := some (some e.occurredAt) })
  | idle {hours : Binary64} {reference : DateTime} (occurrence : e.occurrence = .idleScanTick)
      (since : e.lead.idleReference = some reference)
        (long : (idleHours e.occurredAt reference).lt hours = false)
      (unmarked : s.idleMarker ≠ some reference) :
      Matched e s (.leadUntouched hours) (true, { idleMarker := some (some reference) })
  | stage {toStage : Text} {old new : Value} (occurrence : e.occurrence = .stageChanged old new) :
      Matched e s (.stageChanged toStage)
        (new.same (.text toStage) && !old.same (.text toStage) &&
          !EdgeState.isRepeat (s.stageFrom, s.stage) (old, new),
          { stage := some (old, new) })
  | completed {outcome : Value} (occurrence : e.occurrence = .taskCompleted outcome) :
      Matched e s .taskCompleted (true, {})
  | score {threshold previous new : Binary64}
      (occurrence : e.occurrence = .scoreChanged previous new) :
      Matched e s (.scoreReaches threshold)
        (previous.lt threshold && threshold.le new &&
          !EdgeState.isRepeat (s.scoreFrom, s.score) (.float previous, .float new),
          { score := some (.float previous, .float new) })

theorem matched (t : Trigger) (e : Event) (s : EdgeState) : Matched e s t (t.matchEvent e s) := by
  cases t with
  | newLead =>
    cases occurrence : e.occurrence with
    | leadCreated =>
      cases first : s.firedAt with
      | none => simpa [matchEvent, occurrence, first] using Matched.created occurrence first
      | some time => simpa [matchEvent, occurrence, first] using Matched.unmoved
    | _ => simpa [matchEvent, occurrence] using Matched.unmoved
  | leadUntouched hours =>
    cases occurrence : e.occurrence with
    | idleScanTick =>
      cases since : e.lead.idleReference with
      | none => simpa [matchEvent, occurrence, since] using Matched.unmoved
      | some reference =>
        cases long : (idleHours e.occurredAt reference).lt hours with
        | true => simpa [matchEvent, occurrence, since, long] using Matched.unmoved
        | false =>
          by_cases marked : s.idleMarker = some reference
          · simpa [matchEvent, occurrence, since, long, marked] using Matched.unmoved
          · simpa [matchEvent, occurrence, since, long, marked]
              using Matched.idle occurrence since long marked
    | _ => simpa [matchEvent, occurrence] using Matched.unmoved
  | stageChanged toStage =>
    cases occurrence : e.occurrence with
    | stageChanged old new => simpa [matchEvent, occurrence] using Matched.stage occurrence
    | _ => simpa [matchEvent, occurrence] using Matched.unmoved
  | taskCompleted =>
    cases occurrence : e.occurrence with
    | taskCompleted outcome => simpa [matchEvent, occurrence] using Matched.completed occurrence
    | _ => simpa [matchEvent, occurrence] using Matched.unmoved
  | scoreReaches threshold =>
    cases occurrence : e.occurrence with
    | scoreChanged previous new => simpa [matchEvent, occurrence] using Matched.score occurrence
    | _ => simpa [matchEvent, occurrence] using Matched.unmoved

structure Seen (t : Trigger) (e : Event) (s : EdgeState) : Prop where
  unaltered : s.isAlteredBy (t.matchEvent e s).2 = false
  /-- Only a trigger that keeps no state fires once more. -/
  stateless : (t.matchEvent e s).1 = true → t = .taskCompleted

theorem matchEvent_taskCompleted (e : Event) (s t : EdgeState) :
    taskCompleted.matchEvent e s = taskCompleted.matchEvent e t := by
  cases occurrence : e.occurrence <;> simp [matchEvent, occurrence]

/-- A trigger on completed tasks has nothing to remember. -/
theorem unaltered_taskCompleted (e : Event) (s : EdgeState) :
    s.isAlteredBy (taskCompleted.matchEvent e s).2 = false := by
  cases occurrence : e.occurrence <;> simp [matchEvent, occurrence]

/-- After an event a trigger has seen it, whatever it knew before. -/
theorem seen_matchEvent (t : Trigger) {e : Event} (plain : e.occurrence.isPlain = true)
    (s : EdgeState) :
    Seen t e (s.settle (t.matchEvent e s).2) := by
  have matched := t.matched e s
  generalize told : t.matchEvent e s = x at matched ⊢
  cases matched with
  | unmoved => constructor <;> simp [EdgeState.settle, told]
  | created occurrence first =>
    constructor <;>
      simp [matchEvent, occurrence, first, EdgeState.settle, EdgeState.isAlteredBy, EdgeState.apply]
  | @idle hours reference occurrence since long unmarked =>
    have altered : s.isAlteredBy { idleMarker := some (some reference) } = true := by
      simp [EdgeState.isAlteredBy, Ne.symm unmarked]
    constructor <;> simp [matchEvent, occurrence, since, long, EdgeState.settle, altered, EdgeState.apply]
  | @stage toStage old new occurrence =>
    simp only [occurrence, Occurrence.isPlain, Bool.and_eq_true] at plain
    have again := EdgeState.isRepeat_self (p := (old, new)) plain.1 plain.2
    cases repeated : EdgeState.isRepeat (s.stageFrom, s.stage) (old, new) with
    | true => constructor <;> simp [matchEvent, occurrence, EdgeState.settle, repeated]
    | false =>
      constructor <;>
        simp [matchEvent, occurrence, EdgeState.settle, EdgeState.apply, repeated, again]
  | completed => exact ⟨unaltered_taskCompleted .., fun _ => rfl⟩
  | @score threshold previous new occurrence =>
    simp only [occurrence, Occurrence.isPlain, Bool.and_eq_true] at plain
    have again := EdgeState.isRepeat_self (p := (.float previous, .float new)) plain.1 plain.2
    cases repeated : EdgeState.isRepeat (s.scoreFrom, s.score) (.float previous, .float new) with
    | true => constructor <;> simp [matchEvent, occurrence, EdgeState.settle, repeated]
    | false =>
      constructor <;>
        simp [matchEvent, occurrence, EdgeState.settle, EdgeState.apply, repeated, again]

end Trigger

namespace EdgeStore

variable {s : EdgeStore} {key other : EdgeKey} {step : EdgeState → Bool × EdgeChange}

theorem transition_unaltered (same : (s.get key).isAlteredBy (step (s.get key)).2 = false) :
    s.transition key step = { fired := (step (s.get key)).1, store := s } := by
  simp [transition, same]

theorem transition_altered (differs : (s.get key).isAlteredBy (step (s.get key)).2 = true) :
    s.transition key step =
      s.remember key ((s.get key).apply (step (s.get key)).2) (step (s.get key)).1 := by
  simp [transition, differs]

theorem fired_transition : (s.transition key step).fired = (step (s.get key)).1 := by
  cases differs : (s.get key).isAlteredBy (step (s.get key)).2 with
  | true => rw [transition_altered differs]; rfl
  | false => rw [transition_unaltered differs]

theorem exhausted_transition : (s.transition key step).exhausted =
    ((s.get key).isAlteredBy (step (s.get key)).2 && decide (s.maxEntries < 0)) := by
  cases differs : (s.get key).isAlteredBy (step (s.get key)).2 with
  | true => rw [transition_altered differs]; rfl
  | false => rw [transition_unaltered differs]; rfl

theorem maxEntries_transition (s : EdgeStore) (key : EdgeKey)
    (step : EdgeState → Bool × EdgeChange) :
    (s.transition key step).store.maxEntries = s.maxEntries := by
  unfold EdgeStore.transition
  simp only
  split <;> rfl

/-- A transition stores nothing but its own state, and that only if it is altered. -/
theorem mem_transition {e : (Key × Key) × EdgeKey × EdgeState}
    (member : e ∈ (s.transition key step).store.states.entries) :
    e ∈ s.states.entries ∨ ((s.get key).isAlteredBy (step (s.get key)).2 = true ∧
      e = (key.identity, ((s.states.get? key.identity).map (·.1)).getD key,
        (s.get key).apply (step (s.get key)).2)) := by
  cases differs : (s.get key).isAlteredBy (step (s.get key)).2 with
  | true =>
    rw [transition_altered differs] at member
    exact (OrderedMap.mem_putWrittenLast (OrderedMap.mem_entries_boundTo member)).imp_right
      fun new => ⟨rfl, new⟩
  | false =>
    rw [transition_unaltered differs] at member
    exact .inl member

section Remember

variable {state : EdgeState} {fired : Bool}

/-- A changed state that drops none was stored beside all the others. -/
theorem states_remember (kept : (s.remember key state fired).dropped = []) :
    (s.remember key state fired).store.states = s.states.putWrittenLast key.identity key state := by
  refine OrderedMap.boundTo_of_excess ?_
  have member : key.identity ∈ (s.states.putWrittenLast key.identity key state).keys := by
    simp [OrderedMap.keys_putWrittenLast]
  have filled : (s.states.putWrittenLast key.identity key state).values.map (·.1) ≠ [] := by
    intro none
    simp_all [OrderedMap.keys, OrderedMap.values]
  exact (List.take_eq_nil_iff.1 kept).resolve_right filled

theorem get_remember_self (kept : (s.remember key state fired).dropped = []) :
    (s.remember key state fired).store.get key = state := by
  rw [get, states_remember kept, OrderedMap.get?_putWrittenLast, if_pos rfl]
  rfl

theorem get_remember_other (apart : other.identity ≠ key.identity)
    (kept : (s.remember key state fired).dropped = []) :
    (s.remember key state fired).store.get other = s.get other := by
  rw [get, states_remember kept, OrderedMap.get?_putWrittenLast, if_neg apart]
  rfl

end Remember

theorem get_transition_self (kept : (s.transition key step).dropped = []) :
    (s.transition key step).store.get key = (s.get key).settle (step (s.get key)).2 := by
  cases differs : (s.get key).isAlteredBy (step (s.get key)).2 with
  | true =>
    rw [transition_altered differs] at kept ⊢
    rw [get_remember_self kept, EdgeState.settle, if_pos differs]
  | false => rw [transition_unaltered differs, EdgeState.settle, differs, if_neg Bool.false_ne_true]

theorem get_transition_other (apart : other.identity ≠ key.identity)
    (kept : (s.transition key step).dropped = []) :
    (s.transition key step).store.get other = s.get other := by
  cases differs : (s.get key).isAlteredBy (step (s.get key)).2 with
  | true =>
    rw [transition_altered differs] at kept ⊢
    exact get_remember_other apart kept
  | false => rw [transition_unaltered differs]

end EdgeStore
end LeadRules
