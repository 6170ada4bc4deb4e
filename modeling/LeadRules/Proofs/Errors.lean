import LeadRules.Proofs.Audit
import LeadRules.Proofs.Redelivery

/-! Rules that fail on an event. The state of the lead is stored before conditions and action are
looked at and stays when they fail, while the delivery is not recorded: the same event does not
fire the rule again, unless no state was kept. -/
namespace LeadRules

namespace Trigger

variable {t : Trigger} {e : Event} {s : EdgeState}

/-- A trigger that keeps a state changes it whenever it fires. -/
theorem altered_of_fired (fired : (t.matchEvent e s).1 = true) (keeps : t ≠ .taskCompleted) :
    s.isAlteredBy (t.matchEvent e s).2 = true := by
  have matched := t.matched e s
  generalize t.matchEvent e s = told at matched fired ⊢
  cases matched with
  | unmoved => cases fired
  | created occurrence first => simp [EdgeState.isAlteredBy, first]
  | idle occurrence since long unmarked => simp [EdgeState.isAlteredBy, Ne.symm unmarked]
  | stage => simpa using (Bool.and_eq_true_iff.1 fired).2
  | score => simpa using (Bool.and_eq_true_iff.1 fired).2
  | completed => exact absurd rfl keeps

/-- What fires a trigger on some state fires it on a fresh one. -/
theorem fires_fresh (fired : (t.matchEvent e s).1 = true) (lead rule : Value) :
    (t.matchEvent e (.fresh lead rule)).1 = true := by
  have matched := t.matched e s
  generalize t.matchEvent e s = told at matched fired
  cases matched with
  | unmoved => cases fired
  | created occurrence first => simp [matchEvent, occurrence, EdgeState.fresh]
  | idle occurrence since long unmarked =>
    simp [matchEvent, occurrence, since, long, EdgeState.fresh]
  | @stage toStage old new occurrence =>
    simp only [matchEvent, occurrence, Bool.and_eq_true] at fired ⊢
    obtain ⟨⟨entered, left⟩, -⟩ := fired
    refine ⟨⟨entered, left⟩, ?_⟩
    have some : Value.alike new .null = false := by
      cases new with
      | null => simp [Value.same, Value.alike] at entered
      | _ => simp [Value.alike, Value.alikeNumber, Value.asInt?]
    simp [EdgeState.fresh, EdgeState.isRepeat, some]
  | score occurrence =>
    simp only [matchEvent, occurrence, Bool.and_eq_true] at fired ⊢
    refine ⟨fired.1, ?_⟩
    simp [EdgeState.fresh, EdgeState.isRepeat, Value.alike, Value.alikeNumber, Value.asInt?]
  | completed occurrence => simp [matchEvent, occurrence]

/-- Scores that are no numbers fire no trigger, so that only the values of stages are left to be
told from themselves. -/
theorem plain_of_fired (fired : (t.matchEvent e s).1 = true)
    (stages : ∀ old new, e.occurrence = .stageChanged old new → old.isPlain = true ∧ new.isPlain = true) :
    e.occurrence.isPlain = true := by
  have matched := t.matched e s
  generalize t.matchEvent e s = told at matched fired
  cases matched with
  | unmoved => cases fired
  | created occurrence | idle occurrence | completed occurrence =>
    rw [occurrence]
    rfl
  | stage occurrence =>
    obtain ⟨left, entered⟩ := stages _ _ occurrence
    simp [occurrence, Occurrence.isPlain, left, entered]
  | @score threshold previous new occurrence =>
    simp only [Bool.and_eq_true] at fired
    obtain ⟨⟨below, reached⟩, -⟩ := fired
    obtain ⟨_, _, start, -⟩ := Binary64.compareWith_iff.1 below
    obtain ⟨_, _, -, stop, -⟩ := Binary64.compareWith_iff.1 reached
    have first : previous ≠ .nan .computed := by
      rintro rfl
      cases start
    have second : new ≠ .nan .computed := by
      rintro rfl
      cases stop
    simp [occurrence, Occurrence.isPlain, Value.isPlain, first, second]

end Trigger

namespace EdgeStore

variable {s : EdgeStore} {key : EdgeKey} {state : EdgeState} {fired : Bool}

/-- A store that can hold a state holds the one that was changed last. -/
theorem get_remember_of_room (room : 0 < s.maxEntries) :
    (s.remember key state fired).store.get key = state := by
  have absent : key.identity ∉ (s.states.erase key.identity).keys := by simp [OrderedMap.keys_erase]
  have entries := OrderedMap.entries_putWrittenLast s.states key.identity key state
  have few : (s.states.putWrittenLast key.identity key state).excess s.maxEntries ≤
      (s.states.erase key.identity).entries.length := by
    have size := congrArg List.length entries
    rw [List.length_append, List.length_singleton] at size
    unfold OrderedMap.excess OrderedMap.size
    omega
  have dropped : key.identity ∉ ((s.states.erase key.identity).entries.drop
      ((s.states.putWrittenLast key.identity key state).excess s.maxEntries)).map (·.1) := by
    intro member
    obtain ⟨e, there, same⟩ := List.mem_map.1 member
    exact absent (List.mem_map.2 ⟨e, List.mem_of_mem_drop there, same⟩)
  have found : (s.remember key state fired).store.states.get? key.identity =
      some (((s.states.get? key.identity).map (·.1)).getD key, state) := by
    show Entries.get? key.identity ((s.states.putWrittenLast key.identity key state).entries.drop
      ((s.states.putWrittenLast key.identity key state).excess s.maxEntries)) = _
    rw [entries, List.drop_append_of_le_length few, Entries.get?_append, Entries.get?_eq_none dropped]
    simp [Entries.get?_cons]
  rw [get, found]
  rfl

/-- A store that can hold no state has none left once one was changed. -/
theorem get_remember_of_none (none : s.maxEntries ≤ 0) :
    (s.remember key state fired).store.get key = .fresh key.1.value key.2.value := by
  have all : (s.states.putWrittenLast key.identity key state).entries.length ≤
      (s.states.putWrittenLast key.identity key state).excess s.maxEntries := by
    unfold OrderedMap.excess OrderedMap.size
    omega
  have emptied : (s.remember key state fired).store.states.get? key.identity = Option.none := by
    show Entries.get? key.identity ((s.states.putWrittenLast key.identity key state).entries.drop
      ((s.states.putWrittenLast key.identity key state).excess s.maxEntries)) = _
    rw [List.drop_eq_nil_of_le all]
    rfl
  rw [get, emptied]
  rfl

end EdgeStore
namespace Ledger

/-- A ledger that can hold no delivery has none left after one was recorded. -/
theorem keys_record_of_negative {l : Ledger} {key : LedgerKey} (new : l.isProcessed key = false)
    (full : l.maxEntries < 0)
    (time : DateTime) : (l.record key time).keys = [] := by
  rw [keys_record new]
  refine List.drop_eq_nil_of_le ?_
  rw [List.length_append, List.length_singleton]
  omega

end Ledger

namespace Engine

variable {e : Event} {r : Rule} {g g' : Engine} {h k : Host} {result : RuleResult} {text : Text}

/-- What a failed turn leaves: its trigger fired or changed a state that could not be stored, and
nothing was recorded. -/
structure Failed (e : Event) (r : Rule) (g : Engine) (g' : Engine) : Prop where
  cause : (g.sighting r e).exhausted = true ∨ (g.sighting r e).fired = true
  edges : g'.edges = (g.sighting r e).store
  known : g'.ledger.keys ⊆ g.ledger.keys
  ledger : 0 ≤ g.ledger.maxEntries → g'.ledger = g.ledger

theorem Turn.failed (turn : Turn e r g h (.error text) g' k) : Failed e r g g' := by
  have edges := turn.edges
  generalize failure : RuleResult.error text = result at turn
  cases turn with
  | exhausted full noted => exact ⟨.inl full, edges, fun _ => id, fun _ => rfl⟩
  | unclear room fired unclear noted => exact ⟨.inr fired, edges, fun _ => id, fun _ => rfl⟩
  | broken cleared new before executed noted =>
    exact ⟨.inr cleared.fired, edges, fun _ => id, fun _ => rfl⟩
  | unrecorded cleared new before executed full noted =>
    refine ⟨.inr cleared.fired, edges, fun key member => ?_, fun room => absurd room (Int.not_le.2 full)⟩
    have member : key ∈ (g.ledger.record (deliveryKey r e) _).keys := member
    rw [Ledger.keys_record_of_negative new full] at member
    cases member
  | acted cleared new before executed room noted => split at failure <;> cases failure
  | _ => cases failure

/-- The state of a rule was changed by a failed turn, as long as its trigger keeps one. -/
theorem Failed.altered (failed : Failed e r g g') (keeps : r.trigger ≠ .taskCompleted) :
    (g.stateFor r e).isAlteredBy (r.trigger.matchEvent e (g.stateFor r e)).2 = true := by
  rcases failed.cause with full | fired
  · rw [exhausted_sighting] at full
    exact (Bool.and_eq_true_iff.1 full).1
  · rw [fired_sighting] at fired
    exact Trigger.altered_of_fired fired keeps

/-- A rule whose state an event does not change ends without a fault in its store. -/
theorem Turn.of_unaltered (turn : Turn e r g h result g' k)
    (same : (g.stateFor r e).isAlteredBy (r.trigger.matchEvent e (g.stateFor r e)).2 = false)
    (still : (r.trigger.matchEvent e (g.stateFor r e)).1 = false) : result = .notFired := by
  have room : (g.sighting r e).exhausted = false := by
    rw [sighting, EdgeStore.transition_unaltered same]
  exact (turn.notFired_iff room).2 still

/-- A rule that nothing halts carries out its action, unless that fails. -/
theorem Stage.acts (stage : Stage e r g h result g' k) (clear : g.halt r e = none)
    (sound : result.status ≠ .error) :
    result.acted = true := by
  cases stage with
  | halted halt noted => rw [clear] at halt; cases halt
  | faulty clear before executed noted => exact absurd rfl sound
  | acted clear before executed noted =>
    split at sound
    · exact absurd rfl sound
    next room =>
      rw [if_neg room]
      exact (RuleResult.ofAction_acted _).1

/-- An engine that has the state that an event left under a rule, and its bound on states. The
rule may have been given other conditions and another action since. -/
structure Stands (e : Event) (r : Rule) (g : Engine) (r' : Rule) (g' : Engine) : Prop where
  trigger : r'.trigger = r.trigger
  state : g'.stateFor r' e = g.stateFor r e
  bound : g'.edges.maxEntries = g.edges.maxEntries

/-- In a store that can hold a state the trigger of a failed turn fired. -/
theorem Failed.fired (failed : Failed e r g g') (room : 0 ≤ g.edges.maxEntries) :
    (r.trigger.matchEvent e (g.stateFor r e)).1 = true := by
  rcases failed.cause with full | fired
  · rw [exhausted_sighting] at full
    have negative := of_decide_eq_true (Bool.and_eq_true_iff.1 full).2
    omega
  · rwa [fired_sighting] at fired

/-- The state that a failed turn of such a trigger leaves, if the store has room for one. -/
theorem Failed.stored (failed : Failed e r g g') (keeps : r.trigger ≠ .taskCompleted)
    (room : 0 < g.edges.maxEntries) :
    g'.stateFor r e = (g.stateFor r e).apply (r.trigger.matchEvent e (g.stateFor r e)).2 := by
  have altered := failed.altered keeps
  rw [stateFor, failed.edges, sighting, EdgeStore.transition_altered altered]
  exact EdgeStore.get_remember_of_room room

/-- Where no state was kept the same event fires the rule again. -/
theorem Failed.fires_again {r₂ : Rule} {g₂ : Engine} (failed : Failed e r g g')
    (forgotten : r.trigger = .taskCompleted ∨ g.edges.maxEntries = 0)
    (stands : Stands e r g' r₂ g₂) :
    (g₂.sighting r₂ e).exhausted = false ∧ (g₂.sighting r₂ e).fired = true := by
  have bound : g₂.edges.maxEntries = g.edges.maxEntries := by
    rw [stands.bound, failed.edges, sighting_maxEntries]
  rw [exhausted_sighting, fired_sighting, bound, stands.trigger]
  by_cases task : r.trigger = .taskCompleted
  · rw [task, Trigger.unaltered_taskCompleted]
    refine ⟨rfl, ?_⟩
    rcases failed.cause with full | fired
    · rw [exhausted_sighting, task, Trigger.unaltered_taskCompleted] at full
      cases full
    · rw [fired_sighting, task] at fired
      rwa [Trigger.matchEvent_taskCompleted e _ (g.stateFor r e)]
  · have none := forgotten.resolve_left task
    have fresh : g'.stateFor r e = .fresh (.text e.lead.id) (.text r.id) := by
      rw [stateFor, failed.edges, sighting, EdgeStore.transition_altered (failed.altered task)]
      exact EdgeStore.get_remember_of_none (Int.le_of_eq none)
    rw [none, stands.state, fresh]
    exact ⟨by simp, Trigger.fires_fresh (failed.fired (Int.le_of_eq none.symm)) _ _⟩

/-- A rule that failed has recorded nothing, but its state is what the match made of it, so that
the same event does not fire it again as long as that state stands. Only a rule whose trigger
keeps no state, or whose store has no room for one, is tried again: nothing but its conditions and
the ledger can halt it before its action. -/
theorem errored_rule (failed : outcomeOf e r (g, h) = (.ok ⟨r.id, r.name, .error text⟩, (g', k))) :
    g'.ledger.keys ⊆ g.ledger.keys ∧ (0 ≤ g.ledger.maxEntries → g'.ledger = g.ledger) ∧
    (r.trigger ≠ .taskCompleted → 0 < g.edges.maxEntries →
      (∀ old new, e.occurrence = .stageChanged old new → old.isPlain = true ∧ new.isPlain = true) →
      g'.stateFor r e = (g.stateFor r e).apply (r.trigger.matchEvent e (g.stateFor r e)).2 ∧
      g'.stateFor r e ≠ g.stateFor r e ∧
      ∀ r₂ g₂ h₂, Stands e r g' r₂ g₂ →
        ∃ g₃ k₃, outcomeOf e r₂ (g₂, h₂) = (.ok ⟨r₂.id, r₂.name, .notFired⟩, (g₃, k₃))) ∧
    (r.trigger = .taskCompleted ∨ g.edges.maxEntries = 0 →
      (r.trigger = .taskCompleted → g'.edges = g.edges) ∧
      ∀ r₂ g₂ h₂, Stands e r g' r₂ g₂ → (deliveryKey r₂ e).identity ∉ g₂.ledger.keys →
        r₂.verdict g₂.catalog e.lead = .ok true → g₂.halt r₂ e = none ∧ ∃ result g₃ k₃,
          outcomeOf e r₂ (g₂, h₂) = (.ok ⟨r₂.id, r₂.name, result⟩, (g₃, k₃)) ∧
          (result.status ≠ .error → result.acted = true)) := by
  obtain ⟨result, _, _, run, turn⟩ := outcomeOf_turn e r g h
  cases failed.symm.trans run
  have failed := turn.failed
  refine ⟨failed.known, failed.ledger, fun keeps room stages => ?_, fun forgotten => ⟨fun task => ?_, ?_⟩⟩
  · have altered := failed.altered keeps
    have plain := Trigger.plain_of_fired (failed.fired (Int.le_of_lt room)) stages
    have stored := failed.stored keeps room
    have seen := Trigger.seen_matchEvent r.trigger plain (g.stateFor r e)
    rw [EdgeState.settle, if_pos altered, ← stored] at seen
    refine ⟨stored, fun same => ?_, fun r₂ g₂ h₂ stands => ?_⟩
    · have unaltered := seen.unaltered
      rw [same, altered] at unaltered
      cases unaltered
    · obtain ⟨result, g₃, k₃, run, turn⟩ := outcomeOf_turn e r₂ g₂ h₂
      have still : (r.trigger.matchEvent e (g'.stateFor r e)).1 = false :=
        Bool.eq_false_iff.2 fun fired => keeps (seen.stateless fired)
      rw [← stands.state, ← stands.trigger] at still
      have unaltered := seen.unaltered
      rw [← stands.state, ← stands.trigger] at unaltered
      obtain rfl := turn.of_unaltered unaltered still
      exact ⟨g₃, k₃, run⟩
  · rw [failed.edges, sighting, EdgeStore.transition_unaltered]
    rw [task]
    exact Trigger.unaltered_taskCompleted e _
  · intro r₂ g₂ h₂ stands new met
    obtain ⟨room, fired⟩ := failed.fires_again forgotten stands
    have clear := Cleared.halt_eq_none ⟨room, fired, met⟩ ((Ledger.isProcessed_false ..).2 new)
    obtain ⟨result, g₃, k₃, run, turn⟩ := outcomeOf_turn e r₂ g₂ h₂
    exact ⟨clear, result, g₃, k₃, run, turn.stage.acts clear⟩

def calling : Rule :=
  { tagging with
    id := "call", name := .text "call", trigger := .newLead, action := .createTask "Call" 1 }

def late : Host := { now := ⟨DateTime.limit - 1, Nat.sub_lt DateTime.limit_pos Nat.one_pos⟩ }

def callers : Engine := after (.add calling) blank .still

/-- A task that falls due after the end of the calendar is an error; the new lead does
not fire the rule again, although the task could now be made, and would be if the lead
had not been seen before. -/
theorem errored_rule_not_retried :
    (outcomeOf arrival calling (callers, late)).1.toOption =
      some ⟨"call", .text "call", .error (Fault.overflow .date).message⟩ ∧
    (outcomeOf arrival calling (callers, late)).2.1.stateFor calling arrival ≠
    callers.stateFor calling arrival ∧
    (outcomeOf arrival calling ((outcomeOf arrival calling (callers, late)).2.1, .still)).1.toOption =
      some ⟨"call", .text "call", .notFired⟩ ∧
    ((outcomeOf arrival calling (callers, .still)).1.toOption.any
      (·.result.status = .executed)) = true := by
  decide +kernel

theorem errored_rule_calling : ∃ g' k,
    outcomeOf arrival calling (callers, late) =
      (.ok ⟨"call", .text "call", .error (Fault.overflow .date).message⟩, (g', k)) ∧
    g'.ledger = callers.ledger ∧ g'.stateFor calling arrival ≠ callers.stateFor calling arrival ∧
    ∃ g₃ k₃, outcomeOf arrival calling (g', .still) =
      (.ok ⟨"call", .text "call", .notFired⟩, (g₃, k₃)) := by
  have failed : (outcomeOf arrival calling (callers, late)).1.toOption =
      some ⟨"call", .text "call", .error (Fault.overflow .date).message⟩ := by decide +kernel
  rcases run : outcomeOf arrival calling (callers, late) with ⟨_ | o, g', k⟩
  · rw [run] at failed
    cases failed
  rw [run] at failed
  obtain rfl := Option.some.inj failed
  obtain ⟨-, ledger, stored, -⟩ := errored_rule run
  obtain ⟨-, changed, again⟩ :=
    stored (by decide) (by decide +kernel) fun old new stage => by cases stage
  exact ⟨g', k, rfl, ledger (by decide +kernel), changed, again calling g' .still ⟨rfl, rfl, rfl⟩⟩

end Engine
end LeadRules
