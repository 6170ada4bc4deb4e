import LeadRules.Proofs.EdgeStates
import LeadRules.Proofs.Records
import LeadRules.Proofs.Selection

/-! Events that come again. Once a rule has taken an event without an error and nothing was
evicted, the rule is settled: the same event neither moves the state it keeps of the lead
nor reaches its action. -/
namespace LeadRules.Engine

variable {e : Event} {r : Rule} {g g' : Engine} {h k : Host} {result : RuleResult}

/-- Whether a store drops an entry while a rule takes its turn: a state of some lead, or a record
of the ledger, which grows by one when an action has run. -/
def evicts (e : Event) (r : Rule) (g : Engine) (h : Host) : Bool :=
  let (x, g', _) := outcomeOf e r (g, h)
  let recorded := x.toOption.any (·.result.actionResult?.isSome)
  !(g.sighting r e).dropped.isEmpty || g'.ledger.keys.length < g.ledger.keys.length + recorded.toNat

def evictsAny (e : Event) : List Rule → Engine → Host → Bool
  | [], _, _ => false
  | r :: rest, g, h =>
    let (_, g', k) := outcomeOf e r (g, h)
    evicts e r g h || evictsAny e rest g' k

def evictsOn (e : Event) (g : Engine) (h : Host) : Bool :=
  (g.rules.rulesFor e.kind.trigger).toOption.any fun rules => evictsAny e rules g h

def stateFor (g : Engine) (r : Rule) (e : Event) : EdgeState :=
  g.edges.get (.ofTexts e.lead.id r.id)

theorem fired_sighting (g : Engine) (r : Rule) (e : Event) :
    (g.sighting r e).fired = (r.trigger.matchEvent e (g.stateFor r e)).1 :=
      EdgeStore.fired_transition

theorem exhausted_sighting (g : Engine) (r : Rule) (e : Event) : (g.sighting r e).exhausted =
    ((g.stateFor r e).isAlteredBy (r.trigger.matchEvent e (g.stateFor r e)).2 &&
      decide (g.edges.maxEntries < 0)) :=
  EdgeStore.exhausted_transition

/-- A rule that could store what it saw did not fire just when its trigger did not. -/
theorem Turn.notFired_iff (turn : Turn e r g h result g' k)
    (room : (g.sighting r e).exhausted = false) :
    result = .notFired ↔ (r.trigger.matchEvent e (g.stateFor r e)).1 = false := by
  rw [← fired_sighting]
  cases turn with
  | exhausted full noted => rw [room] at full; cases full
  | quiet room still noted => exact iff_of_true rfl still
  | unclear room fired unclear noted => rw [fired]; simp
  | unmet room fired unmet noted => rw [fired]; simp
  | repeated cleared known noted => rw [cleared.fired]; simp
  | broken cleared new before executed noted => rw [cleared.fired]; simp
  | unrecorded cleared new before executed full noted => rw [cleared.fired]; simp
  | acted cleared new before executed room noted =>
    rename_i result
    rw [cleared.fired]
    cases result.ok <;> simp

structure Keeps (r : Rule) (e : Event) (g : Engine) (result : RuleResult) (g' : Engine) : Prop where
  dropped : (g.sighting r e).dropped = []
  known : g.ledger.keys ⊆ g'.ledger.keys
  recorded : result.actionResult?.isSome → (deliveryKey r e).identity ∈ g'.ledger.keys

theorem Turn.edges (turn : Turn e r g h result g' k) : g'.edges = (g.sighting r e).store := by
  cases turn <;> rfl

theorem Turn.keeps (turn : Turn e r g h result g' k) (sound : result.status ≠ .error)
    (dropped : (g.sighting r e).dropped = [])
    (grown : g.ledger.keys.length + result.actionResult?.isSome.toNat ≤ g'.ledger.keys.length) :
    Keeps r e g result g' := by
  cases turn with
  | acted cleared new before executed room noted =>
    rename_i h₁ h₂ x result
    have recorded :
      (if result.ok then RuleResult.executed result else .actionFailed result).actionResult? =
        some result := by cases result.ok <;> rfl
    rw [recorded] at grown
    have keys := Ledger.keys_record_of_longer new grown
    exact ⟨dropped, fun key member => by rw [keys]; exact List.mem_append_left _ member,
      fun _ => by rw [keys]; exact List.mem_append_right _ (List.mem_singleton_self _)⟩
  | quiet => exact ⟨dropped, fun _ member => member, fun acted => by cases acted⟩
  | unmet => exact ⟨dropped, fun _ member => member, fun acted => by cases acted⟩
  | repeated => exact ⟨dropped, fun _ member => member, fun acted => by cases acted⟩
  | _ => exact absurd rfl sound

/-- A rule after which the search for evictions goes on has evicted nothing. -/
theorem Turn.keeps_of_run {rest : List Rule} (turn : Turn e r g h result g' k)
    (run : outcomeOf e r (g, h) = (.ok ⟨r.id, r.name, result⟩, (g', k)))
    (sound : result.status ≠ .error)
    (kept : evictsAny e (r :: rest) g h = false) :
    Keeps r e g result g' ∧ evictsAny e rest g' k = false := by
  simp only [evictsAny, evicts, run, Bool.or_eq_false_iff, decide_eq_false_iff_not, Nat.not_lt,
    Bool.not_eq_false', List.isEmpty_iff] at kept
  exact ⟨turn.keeps sound kept.1.1 kept.1.2, kept.2⟩

theorem stateFor_self (turn : Turn e r g h result g' k) (dropped : (g.sighting r e).dropped = []) :
    g'.stateFor r e = (g.stateFor r e).settle (r.trigger.matchEvent e (g.stateFor r e)).2 := by
  rw [stateFor, turn.edges]
  exact EdgeStore.get_transition_self dropped

theorem stateFor_other {other : Rule} (turn : Turn e r g h result g' k) (apart : other.id ≠ r.id)
    (dropped : (g.sighting r e).dropped = []) : g'.stateFor other e = g.stateFor other e := by
  rw [stateFor, turn.edges]
  refine EdgeStore.get_transition_other ?_ dropped
  simpa [EdgeKey.ofTexts, EdgeKey.identity, WrittenKey.ofText] using apart

/-- A rule that has nothing more to do about an event. -/
structure Settled (r : Rule) (e : Event) (g : Engine) : Prop where
  unaltered : (g.stateFor r e).isAlteredBy (r.trigger.matchEvent e (g.stateFor r e)).2 = false
  done : (r.trigger.matchEvent e (g.stateFor r e)).1 = true →
    r.verdict g.catalog e.lead = .ok false ∨
      r.verdict g.catalog e.lead = .ok true ∧ (deliveryKey r e).identity ∈ g.ledger.keys

theorem Turn.settles (turn : Turn e r g h result g' k) (plain : e.occurrence.isPlain = true)
    (sound : result.status ≠ .error) (keeps : Keeps r e g result g') : Settled r e g' := by
  have seen := Trigger.seen_matchEvent r.trigger plain (g.stateFor r e)
  rw [← stateFor_self turn keeps.dropped] at seen
  refine ⟨seen.unaltered, fun again => ?_⟩
  have stateless := seen.stateless again
  have fired : (g.sighting r e).fired = true := by
    rw [fired_sighting]
    rw [stateless] at again ⊢
    rwa [Trigger.matchEvent_taskCompleted e _ (g'.stateFor r e)]
  rw [turn.frame.2]
  cases turn with
  | quiet room still noted => rw [still] at fired; cases fired
  | unmet room fired unmet noted => exact .inl unmet
  | repeated cleared known noted => exact .inr ⟨cleared.met, (Ledger.isProcessed_iff ..).1 known⟩
  | acted cleared new before executed room noted =>
    rename_i result
    exact .inr ⟨cleared.met, keeps.recorded (by cases result.ok <;> rfl)⟩
  | _ => exact absurd rfl sound

/-- The turn of one rule unsettles no other. -/
theorem Settled.other {other : Rule} (settled : Settled other e g) (turn : Turn e r g h result g' k)
    (apart : other.id ≠ r.id) (keeps : Keeps r e g result g') : Settled other e g' := by
  have same := stateFor_other turn apart keeps.dropped
  refine ⟨same ▸ settled.unaltered, fun again => ?_⟩
  rw [turn.frame.2]
  exact (settled.done (same ▸ again)).imp id fun met => ⟨met.1, keeps.known met.2⟩

def Idle (result : RuleResult) : Prop :=
  result = .notFired ∨ result = .conditionsNotMet ∨ result = .duplicate

/-- A settled rule leaves everything as it is. -/
theorem Settled.again (settled : Settled r e g) (turn : Turn e r g h result g' k) :
    Idle result ∧ g' = g := by
  have transition := EdgeStore.transition_unaltered settled.unaltered
  have room : (g.sighting r e).exhausted = false := by rw [sighting, transition]
  have seeing : g.seeing r e = g := by rw [seeing, sighting, transition]
  have done := settled.done
  rw [← fired_sighting] at done
  have known (cleared : g.Cleared r e) : g.ledger.isProcessed (deliveryKey r e) = true := by
    rcases done cleared.fired with unmet | ⟨_, known⟩
    · rw [cleared.met] at unmet
      cases unmet
    · exact (Ledger.isProcessed_iff ..).2 known
  cases turn with
  | exhausted full noted => rw [room] at full; cases full
  | quiet room still noted => exact ⟨.inl rfl, seeing⟩
  | unclear room fired unclear noted =>
    rcases done fired with clear | ⟨clear, _⟩ <;> rw [unclear] at clear <;> cases clear
  | unmet room fired unmet noted => exact ⟨.inr (.inl rfl), seeing⟩
  | repeated cleared _ noted => exact ⟨.inr (.inr rfl), seeing⟩
  | broken cleared new => rw [known cleared] at new; cases new
  | unrecorded cleared new => rw [known cleared] at new; cases new
  | acted cleared new => rw [known cleared] at new; cases new

variable {rules : List Rule} {outcomes : List RuleOutcome}

/-- Rules that take their turns unsettle no rule apart from them. -/
theorem Settled.others {other : Rule} (settled : Settled other e g)
    (turns : Turns e rules g h outcomes g' k) (apart : other.id ∉ rules.map (·.id))
    (sound : ∀ o ∈ outcomes, o.result.status ≠ .error) (kept : evictsAny e rules g h = false) :
    Settled other e g' := by
  induction turns with
  | nil => exact settled
  | cons run first later ih =>
    obtain ⟨here, beyond⟩ := not_or.1 (mt List.mem_cons.2 apart)
    obtain ⟨keeps, kept⟩ := first.keeps_of_run run (sound _ List.mem_cons_self) kept
    exact ih (settled.other first here keeps) beyond
      (fun o member => sound o (List.mem_cons_of_mem _ member)) kept

/-- After an event has been taken well, all its rules are settled. -/
theorem Turns.settle (turns : Turns e rules g h outcomes g' k) (plain : e.occurrence.isPlain = true)
    (distinct : (rules.map (·.id)).Nodup) (sound : ∀ o ∈ outcomes, o.result.status ≠ .error)
    (kept : evictsAny e rules g h = false) : ∀ r ∈ rules, Settled r e g' := by
  induction turns with
  | nil => exact fun r member => absurd member List.not_mem_nil
  | @cons r rest g g₁ g₂ h h₁ h₂ result outcomes run first later ih =>
    obtain ⟨apart, distinct⟩ := List.nodup_cons.1 distinct
    obtain ⟨keeps, kept'⟩ := first.keeps_of_run run (sound _ List.mem_cons_self) kept
    have sound' : ∀ o ∈ outcomes, o.result.status ≠ .error :=
      fun o member => sound o (List.mem_cons_of_mem _ member)
    intro other member
    rcases List.mem_cons.1 member with rfl | member
    · exact (first.settles plain (sound _ List.mem_cons_self) keeps).others later apart sound' kept'
    · exact ih distinct sound' kept' other member

/-- Settled rules take their turns for nothing. -/
theorem Turns.idle (turns : Turns e rules g h outcomes g' k)
    (settled : ∀ r ∈ rules, Settled r e g) :
    (∀ o ∈ outcomes, Idle o.result) ∧ g' = g := by
  induction turns with
  | nil => exact ⟨fun o member => absurd member List.not_mem_nil, rfl⟩
  | cons run first later ih =>
    obtain ⟨idle, rfl⟩ := (settled _ List.mem_cons_self).again first
    obtain ⟨others, same⟩ := ih fun r member => settled r (List.mem_cons_of_mem _ member)
    exact ⟨List.forall_mem_cons.2 ⟨idle, others⟩, same⟩

theorem Settled.flushed (settled : Settled r e g) (flushed : Flushed g g') : Settled r e g' := by
  have same : g'.stateFor r e = g.stateFor r e := by
    rw [stateFor, stateFor, EdgeStore.get, EdgeStore.get, flushed.states]
  have keys : g'.ledger.keys = g.ledger.keys := congrArg OrderedMap.keys flushed.processed
  refine ⟨same ▸ settled.unaltered, fun again => ?_⟩
  rw [flushed.catalog, keys]
  exact settled.done (same ▸ again)

/-- The rules that a well taken event concerned are settled when it has been answered. -/
theorem Delivery.settle {o : EventOutcome} (delivery : Delivery e g h (.ok o) g' k)
    (keyed : g.rules.Keyed) (plain : e.occurrence.isPlain = true) (sound : o.withStatus .error = [])
    (kept : evictsOn e g h = false) :
    ∃ rules, g'.rules.rulesFor e.kind.trigger = .ok rules ∧ ∀ r ∈ rules, Settled r e g' := by
  rw [delivery.frame.1]
  cases delivery with
  | idle chosen noted => exact ⟨[], chosen, fun r member => absurd member List.not_mem_nil⟩
  | @taken rules outcomes _ _ _ _ _ chosen some turns flushed noted =>
    refine ⟨rules, chosen, fun r member => ?_⟩
    have sound : ∀ o ∈ outcomes, o.result.status ≠ .error := by
      simpa [EventOutcome.withStatus, List.filter_eq_nil_iff] using sound
    have kept : evictsAny e rules g h = false := by
      simpa [evictsOn, chosen, Except.toOption] using kept
    have settled := turns.settle plain (keyed.nodup_rulesFor chosen) sound kept r member
    exact settled.flushed (flushed_of_flush flushed)

/-- An event taken once without an error and without eviction comes to nothing when it comes
again: no rule gets to its action, and executor, edge states and ledger stay as they are. -/
theorem onEvent_redelivered (reached : Reached g) (plain : e.occurrence.isPlain = true)
    {o : EventOutcome} {g₁ : Engine} (first : onEvent e (g, h) = (.ok o, (g₁, k)))
    (sound : o.withStatus .error = []) (kept : evictsOn e g h = false) (h' : Host) :
    ∃ x g₂ k', onEvent e (g₁, h') = (x, (g₂, k')) ∧
      (∀ o', x = .ok o' → ∀ y ∈ o'.rules, Idle y.result) ∧ (g₁.Savable → ∃ o', x = .ok o') ∧
      g₂.executor = g₁.executor ∧ g₂.rules = g₁.rules ∧
      g₂.edges.states = g₁.edges.states ∧ g₂.ledger.processed = g₁.ledger.processed := by
  obtain ⟨_, _, _, run, delivery⟩ := onEvent_delivery e g h
  rw [first] at run
  cases run
  obtain ⟨rules, chosen, settled⟩ := delivery.settle reached.keyed plain sound kept
  obtain ⟨x, g₂, k', run, again⟩ := onEvent_delivery e g₁ h'
  refine ⟨x, g₂, k', run, ?_⟩
  cases again with
  | unordered refused => rw [chosen] at refused; cases refused
  | idle chosen' noted =>
    refine ⟨?_, fun _ => ⟨_, rfl⟩, rfl, rfl, rfl, rfl⟩
    rintro o' ⟨⟩ y member
    exact absurd member List.not_mem_nil
  | unsaved chosen' some turns flushed =>
    cases Except.ok.inj (chosen.symm.trans chosen')
    obtain ⟨idle, rfl⟩ := turns.idle settled
    have written := flushed_of_flush flushed
    refine ⟨fun o' answer => (by cases answer), fun savable => ?_, written.executor, written.rules,
      written.states, written.processed⟩
    obtain ⟨_, _, returned⟩ := flush_returns savable _
    rw [returned] at flushed
    cases flushed
  | taken chosen' some turns flushed noted =>
    cases Except.ok.inj (chosen.symm.trans chosen')
    obtain ⟨idle, rfl⟩ := turns.idle settled
    have written := flushed_of_flush flushed
    refine ⟨?_, fun _ => ⟨_, rfl⟩, written.executor, written.rules, written.states, written.processed⟩
    rintro o' ⟨⟩
    exact idle

theorem onEvent_redelivered_tagging :
    ∃ g₁ k o, onEvent completion (after (.add tagging) blank .still, .still) = (.ok o, (g₁, k)) ∧
      (o.withStatus .executed).length = 1 ∧
      ∃ x g₂ k', onEvent completion (g₁, k) = (x, (g₂, k')) ∧
        (∀ o', x = .ok o' → ∀ y ∈ o'.rules, Idle y.result) ∧ g₂.executor = g₁.executor := by
  have reached : Reached (after (.add tagging) blank .still) := .after (.opened [] rfl) _ _
  have well :
    ((onEvent completion (after (.add tagging) blank .still, .still)).1.toOption.any fun o =>
      o.withStatus .error = [] && (o.withStatus .executed).length = 1) = true := by decide +kernel
  rcases first : onEvent completion (after (.add tagging) blank .still, .still) with ⟨_ | o, g₁, k⟩
  · simp [first, Except.toOption] at well
  · simp only [first, Except.toOption, Option.any_some, Bool.and_eq_true, decide_eq_true_eq] at well
    obtain ⟨x, g₂, k', again, idle, -, executor, -⟩ :=
      onEvent_redelivered reached rfl first well.1 (by decide +kernel) k
    exact ⟨g₁, k, o, rfl, well.2, x, g₂, k', again, idle, executor⟩

end LeadRules.Engine
