import LeadRules.Engine
import LeadRules.Proofs.Operation

/-! How a rule takes its turn on an event: where it stops, and what it leaves of the engine and the
host. A turn always ends with an outcome of its rule, and a list of rules with one for each. -/
namespace LeadRules

theorem EdgeStore.observe_run (key : EdgeKey) (step : EdgeState → Bool × EdgeChange) (s : EdgeStore)
    (h : Host) :
    ∃ k, h.Relogged k ∧ observe key step (s, h) =
      (if (s.transition key step).exhausted then .error .nothingToEvict
        else .ok (s.transition key step).fired, ((s.transition key step).store, k)) := by
  simp only [observe, Op.run_bind, Op.run_store, Op.run_setStore, Op.run_onHost, Op.run_modify]
  split <;> exact ⟨_, .noteAll .., rfl⟩

/-- Whether a lead meets the conditions of a rule, or why that cannot be told. -/
def Rule.verdict (catalog : FieldCatalog) (lead : Lead) (r : Rule) : Except Fault Bool :=
  if r.strays.isEmpty then Condition.evaluate catalog lead r.conditions
  else .error (.noMember "str" (if 3 ≤ r.strays.length then "logic" else "field"))

def RuleResult.settled : Except Fault RuleResult → RuleResult
  | .ok result => result
  | .error fault => .error fault.message

namespace Engine

variable {e : Event} {r : Rule} {g : Engine} {h : Host}

/-- What an event comes to for the state that a rule keeps of its lead. -/
def sighting (g : Engine) (r : Rule) (e : Event) : EdgeStore.Transition :=
  g.edges.transition (.ofTexts e.lead.id r.id) (r.trigger.matchEvent e)

def seeing (g : Engine) (r : Rule) (e : Event) : Engine :=
  { g with edges := (g.sighting r e).store }

structure Cleared (g : Engine) (r : Rule) (e : Event) : Prop where
  room : (g.sighting r e).exhausted = false
  fired : (g.sighting r e).fired = true
  met : r.verdict g.catalog e.lead = .ok true

/-- The ways that a rule takes an event. Hosts are told up to what is noted in between. -/
inductive Turn (e : Event) (r : Rule) (g : Engine) (h : Host) : RuleResult → Engine → Host → Prop
  | exhausted {k : Host} (full : (g.sighting r e).exhausted = true) (noted : h.Relogged k) :
      Turn e r g h (.error Fault.nothingToEvict.message) (g.seeing r e) k
  | quiet {k : Host} (room : (g.sighting r e).exhausted = false)
      (still : (g.sighting r e).fired = false) (noted : h.Relogged k) :
      Turn e r g h .notFired (g.seeing r e) k
  | unclear {k : Host} {fault : Fault} (room : (g.sighting r e).exhausted = false)
      (fired : (g.sighting r e).fired = true) (unmet : r.verdict g.catalog e.lead = .error fault)
      (noted : h.Relogged k) : Turn e r g h (.error fault.message) (g.seeing r e) k
  | unmet {k : Host} (room : (g.sighting r e).exhausted = false)
      (fired : (g.sighting r e).fired = true) (unmet : r.verdict g.catalog e.lead = .ok false)
      (noted : h.Relogged k) : Turn e r g h .conditionsNotMet (g.seeing r e) k
  | repeated {k : Host} (cleared : g.Cleared r e)
      (known : g.ledger.isProcessed (deliveryKey r e) = true)
      (noted : h.Relogged k) : Turn e r g h .duplicate (g.seeing r e) k
  | broken {h₁ h₂ k : Host} {x : Executor} {fault : Fault} (cleared : g.Cleared r e)
      (new : g.ledger.isProcessed (deliveryKey r e) = false) (before : h.Relogged h₁)
      (executed : Executor.execute r.action e.lead (.text r.id) (g.executor, h₁) = (.error fault, (x, h₂)))
      (noted : h₂.Relogged k) :
      Turn e r g h (.error fault.message) { g.seeing r e with executor := x } k
  | unrecorded {h₁ h₂ k : Host} {x : Executor} {result : ActionResult} (cleared : g.Cleared r e)
      (new : g.ledger.isProcessed (deliveryKey r e) = false) (before : h.Relogged h₁)
      (executed : Executor.execute r.action e.lead (.text r.id) (g.executor, h₁) = (.ok result, (x, h₂)))
      (full : g.ledger.maxEntries < 0) (noted : h₂.Relogged k) :
      Turn e r g h (.error Fault.nothingToEvict.message)
        { g.seeing r e with executor := x, ledger := g.ledger.record (deliveryKey r e) h₂.now } k
  | acted {h₁ h₂ k : Host} {x : Executor} {result : ActionResult} (cleared : g.Cleared r e)
      (new : g.ledger.isProcessed (deliveryKey r e) = false) (before : h.Relogged h₁)
      (executed : Executor.execute r.action e.lead (.text r.id) (g.executor, h₁) = (.ok result, (x, h₂)))
      (room : 0 ≤ g.ledger.maxEntries) (noted : h₂.Relogged k) :
      Turn e r g h (if result.ok then .executed result else .actionFailed result)
        { g.seeing r e with executor := x, ledger := g.ledger.record (deliveryKey r e) h₂.now } k

theorem Turn.relogged {result : RuleResult} {g' : Engine} {k k' : Host}
    (turn : Turn e r g h result g' k)
    (later : k.Relogged k') : Turn e r g h result g' k' := by
  cases turn with
  | exhausted full noted => exact .exhausted full (noted.trans later)
  | quiet room still noted => exact .quiet room still (noted.trans later)
  | unclear room fired unmet noted => exact .unclear room fired unmet (noted.trans later)
  | unmet room fired unmet noted => exact .unmet room fired unmet (noted.trans later)
  | repeated cleared known noted => exact .repeated cleared known (noted.trans later)
  | broken cleared new before executed noted =>
    exact .broken cleared new before executed (noted.trans later)
  | unrecorded cleared new before executed full noted =>
    exact .unrecorded cleared new before executed full (noted.trans later)
  | acted cleared new before executed room noted =>
    exact .acted cleared new before executed room (noted.trans later)

theorem fires_run (r : Rule) (e : Event) (g : Engine) (h : Host) :
    ∃ k, h.Relogged k ∧ fires r e (g, h) =
      (if (g.sighting r e).exhausted then .error .nothingToEvict else .ok (g.sighting r e).fired,
        (g.seeing r e, k)) := by
  obtain ⟨k, noted, run⟩ :=
    EdgeStore.observe_run (.ofTexts e.lead.id r.id) (r.trigger.matchEvent e) g.edges h
  refine ⟨k, noted, ?_⟩
  simp only [fires, onEdges, Op.run_onPart, run]
  rfl

theorem meets_run (r : Rule) (lead : Lead) (g : Engine) (h : Host) :
    ∃ k, h.Relogged k ∧ meets r lead (g, h) = (r.verdict g.catalog lead, (g, k)) := by
  unfold meets Rule.verdict
  cases r.strays.isEmpty with
  | true =>
    refine ⟨_, .noteAll .debug (Condition.notes g.catalog lead r.conditions) h, ?_⟩
    simp [Op.run_bind, Segment.evaluate]
  | false => exact ⟨h, .refl h, rfl⟩

theorem actOnce_known (known : g.ledger.isProcessed (deliveryKey r e) = true) (h : Host) :
    actOnce r e (g, h) = (.ok none, (g, h)) := by
  simp [actOnce, Ledger.runOnce, Op.run_bind, known]

theorem actOnce_new (new : g.ledger.isProcessed (deliveryKey r e) = false) (h : Host) :
    actOnce r e (g, h) =
      match Executor.execute r.action e.lead (.text r.id) (g.executor, h) with
      | (.error fault, (x, k)) => (.error fault, ({ g with executor := x }, k))
      | (.ok result, (x, k)) =>
        (if g.ledger.maxEntries < 0 then .error .nothingToEvict else .ok (some result),
          ({ g with executor := x, ledger := g.ledger.record (deliveryKey r e) k.now }, k)) := by
  simp only [actOnce, Ledger.runOnce, onExecutor, Op.run_bind, Op.run_get, Op.run_onPart, new,
    Bool.false_eq_true, if_false]
  rcases Executor.execute r.action e.lead (.text r.id) (g.executor, h) with ⟨_ | result, x, k⟩
  · rfl
  · simp only [Op.run_modify, Op.run_bind, Op.run_ite, Op.run_throw, Op.run_pure]
    show (if g.ledger.maxEntries < 0 then _ else _) = _
    split <;> rfl

/-- A rule that gets as far as its action. -/
theorem act_turn {k : Host} (cleared : g.Cleared r e) (noted : h.Relogged k) :
    ∃ x g' k', act r e (g.seeing r e, k) = (x, (g', k')) ∧ Turn e r g h (.settled x) g' k' := by
  rw [act, Op.run_bind]
  cases known : g.ledger.isProcessed (deliveryKey r e) with
  | true =>
    rw [actOnce_known (g := g.seeing r e) known]
    exact ⟨_, _, _, rfl, .repeated cleared known (noted.trans (.note ..))⟩
  | false =>
    rw [actOnce_new (g := g.seeing r e) known]
    rcases executed : Executor.execute r.action e.lead (.text r.id)
      (g.executor, k) with ⟨fault | result, x, h₂⟩
    · simp only [seeing, executed]
      exact ⟨_, _, _, rfl, .broken cleared known noted executed (.refl _)⟩
    · simp only [seeing, executed]
      by_cases full : g.ledger.maxEntries < 0
      · simp only [full, if_true]
        exact ⟨_, _, _, rfl, .unrecorded cleared known noted executed full (.refl _)⟩
      · simp only [full, if_false]
        have acted (k' : Host) (later : h₂.Relogged k') :=
          Turn.acted cleared known noted executed (Int.not_lt.1 full) later
        cases ok : result.ok with
        | true =>
          simp only [ok, if_true] at acted ⊢
          exact ⟨_, _, _, rfl, acted _ (.refl _)⟩
        | false =>
          simp only [ok, Bool.false_eq_true, if_false] at acted ⊢
          exact ⟨_, _, _, rfl, acted _ (.note ..)⟩

theorem process_turn (r : Rule) (e : Event) (g : Engine) (h : Host) :
    ∃ x g' k, process r e (g, h) = (x, (g', k)) ∧ Turn e r g h (.settled x) g' k := by
  obtain ⟨h₁, noted, firing⟩ := fires_run r e g h
  obtain ⟨h₂, noted', meeting⟩ := meets_run r e.lead (g.seeing r e) h₁
  have noted' := noted.trans noted'
  rw [process, Op.run_bind, firing]
  cases room : (g.sighting r e).exhausted with
  | true => exact ⟨_, _, _, rfl, .exhausted room noted⟩
  | false =>
    cases fired : (g.sighting r e).fired with
    | false => exact ⟨_, _, _, rfl, .quiet room fired noted⟩
    | true =>
      simp only [Bool.false_eq_true, if_false, Bool.not_true, Op.run_bind, meeting]
      rcases met : r.verdict g.catalog e.lead with fault | _ | _
      · simp only [seeing, met]
        exact ⟨_, _, _, rfl, .unclear room fired met noted'⟩
      · simp only [seeing, met]
        exact ⟨_, _, _, rfl, .unmet room fired met noted'⟩
      · obtain ⟨x, g', k', acting, turn⟩ := act_turn ⟨room, fired, met⟩ noted'
        simp only [seeing, met]
        exact ⟨x, g', k', acting, turn⟩

/-- The outcome of a rule names the rule and tells how its turn ended, whatever happened in it. -/
theorem outcomeOf_turn (e : Event) (r : Rule) (g : Engine) (h : Host) :
    ∃ result g' k, outcomeOf e r (g, h) = (.ok ⟨r.id, r.name, result⟩, (g', k)) ∧
      Turn e r g h result g' k := by
  obtain ⟨x, g', k, run, turn⟩ := process_turn r e g h
  simp only [outcomeOf, Op.run_bind, Op.run_attempt, run]
  cases x with
  | ok result => exact ⟨result, g', k, rfl, turn⟩
  | error fault => exact ⟨_, g', _, rfl, turn.relogged (.note ..)⟩

/-- A turn leaves the rules and the fields alone. -/
theorem Turn.frame {result : RuleResult} {g' : Engine} {k : Host}
    (turn : Turn e r g h result g' k) :
    g'.rules = g.rules ∧ g'.catalog = g.catalog := by
  cases turn <;> exact ⟨rfl, rfl⟩

inductive Turns (e : Event) : List Rule → Engine → Host → List RuleOutcome → Engine → Host → Prop
  | nil {g : Engine} {h : Host} : Turns e [] g h [] g h
  | cons {r : Rule} {rest : List Rule} {g g₁ g₂ : Engine} {h h₁ h₂ : Host} {result : RuleResult}
      {outcomes : List RuleOutcome}
        (run : outcomeOf e r (g, h) = (.ok ⟨r.id, r.name, result⟩, (g₁, h₁)))
      (first : Turn e r g h result g₁ h₁) (later : Turns e rest g₁ h₁ outcomes g₂ h₂) :
      Turns e (r :: rest) g h (⟨r.id, r.name, result⟩ :: outcomes) g₂ h₂

theorem outcomesOf_turns (e : Event) (rules : List Rule) (g : Engine) (h : Host) :
    ∃ outcomes g' k, outcomesOf e rules (g, h) = (.ok outcomes, (g', k)) ∧
      Turns e rules g h outcomes g' k := by
  induction rules generalizing g h with
  | nil => exact ⟨[], g, h, rfl, .nil⟩
  | cons r rest ih =>
    obtain ⟨result, g₁, h₁, run, first⟩ := outcomeOf_turn e r g h
    obtain ⟨outcomes, g₂, h₂, runs, later⟩ := ih g₁ h₁
    refine ⟨_, g₂, h₂, ?_, .cons run first later⟩
    simp only [outcomesOf, Op.run_bind, run, runs, Op.run_pure]

theorem Turns.run {rules : List Rule} {outcomes : List RuleOutcome} {g' : Engine} {k : Host}
    (turns : Turns e rules g h outcomes g' k) :
    outcomesOf e rules (g, h) = (.ok outcomes, (g', k)) := by
  induction turns with
  | nil => rfl
  | cons run first later ih => simp only [outcomesOf, Op.run_bind, run, ih, Op.run_pure]

/-- Every rule has its outcome, in the order of the rules. -/
theorem Turns.named {rules : List Rule} {outcomes : List RuleOutcome} {g' : Engine} {k : Host}
    (turns : Turns e rules g h outcomes g' k) :
    outcomes.map (fun o => (o.rule, o.name)) = rules.map fun r => (r.id, r.name) := by
  induction turns with
  | nil => rfl
  | cons run first later ih => simp [ih]

theorem Turns.frame {rules : List Rule} {outcomes : List RuleOutcome} {g' : Engine} {k : Host}
    (turns : Turns e rules g h outcomes g' k) : g'.rules = g.rules ∧ g'.catalog = g.catalog := by
  induction turns with
  | nil => exact ⟨rfl, rfl⟩
  | cons run first later ih => exact ⟨ih.1.trans first.frame.1, ih.2.trans first.frame.2⟩

theorem sighting_path (g : Engine) (r : Rule) (e : Event) :
    (g.sighting r e).store.path = g.edges.path := by
  simp only [sighting, EdgeStore.transition]
  split <;> rfl

/-- The stores stay where they are. -/
theorem Turn.places {result : RuleResult} {g' : Engine} {k : Host}
    (turn : Turn e r g h result g' k) :
    g'.edges.path = g.edges.path ∧ g'.ledger.path = g.ledger.path := by
  cases turn <;> exact ⟨sighting_path g r e, rfl⟩

theorem Turns.places {rules : List Rule} {outcomes : List RuleOutcome} {g' : Engine} {k : Host}
    (turns : Turns e rules g h outcomes g' k) :
    g'.edges.path = g.edges.path ∧ g'.ledger.path = g.ledger.path := by
  induction turns with
  | nil => exact ⟨rfl, rfl⟩
  | cons run first later ih => exact ⟨ih.1.trans first.places.1, ih.2.trans first.places.2⟩

end Engine
end LeadRules
