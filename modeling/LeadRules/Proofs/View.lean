import LeadRules.Proofs.Likeness
import LeadRules.Proofs.Redelivery
import LeadRules.Proofs.Rotation

/-! What an engine shows of some leads under some rules: their edge states and deliveries, and
what all rules read. A turn of another lead or rule shows nothing, and a turn of one of them ends
alike wherever the view is the same. -/
namespace LeadRules

/-- Which leads are looked at under which rules, by their keys. -/
abbrev Scope := Key → Key → Bool

/-- Lists that are the same but for what is passed over in either of them. -/
inductive Aligned {α : Type} (looked : α → Bool) : List α → List α → Prop
  | nil : Aligned looked [] []
  | left {a : α} {as bs : List α} (passed : looked a = false) (rest : Aligned looked as bs) :
      Aligned looked (a :: as) bs
  | right {b : α} {as bs : List α} (passed : looked b = false) (rest : Aligned looked as bs) :
      Aligned looked as (b :: bs)
  | both {a : α} {as bs : List α} (kept : looked a = true) (rest : Aligned looked as bs) :
      Aligned looked (a :: as) (a :: bs)

theorem Aligned.of_filter {α : Type} {looked : α → Bool} {as bs : List α}
    (same : as.filter looked = bs.filter looked) : Aligned looked as bs := by
  induction as generalizing bs with
  | nil =>
    induction bs with
    | nil => exact .nil
    | cons b bs ih =>
      cases passed : looked b with
      | true => simp [passed] at same
      | false =>
        rw [List.filter_cons_of_neg (by simp [passed])] at same
        exact .right passed (ih same)
  | cons a as ih =>
    cases kept : looked a with
    | false =>
      rw [List.filter_cons_of_neg (by simp [kept])] at same
      exact .left kept (ih same)
    | true =>
      rw [List.filter_cons_of_pos kept] at same
      induction bs with
      | nil => cases same
      | cons b bs ih' =>
        cases passed : looked b with
        | false =>
          rw [List.filter_cons_of_neg (by simp [passed])] at same
          exact .right passed (ih' same)
        | true =>
          rw [List.filter_cons_of_pos passed] at same
          obtain ⟨rfl, tails⟩ := List.cons.inj same
          exact .both kept (ih tails)

namespace EdgeStore

variable {s t : EdgeStore} {key : EdgeKey} {step : EdgeState → Bool × EdgeChange} {v : Scope}

def within (v : Scope) (s : EdgeStore) : OrderedMap (Key × Key) (EdgeKey × EdgeState) :=
  s.states.filter fun id _ => v id.1 id.2

theorem get?_within {id : Key × Key} (seen : v id.1 id.2 = true) (s : EdgeStore) :
    (s.within v).get? id = s.states.get? id :=
  OrderedMap.get?_filter (fun id : Key × Key => v id.1 id.2) seen s.states

theorem get_eq_of_within (key : EdgeKey) (seen : v key.identity.1 key.identity.2 = true)
    (same : t.within v = s.within v) : t.get key = s.get key := by
  rw [get, get, ← get?_within seen t, ← get?_within seen s, same]

theorem within_transition_unseen (unseen : v key.identity.1 key.identity.2 = false)
    (kept : (s.transition key step).dropped = []) :
    (s.transition key step).store.within v = s.within v := by
  cases differs : (s.get key).isAlteredBy (step (s.get key)).2 with
  | true =>
    rw [transition_altered differs] at kept ⊢
    rw [within, states_remember kept]
    exact OrderedMap.filter_putWrittenLast_dropped (fun id : Key × Key => v id.1 id.2) unseen _ _ _
  | false => rw [transition_unaltered differs]

theorem within_transition_seen (seen : v key.identity.1 key.identity.2 = true)
    (same : t.within v = s.within v)
    (kept : (s.transition key step).dropped = []) (kept' : (t.transition key step).dropped = []) :
    (t.transition key step).store.within v = (s.transition key step).store.within v := by
  have current := get_eq_of_within key seen same
  cases differs : (s.get key).isAlteredBy (step (s.get key)).2 with
  | true =>
    have differs' : (t.get key).isAlteredBy (step (t.get key)).2 = true := by rw [current, differs]
    rw [transition_altered differs] at kept ⊢
    rw [transition_altered differs'] at kept' ⊢
    rw [within, within, states_remember kept, states_remember kept', current]
    have stored (m : OrderedMap (Key × Key) (EdgeKey × EdgeState)) :=
      OrderedMap.filter_putWrittenLast_kept (fun id : Key × Key => v id.1 id.2) seen m
    rw [stored, stored]
    exact congrArg
      (fun m : OrderedMap (Key × Key) (EdgeKey × EdgeState) => m.putWrittenLast key.identity key _)
      same
  | false =>
    have differs' : (t.get key).isAlteredBy (step (t.get key)).2 = false := by rw [current, differs]
    rw [transition_unaltered differs, transition_unaltered differs']
    exact same

end EdgeStore

namespace Ledger

def within (v : Scope) (l : Ledger) : List (Key × Key × Key) :=
  l.keys.filter fun id => v id.1 id.2.1

theorem mem_within {v : Scope} {id : Key × Key × Key} (seen : v id.1 id.2.1 = true) (l : Ledger) :
    id ∈ l.within v ↔ id ∈ l.keys := by
  simp [within, seen]

theorem isProcessed_eq_of_within {v : Scope} {l m : Ledger} {key : LedgerKey}
    (seen : v key.identity.1 key.identity.2.1 = true) (same : m.within v = l.within v) :
    m.isProcessed key = l.isProcessed key := by
  rw [Bool.eq_iff_iff, isProcessed_iff, isProcessed_iff, ← mem_within seen m, ← mem_within seen l, same]

end Ledger

namespace Engine

open Executor (Answers)

variable {e : Event} {r : Rule} {rules rules' : List Rule} {outcomes outcomes' : List RuleOutcome}
  {g g' g₁ g₁' : Engine} {h h' k k' : Host} {result result' : RuleResult} {v : Scope}
    {common own : Option Answer}

structure View where
  catalog : FieldCatalog
  directory : Directory
  edgesMax : Int
  ledgerMax : Int
  now : DateTime
  states : OrderedMap (Key × Key) (EdgeKey × EdgeState)
  deliveries : List (Key × Key × Key)

def view (v : Scope) (g : Engine) (h : Host) : View where
  catalog := g.catalog
  directory := g.executor.directory
  edgesMax := g.edges.maxEntries
  ledgerMax := g.ledger.maxEntries
  now := h.now
  states := g.edges.within v
  deliveries := g.ledger.within v

/-- A frame shows the same as long as the stores do. -/
theorem Frame.shows (frame : Frame g h g' k) (states : g'.edges.within v = g.edges.within v)
    (deliveries : g'.ledger.within v = g.ledger.within v) : view v g' k = view v g h := by
  simp only [view, frame.catalog, frame.directory, frame.edgesMax, frame.ledgerMax, frame.host.now, states,
    deliveries]

/-- Two frames show the same if they did before and their stores do. -/
theorem Frame.shows_alike (frame : Frame g h g₁ k) (frame' : Frame g' h' g₁' k')
    (same : view v g' h' = view v g h)
    (states : g₁'.edges.within v = g₁.edges.within v)
    (deliveries : g₁'.ledger.within v = g₁.ledger.within v) :
    view v g₁' k' = view v g₁ k := by
  simp only [view, View.mk.injEq] at same ⊢
  obtain ⟨catalog, directory, edgesMax, ledgerMax, now, -, -⟩ := same
  refine ⟨?_, ?_, ?_, ?_, ?_, states, deliveries⟩
  · rw [frame'.catalog, frame.catalog, catalog]
  · rw [frame'.directory, frame.directory, directory]
  · rw [frame'.edgesMax, frame.edgesMax, edgesMax]
  · rw [frame'.ledgerMax, frame.ledgerMax, ledgerMax]
  · rw [frame'.host.now, frame.host.now, now]

/-- An engine whose saves succeed and whose handlers answer by kind and lead. -/
structure Ready (common own : Option Answer) (g : Engine) (h : Host) : Prop where
  takes : h.Takes g.places
  answers : g.executor.Answers common own

/-- A turn in which no store dropped an entry. -/
structure Spared (e : Event) (r : Rule) (g : Engine) (h : Host) (result : RuleResult)
    (g' : Engine) (k : Host) :
    Prop where
  turn : Turn e r g h result g' k
  dropped : (g.sighting r e).dropped = []
  keys : g'.ledger.keys = g.ledger.keys ++ if result.actionResult?.isSome then
    [(deliveryKey r e).identity] else []

/-- A rule after which the search for evictions goes on was spared. -/
theorem Turn.spared {rest : List Rule} (turn : Turn e r g h result g' k)
    (run : outcomeOf e r (g, h) = (.ok ⟨r.id, r.name, result⟩, (g', k)))
    (kept : evictsAny e (r :: rest) g h = false) :
    Spared e r g h result g' k ∧ evictsAny e rest g' k = false := by
  simp only [evictsAny, evicts, run, Bool.or_eq_false_iff, Bool.not_eq_false', List.isEmpty_iff,
    Except.toOption, Option.any_some] at kept
  obtain ⟨⟨dropped, grown⟩, later⟩ := kept
  have grown := Nat.not_lt.1 (of_decide_eq_false grown)
  refine ⟨⟨turn, dropped, ?_⟩, later⟩
  cases turn.stage with
  | halted halt noted =>
    rw [halt_actionResult? halt]
    exact (List.append_nil _).symm
  | faulty clear before executed noted => exact (List.append_nil _).symm
  | acted clear before executed noted =>
    rename_i result x h₁ h₂ _
    have new := (Ledger.isProcessed_false ..).2 (cleared_of_halt clear).2
    by_cases full : g.ledger.maxEntries < 0
    · rw [if_pos full] at grown ⊢
      exact (Ledger.keys_record_of_full new full grown).trans (List.append_nil _).symm
    · rw [if_neg full, RuleResult.actionResult?_ofAction] at grown ⊢
      exact Ledger.keys_record_of_longer new grown

/-- A turn of a rule that does not halt is that of its action. -/
theorem Stage.reached (stage : Stage e r g h result g' k) (clear : g.halt r e = none) :
    ∃ answer h₁ h₂,
    h.Relogged h₁ ∧
    Executor.execute r.action e.lead (.text r.id) (g.executor, h₁) = (answer, (g'.executor, h₂)) ∧
    result = .ofAnswer g.ledger.maxEntries answer := by
  cases stage with
  | halted halt noted =>
    rw [clear] at halt
    cases halt
  | faulty clear before executed noted => exact ⟨_, _, _, before, executed, rfl⟩
  | acted clear before executed noted => exact ⟨_, _, _, before, executed, rfl⟩

/-- A turn of a rule that halts leaves what it has seen. -/
theorem Stage.stopped {found : RuleResult} (stage : Stage e r g h result g' k)
    (halt : g.halt r e = some found) :
    result = found ∧ g' = g.seeing r e := by
  cases stage with
  | halted halt' noted => exact ⟨Option.some.inj (halt'.symm.trans halt), rfl⟩
  | faulty clear before executed noted =>
    rw [clear] at halt
    cases halt
  | acted clear before executed noted =>
    rw [clear] at halt
    cases halt

theorem Stage.answers (stage : Stage e r g h result g' k) (ready : Ready common own g h) :
    g'.executor.Answers common own := by
  cases halt : g.halt r e with
  | some found =>
    rw [(stage.stopped halt).2]
    exact ready.answers
  | none =>
    obtain ⟨answer, h₁, h₂, before, executed, -⟩ := stage.reached halt
    have takes := takes_cursors ready.takes before
    exact (Executor.execute_concluded takes ready.answers executed).2

theorem Turn.ready (turn : Turn e r g h result g' k) (ready : Ready common own g h) :
    Ready common own g' k :=
  ⟨(turn.stage.frame ready.takes).takes ready.takes, turn.stage.answers ready⟩

/-- A turn of a lead or a rule that is not looked at shows nothing. -/
theorem Spared.unseen (spared : Spared e r g h result g' k) (takes : h.Takes g.places)
    (unseen : v (.text e.lead.id) (.text r.id) = false) : view v g' k = view v g h := by
  refine (spared.turn.stage.frame takes).shows ?_ ?_
  · rw [spared.turn.edges]
    exact EdgeStore.within_transition_unseen unseen spared.dropped
  · rw [Ledger.within, spared.keys, List.filter_append]
    have elsewhere : v (deliveryKey r e).identity.1 (deliveryKey r e).identity.2.1 = false := unseen
    cases result.actionResult?.isSome <;> simp [elsewhere, Ledger.within]

/-- Where a rule halts is told by the view of its lead. -/
theorem halt_eq_of_view (seen : v (.text e.lead.id) (.text r.id) = true)
    (same : view v g' h' = view v g h) :
    g'.halt r e = g.halt r e := by
  simp only [view, View.mk.injEq] at same
  obtain ⟨catalog, -, edgesMax, -, -, states, deliveries⟩ := same
  have current := EdgeStore.get_eq_of_within (.ofTexts e.lead.id r.id) seen states
  have exhausted : (g'.sighting r e).exhausted = (g.sighting r e).exhausted := by
    rw [sighting, sighting, EdgeStore.exhausted_transition, EdgeStore.exhausted_transition,
      current, edgesMax]
  have fired : (g'.sighting r e).fired = (g.sighting r e).fired := by
    rw [fired_sighting, fired_sighting, stateFor, stateFor, current]
  have known : g'.ledger.isProcessed (deliveryKey r e) = g.ledger.isProcessed (deliveryKey r e) :=
    Ledger.isProcessed_eq_of_within seen deliveries
  simp only [halt, exhausted, fired, catalog, known]

/-- A turn that is looked at ends alike wherever the view is the same. -/
theorem Spared.alike (spared : Spared e r g h result g₁ k)
    (spared' : Spared e r g' h' result' g₁' k')
    (ready : Ready common own g h) (ready' : Ready common own g' h')
    (seen : v (.text e.lead.id) (.text r.id) = true) (same : view v g' h' = view v g h) :
    result.masked = result'.masked := by
  have halts := halt_eq_of_view seen same
  have stage := spared.turn.stage
  have stage' := spared'.turn.stage
  cases halt : g.halt r e with
  | some found =>
    rw [(stage.stopped halt).1, (stage'.stopped (halts.trans halt)).1]
  | none =>
    obtain ⟨answer, h₁, h₂, before, executed, rfl⟩ := stage.reached halt
    obtain ⟨answer', h₁', h₂', before', executed', rfl⟩ := stage'.reached (halts.trans halt)
    have takes := takes_cursors ready.takes before
    have takes' := takes_cursors ready'.takes before'
    simp only [view, View.mk.injEq] at same
    obtain ⟨-, directory, -, ledgerMax, now, -, -⟩ := same
    rw [ledgerMax]
    refine RuleResult.masked_ofAnswer ?_ _
    refine Executor.execute_alike takes takes' ready.answers ready'.answers directory ?_
      executed executed'
    rw [before.now, before'.now, now]

theorem Spared.shows_alike (spared : Spared e r g h result g₁ k)
    (spared' : Spared e r g' h' result' g₁' k')
    (ready : Ready common own g h) (ready' : Ready common own g' h')
    (seen : v (.text e.lead.id) (.text r.id) = true) (same : view v g' h' = view v g h) :
    view v g₁' k' = view v g₁ k := by
  have acted : result'.actionResult?.isSome = result.actionResult?.isSome := by
    rw [← RuleResult.isSome_actionResult?_masked, ← spared.alike spared' ready ready' seen same,
      RuleResult.isSome_actionResult?_masked]
  refine (spared.turn.stage.frame ready.takes).shows_alike
    (spared'.turn.stage.frame ready'.takes) same ?_ ?_
  · rw [spared.turn.edges, spared'.turn.edges]
    exact EdgeStore.within_transition_seen seen (congrArg View.states same) spared.dropped
      spared'.dropped
  · have deliveries : g'.ledger.within v = g.ledger.within v := congrArg View.deliveries same
    rw [Ledger.within, Ledger.within, spared.keys, spared'.keys, List.filter_append,
      List.filter_append, acted]
    exact congrArg (· ++ _) deliveries

/-- A rule that is looked at assigns for the same team wherever the view is the same. -/
theorem assignment_of_view (takes : h.Takes g.places) (takes' : h'.Takes g'.places)
    (seen : v (.text e.lead.id) (.text r.id) = true) (same : view v g' h' = view v g h) :
    (assignment r e (g', h')).map (·.1) = (assignment r e (g, h)).map (·.1) := by
  have directory : g'.executor.directory = g.executor.directory := congrArg View.directory same
  rw [assignment_eq takes, assignment_eq takes', halt_eq_of_view seen same, directory]
  split
  · rfl
  · rw [Option.map_map, Option.map_map]
    rfl

def seenOf (v : Scope) (e : Event) (outcomes : List RuleOutcome) : List RuleOutcome :=
  outcomes.filter fun o => v (.text e.lead.id) (.text o.rule)

theorem seenOf_cons_of_pos {o : RuleOutcome} (seen : v (.text e.lead.id) (.text o.rule) = true)
    (outcomes : List RuleOutcome) : seenOf v e (o :: outcomes) = o :: seenOf v e outcomes :=
      List.filter_cons_of_pos seen

theorem seenOf_cons_of_neg {o : RuleOutcome} (unseen : v (.text e.lead.id) (.text o.rule) = false)
    (outcomes : List RuleOutcome) : seenOf v e (o :: outcomes) = seenOf v e outcomes :=
  List.filter_cons_of_neg (by simp [unseen])

theorem seenOf_eq_self (seen : ∀ o ∈ outcomes, v (.text e.lead.id) (.text o.rule) = true) :
    seenOf v e outcomes = outcomes :=
  List.filter_eq_self.2 seen

/-- Turns that are the same but for rules that are not looked at show the same and end alike. -/
theorem Turns.alike
    (aligned : Aligned (fun r : Rule => v (.text e.lead.id) (.text r.id)) rules rules')
    (turns : Turns e rules g h outcomes g₁ k) (turns' : Turns e rules' g' h' outcomes' g₁' k')
    (ready : Ready common own g h) (ready' : Ready common own g' h')
    (kept : evictsAny e rules g h = false)
    (kept' : evictsAny e rules' g' h' = false) (same : view v g' h' = view v g h) :
    view v g₁' k' = view v g₁ k ∧
    List.Forall₂ RuleOutcome.Alike (seenOf v e outcomes) (seenOf v e outcomes') := by
  induction aligned generalizing g h outcomes g' h' outcomes' with
  | nil =>
    cases turns
    cases turns'
    exact ⟨same, .nil⟩
  | left passed rest ih =>
    cases turns with
    | cons run first later =>
      obtain ⟨spared, kept⟩ := first.spared run kept
      rw [seenOf_cons_of_neg passed]
      exact ih later turns' (first.ready ready) ready' kept kept'
        (same.trans (spared.unseen ready.takes passed).symm)
  | right passed rest ih =>
    cases turns' with
    | cons run first later =>
      obtain ⟨spared, kept'⟩ := first.spared run kept'
      rw [seenOf_cons_of_neg passed]
      exact ih turns later ready (first.ready ready') kept kept'
        ((spared.unseen ready'.takes passed).trans same)
  | both seen rest ih =>
    cases turns with
    | cons run first later =>
      cases turns' with
      | cons run' first' later' =>
        obtain ⟨spared, kept⟩ := first.spared run kept
        obtain ⟨spared', kept'⟩ := first'.spared run' kept'
        have after := spared.shows_alike spared' ready ready' seen same
        obtain ⟨shown, alike⟩ :=
          ih later later' (first.ready ready) (first'.ready ready') kept kept' after
        rw [seenOf_cons_of_pos seen, seenOf_cons_of_pos seen]
        exact ⟨shown, .cons (RuleOutcome.alike (spared.alike spared' ready ready' seen same)) alike⟩

/-- Rules that are all looked at assign for the same teams wherever the view is the same. -/
theorem Turns.teams (turns : Turns e rules g h outcomes g₁ k)
    (turns' : Turns e rules g' h' outcomes' g₁' k')
    (ready : Ready common own g h) (ready' : Ready common own g' h')
    (kept : evictsAny e rules g h = false)
    (kept' : evictsAny e rules g' h' = false)
    (seen : ∀ r ∈ rules, v (.text e.lead.id) (.text r.id) = true)
    (same : view v g' h' = view v g h) :
    (assignmentsOf e rules (g', h')).map (·.1) = (assignmentsOf e rules (g, h)).map (·.1) := by
  induction turns generalizing g' h' outcomes' with
  | nil => rfl
  | cons run first later ih =>
    cases turns' with
    | cons run' first' later' =>
      obtain ⟨spared, kept⟩ := first.spared run kept
      obtain ⟨spared', kept'⟩ := first'.spared run' kept'
      have here := seen _ List.mem_cons_self
      have after := spared.shows_alike spared' ready ready' here same
      have rest := ih later' (first.ready ready) (first'.ready ready') kept kept'
        (fun r member => seen r (List.mem_cons_of_mem _ member)) after
      have assigned :=
        congrArg Option.toList (assignment_of_view ready.takes ready'.takes here same)
      simp only [Option.toList_map] at assigned
      simp only [assignmentsOf, run, run', List.map_append, rest, assigned]

/-- Writing the stores shows nothing. -/
theorem Flushed.shows (flushed : Flushed g g') (leads : h.Leads [g.edges.path, g.ledger.path] k) :
    view v g' k = view v g h := by
  refine (flushed.frame leads).shows ?_ ?_
  · rw [EdgeStore.within, flushed.states]
    rfl
  · rw [Ledger.within, Ledger.keys, flushed.processed]
    rfl

theorem Turns.ready (turns : Turns e rules g h outcomes g' k) (ready : Ready common own g h) :
    Ready common own g' k := by
  induction turns with
  | nil => exact ready
  | cons run first later ih => exact ih (first.ready ready)

/-- An event that was answered: its rules took their turns, and the stores were written. -/
structure Answered (common own : Option Answer) (e : Event) (rules : List Rule)
    (g : Engine) (h : Host)
    (outcomes : List RuleOutcome) (g' : Engine) (k : Host) : Prop where
  run : onEvent e (g, h) = (.ok ⟨e.id, e.lead.id, e.kind, outcomes⟩, (g', k))
  ready : Ready common own g' k
  frame : g'.rules = g.rules
  turns : ∃ g₁ h₁, Turns e rules g h outcomes g₁ h₁ ∧ Flushed g₁ g' ∧
    h₁.Leads [g₁.edges.path, g₁.ledger.path] k

theorem onEvent_answered (ready : Ready common own g h)
    (chosen : g.rules.rulesFor e.kind.trigger = .ok rules) :
    ∃ outcomes g' k, Answered common own e rules g h outcomes g' k := by
  obtain ⟨outcomes, g₁, h₁, g', k, run, turns, flushed, leads⟩ := onEvent_passage ready.takes chosen
  have reached := turns.ready ready
  have executor := flushed.executor
  refine ⟨outcomes, g', k, run,
    ⟨(flushed.frame leads).takes reached.takes, executor ▸ reached.answers⟩, ?_, g₁, h₁, turns,
    flushed, leads⟩
  rw [flushed.rules, turns.frame.1]

/-- Answers to one event, with rules that are the same where they are looked at, show
the same and are alike. -/
theorem Answered.alike
    (aligned : Aligned (fun r : Rule => v (.text e.lead.id) (.text r.id)) rules rules')
    (answered : Answered common own e rules g h outcomes g₁ k)
    (answered' : Answered common own e rules' g' h' outcomes' g₁' k') (ready : Ready common own g h)
    (ready' : Ready common own g' h') (kept : evictsAny e rules g h = false)
    (kept' : evictsAny e rules' g' h' = false) (same : view v g' h' = view v g h) :
    view v g₁' k' = view v g₁ k ∧
    List.Forall₂ RuleOutcome.Alike (seenOf v e outcomes) (seenOf v e outcomes') := by
  obtain ⟨g₂, h₂, turns, flushed, leads⟩ := answered.turns
  obtain ⟨g₂', h₂', turns', flushed', leads'⟩ := answered'.turns
  rw [flushed.shows leads, flushed'.shows leads']
  exact turns.alike aligned turns' ready ready' kept kept' same

theorem Answered.teams (answered : Answered common own e rules g h outcomes g₁ k)
    (answered' : Answered common own e rules g' h' outcomes' g₁' k') (ready : Ready common own g h)
    (ready' : Ready common own g' h') (kept : evictsAny e rules g h = false)
    (kept' : evictsAny e rules g' h' = false)
    (seen : ∀ r ∈ rules, v (.text e.lead.id) (.text r.id) = true)
    (same : view v g' h' = view v g h) :
    (assignmentsOf e rules (g', h')).map (·.1) = (assignmentsOf e rules (g, h)).map (·.1) := by
  obtain ⟨_, _, turns, -⟩ := answered.turns
  obtain ⟨_, _, turns', -⟩ := answered'.turns
  exact turns.teams turns' ready ready' kept kept' seen same

/-- An event none of whose rules is looked at shows nothing. -/
theorem Answered.unseen (answered : Answered common own e rules g h outcomes g' k)
    (ready : Ready common own g h)
    (kept : evictsAny e rules g h = false)
    (unseen : ∀ r ∈ rules, v (.text e.lead.id) (.text r.id) = false) :
    view v g' k = view v g h := by
  obtain ⟨g₁, h₁, turns, flushed, leads⟩ := answered.turns
  have aligned : Aligned (fun r : Rule => v (.text e.lead.id) (.text r.id)) rules [] :=
    .of_filter (List.filter_eq_nil_iff.2 fun r member => by simp [unseen r member])
  rw [flushed.shows leads]
  exact (turns.alike aligned .nil ready ready kept rfl rfl).1.symm

theorem evictsOn_eq (chosen : g.rules.rulesFor e.kind.trigger = .ok rules) (h : Host) :
    evictsOn e g h = evictsAny e rules g h := by
  rw [evictsOn, chosen]
  rfl

end Engine
end LeadRules
