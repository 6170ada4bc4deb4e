import LeadRules.Proofs.View

/-! Rules and leads keep apart. What a rule comes to does not depend on the rules beside it, nor
what happens to a lead on the events of others in between: two runs that differ in those alone
agree on all the rest, but for the members that round robins choose. -/
namespace LeadRules

namespace Repository

variable {s : Repository} {kind : TriggerKind} {rules : List Rule} {keep : Text → Bool}

def restrict (keep : Text → Bool) (s : Repository) : Repository :=
  { s with rules := s.rules.filter fun _ r => keep r.id }

theorem values_restrict (keep : Text → Bool) (s : Repository) :
    (s.restrict keep).rules.values = s.rules.values.filter (keep ·.id) := by
  simp only [restrict, OrderedMap.values, OrderedMap.filter, List.filter_map]
  rfl

theorem due_restrict (keep : Text → Bool) (s : Repository) (kind : TriggerKind) :
    (s.restrict keep).due kind = (s.due kind).filter (keep ·.id) := by
  rw [due, due, values_restrict, List.filter_comm]

theorem Orderable.restrict (orderable : s.Orderable) (keep : Text → Bool) :
    (s.restrict keep).Orderable := by
  unfold Orderable comparable at orderable ⊢
  rw [values_restrict, List.filter_comm]
  simp only [Bool.or_eq_true, List.all_eq_true] at orderable ⊢
  refine orderable.imp (fun zoned r member => ?_) fun plain r member => ?_
  · exact zoned r (List.mem_filter.1 member).1
  · exact plain r (List.mem_filter.1 member).1

/-- There is only one way to order rules by time of creation that leaves those of one instant in
place. -/
theorem InTurn.unique {stored first second : List Rule} (one : InTurn stored first)
    (other : InTurn stored second) :
    first = second := by
  have perm := one.all.trans other.all.symm
  have ties t := (one.ties t).trans (other.ties t).symm
  have sorted := one.sorted
  have sorted' := other.sorted
  clear one other
  induction first generalizing second with
  | nil => exact (List.nil_perm.1 perm).symm
  | cons a first ih =>
    cases second with
    | nil => cases List.perm_nil.1 perm
    | cons b second =>
      obtain ⟨least, later⟩ := List.pairwise_cons.1 sorted
      obtain ⟨least', later'⟩ := List.pairwise_cons.1 sorted'
      have below : b.createdAt.instant ≤ a.createdAt.instant := by
        rcases List.mem_cons.1 (perm.subset List.mem_cons_self) with rfl | member
        · exact Int.le_refl _
        · exact least' a member
      have above : a.createdAt.instant ≤ b.createdAt.instant := by
        rcases List.mem_cons.1 (perm.symm.subset List.mem_cons_self) with rfl | member
        · exact Int.le_refl _
        · exact least b member
      have level := Int.le_antisymm above below
      obtain rfl : a = b := by
        have heads := ties a.createdAt.instant
        rw [List.filter_cons_of_pos (by simp), List.filter_cons_of_pos (by simp [level])] at heads
        exact (List.cons.inj heads).1
      refine congrArg _ (ih (List.perm_cons a |>.1 perm) (fun t => ?_) later later')
      have tails := ties t
      by_cases here : a.createdAt.instant = t
      · rw [List.filter_cons_of_pos (by simp [here]), List.filter_cons_of_pos (by simp [here])] at tails
        exact (List.cons.inj tails).2
      · rwa [List.filter_cons_of_neg (by simp [here]), List.filter_cons_of_neg (by simp [here])] at tails

/-- Fewer rules take their turns in the same order. -/
theorem rulesFor_restrict (orderable : s.Orderable) (chosen : s.rulesFor kind = .ok rules)
    (keep : Text → Bool) :
    (s.restrict keep).rulesFor kind = .ok (rules.filter (keep ·.id)) := by
  obtain ⟨found, listed, turn⟩ := rulesFor_orderable orderable kind
  obtain rfl : found = rules := Except.ok.inj (listed.symm.trans chosen)
  obtain ⟨fewer, listed', turn'⟩ := rulesFor_orderable (orderable.restrict keep) kind
  rw [due_restrict] at turn'
  rw [listed', turn'.unique (turn.filter (keep ·.id))]

theorem length_rulesFor (orderable : s.Orderable)
    (chosen : s.rulesFor kind = .ok rules) : rules.length ≤ s.rules.size := by
  obtain ⟨found, listed, turn⟩ := rulesFor_orderable orderable kind
  obtain rfl : found = rules := Except.ok.inj (listed.symm.trans chosen)
  rw [turn.all.length_eq]
  exact (List.length_filter_le ..).trans_eq (List.length_map _)

end Repository

theorem EdgeStore.transition_of_room {s : EdgeStore}
    (room : (s.states.size + 1 : Int) ≤ s.maxEntries) (key : EdgeKey)
    (step : EdgeState → Bool × EdgeChange) :
    (s.transition key step).dropped = [] ∧
    (s.transition key step).store.states.size ≤ s.states.size + 1 := by
  cases differs : (s.get key).isAlteredBy (step (s.get key)).2 with
  | true =>
    have grown :
      (s.states.putWrittenLast key.identity key ((s.get key).apply (step (s.get key)).2)).size ≤
        s.states.size + 1 := by
      rw [← OrderedMap.length_keys, OrderedMap.keys_putWrittenLast, List.length_append,
        ← OrderedMap.length_keys]
      exact Nat.add_le_add_right (List.length_filter_le ..) 1
    have kept :
        ((s.remember key ((s.get key).apply (step (s.get key)).2) (step (s.get key)).1)).dropped =
        [] := by
      have within :
        (s.states.putWrittenLast key.identity key ((s.get key).apply (step (s.get key)).2)).excess
          s.maxEntries = 0 := by
        unfold OrderedMap.excess
        omega
      rw [EdgeStore.remember, within]
      rfl
    rw [transition_altered differs]
    exact ⟨kept, by rw [states_remember kept]; exact grown⟩
  | false =>
    rw [transition_unaltered differs]
    exact ⟨rfl, Nat.le_succ _⟩

namespace Scope

def ofRules (keep : Text → Bool) : Scope
  | _, .text rule => keep rule
  | _, _ => false

def ofLead (lead : Key) : Scope := fun other _ => other = lead

end Scope

namespace EventOutcome

def restrict (keep : Text → Bool) (o : EventOutcome) : EventOutcome :=
  { o with rules := o.rules.filter (keep ·.rule) }

/-- Answers to one event that differ at most in the members that round robins chose. -/
structure Alike (a b : EventOutcome) : Prop where
  event : a.event = b.event
  lead : a.lead = b.lead
  kind : a.kind = b.kind
  rules : List.Forall₂ RuleOutcome.Alike a.rules b.rules

end EventOutcome

namespace Engine

variable {e : Event} {rules rules' : List Rule} {outcomes : List RuleOutcome} {g g' g₁ g₁' : Engine}
  {h h' k k' : Host}
  {common own : Option Answer} {events xs ys : List Event} {os os' : List EventOutcome}
    {keep : Text → Bool}

/-- Whether a store drops an entry while events are taken. -/
def evictsAlong : List Event → Engine × Host → Bool
  | [], _ => false
  | e :: rest, s => evictsOn e s.1 s.2 || evictsAlong rest (onEvent e s).2

/-- Events that were all answered, one after the other. -/
inductive Series (common own : Option Answer) :
    List Event → Engine → Host → List EventOutcome → Engine → Host → Prop
  | nil {g : Engine} {h : Host} : Series common own [] g h [] g h
  | cons {e : Event} {rest : List Event} {rules : List Rule} {g g₁ g₂ : Engine} {h h₁ h₂ : Host}
      {outcomes : List RuleOutcome} {os : List EventOutcome}
        (chosen : g.rules.rulesFor e.kind.trigger = .ok rules)
      (first : Answered common own e rules g h outcomes g₁ h₁)
        (later : Series common own rest g₁ h₁ os g₂ h₂) :
      Series common own (e :: rest) g h (⟨e.id, e.lead.id, e.kind, outcomes⟩ :: os) g₂ h₂

theorem onEvents_series (ready : Ready common own g h) (orderable : g.rules.Orderable)
    (events : List Event) :
    ∃ os g' k, onEvents events (g, h) = (.ok os, (g', k)) ∧
      Series common own events g h os g' k := by
  induction events generalizing g h with
  | nil => exact ⟨[], g, h, rfl, .nil⟩
  | cons e rest ih =>
    obtain ⟨rules, chosen, -⟩ := Repository.rulesFor_orderable orderable e.kind.trigger
    obtain ⟨outcomes, g₁, h₁, first⟩ := onEvent_answered ready chosen
    obtain ⟨os, g₂, h₂, run, later⟩ := ih first.ready (first.frame ▸ orderable)
    refine ⟨_, g₂, h₂, ?_, .cons chosen first later⟩
    simp only [onEvents, Op.run_bind, first.run, run, Op.run_pure]

/-- Every event has its answer. -/
theorem Series.named (series : Series common own events g h os g' k) :
    os.map (fun o => (o.event, o.lead, o.kind)) = events.map fun e =>
      (e.id, e.lead.id, e.kind) := by
  induction series with
  | nil => rfl
  | cons chosen first later ih => simp [ih]

/-- An event after which the search for evictions goes on has evicted nothing. -/
theorem Answered.kept (answered : Answered common own e rules g h outcomes g' k)
    (chosen : g.rules.rulesFor e.kind.trigger = .ok rules) {rest : List Event}
    (kept : evictsAlong (e :: rest) (g, h) = false) :
    evictsAny e rules g h = false ∧ evictsAlong rest (g', k) = false := by
  simpa only [evictsAlong, answered.run, evictsOn_eq chosen, Bool.or_eq_false_iff] using kept

theorem Answered.named (answered : Answered common own e rules g h outcomes g' k) :
    outcomes.map (·.rule) = rules.map (·.id) := by
  obtain ⟨_, _, turns, -⟩ := answered.turns
  simpa [List.map_map, Function.comp_def] using congrArg (List.map Prod.fst) turns.named

/-- Stores that can take some more turns without dropping an entry. -/
structure Room (turns : Nat) (g : Engine) : Prop where
  edges : (g.edges.states.size + turns : Int) ≤ g.edges.maxEntries
  ledger : (g.ledger.keys.length + turns : Int) ≤ g.ledger.maxEntries

theorem Room.mono {more fewer : Nat} (room : Room more g) (within : fewer ≤ more) :
    Room fewer g := by
  obtain ⟨edges, ledger⟩ := room
  exact ⟨by omega, by omega⟩

theorem Stage.ledger_of_room {r : Rule} {result : RuleResult} (stage : Stage e r g h result g' k)
    (room : (g.ledger.keys.length + 1 : Int) ≤ g.ledger.maxEntries) :
      g'.ledger.maxEntries = g.ledger.maxEntries ∧
      g'.ledger.keys.length = g.ledger.keys.length + result.actionResult?.isSome.toNat := by
  cases stage with
  | halted halt noted =>
    rw [halt_actionResult? halt]
    exact ⟨rfl, rfl⟩
  | faulty clear before executed noted => exact ⟨rfl, rfl⟩
  | acted clear before executed noted =>
    rename_i result x h₁ h₂
    have new := (Ledger.isProcessed_false ..).2 (cleared_of_halt clear).2
    have bound : ¬ g.ledger.maxEntries < 0 := by omega
    refine ⟨rfl, ?_⟩
    rw [if_neg bound, RuleResult.actionResult?_ofAction]
    simpa using congrArg List.length (Ledger.keys_record_of_room new room h₂.now)

theorem Turn.roomy {r : Rule} {result : RuleResult} {left : Nat} (room : Room (left + 1) g)
    (turn : Turn e r g h result g' k)
    (run : outcomeOf e r (g, h) = (.ok ⟨r.id, r.name, result⟩, (g', k))) :
    evicts e r g h = false ∧ Room left g' := by
  obtain ⟨edges, ledger⟩ := room
  push_cast at edges ledger
  have free : (g.edges.states.size + 1 : Int) ≤ g.edges.maxEntries := by omega
  obtain ⟨dropped, grown⟩ :=
    EdgeStore.transition_of_room free (.ofTexts e.lead.id r.id) (r.trigger.matchEvent e)
  have edgesMax := sighting_maxEntries g r e
  obtain ⟨ledgerMax, keys⟩ := turn.stage.ledger_of_room (by omega)
  have one : result.actionResult?.isSome.toNat ≤ 1 := Bool.toNat_le _
  refine ⟨?_, ?_, ?_⟩
  · have unchanged : (g.sighting r e).dropped = [] := dropped
    simp [evicts, run, unchanged, Except.toOption, keys]
  · rw [turn.edges, edgesMax]
    have grown : (g.sighting r e).store.states.size ≤ g.edges.states.size + 1 := grown
    omega
  · rw [ledgerMax]
    omega

theorem Turns.roomy {left : Nat} (turns : Turns e rules g h outcomes g' k)
    (room : Room (left + rules.length) g) :
    evictsAny e rules g h = false ∧ Room left g' := by
  induction turns with
  | nil => exact ⟨rfl, room⟩
  | cons run first later ih =>
    obtain ⟨kept, room⟩ := first.roomy room run
    obtain ⟨others, room⟩ := ih room
    exact ⟨by simp [evictsAny, run, kept, others], room⟩

theorem Series.roomy (series : Series common own events g h os g' k) (orderable : g.rules.Orderable)
    (room : Room (events.length * g.rules.rules.size) g) : evictsAlong events (g, h) = false := by
  induction series with
  | nil => rfl
  | @cons e rest rules g g₂ g₃ h h₂ h₃ outcomes os chosen first later ih =>
    obtain ⟨g₁, h₁, turns, flushed, -⟩ := first.turns
    have fewer := Repository.length_rulesFor orderable chosen
    have room : Room (rest.length * g.rules.rules.size + rules.length) g := by
      refine room.mono ?_
      rw [List.length_cons, Nat.succ_mul]
      omega
    obtain ⟨kept, edges, ledger⟩ := turns.roomy room
    have room : Room (rest.length * g₂.rules.rules.size) g₂ := by
      rw [first.frame]
      refine ⟨?_, ?_⟩
      · rw [flushed.states, flushed.edges]
        exact edges
      · rw [Ledger.keys, flushed.processed, flushed.maxEntries]
        exact ledger
    have others := ih (first.frame ▸ orderable) room
    simp [evictsAlong, first.run, evictsOn_eq chosen, kept, others]

/-- Stores with room for a turn of every rule on every event drop nothing. -/
theorem evictsAlong_of_room (events : List Event) (ready : Ready common own g h)
    (orderable : g.rules.Orderable)
    (room : Room (events.length * g.rules.rules.size) g) : evictsAlong events (g, h) = false := by
  obtain ⟨os, g', k, -, series⟩ := onEvents_series ready orderable events
  exact series.roomy orderable room

/-- Where only some of the rules are stored, these show the same and end alike. -/
theorem Series.restricted (series : Series common own events g h os g₁ k)
    (series' : Series common own events g' h' os' g₁' k') (orderable : g.rules.Orderable)
    (restricted : g'.rules = g.rules.restrict keep) (ready : Ready common own g h)
    (ready' : Ready common own g' h')
    (kept : evictsAlong events (g, h) = false) (kept' : evictsAlong events (g', h') = false)
    (same : view (.ofRules keep) g' h' = view (.ofRules keep) g h) :
    view (.ofRules keep) g₁' k' = view (.ofRules keep) g₁ k ∧
      List.Forall₂ (fun o o' => (o.restrict keep).Alike o') os os' := by
  induction series generalizing g' h' os' with
  | nil =>
    cases series'
    exact ⟨same, .nil⟩
  | @cons e rest rules g g₂ g₃ h h₂ h₃ outcomes os chosen first later ih =>
    cases series' with
    | @cons _ _ rules' _ g₂' _ _ h₂' _ outcomes' os' chosen' first' later' =>
      obtain rfl : rules.filter (keep ·.id) = rules' := by
        have fewer := Repository.rulesFor_restrict orderable chosen keep
        rw [← restricted] at fewer
        exact Except.ok.inj (fewer.symm.trans chosen')
      obtain ⟨here, kept⟩ := first.kept chosen kept
      obtain ⟨here', kept'⟩ := first'.kept chosen' kept'
      have aligned :
        Aligned (fun r : Rule => Scope.ofRules keep (.text e.lead.id) (.text r.id)) rules
          (rules.filter (keep ·.id)) :=
        .of_filter (by simp [Scope.ofRules])
      obtain ⟨shown, alike⟩ := first.alike aligned first' ready ready' here here' same
      obtain ⟨shown, others⟩ :=
        ih later' (first.frame ▸ orderable) (by rw [first'.frame, first.frame, restricted])
        first.ready first'.ready kept kept' shown
      have whole : seenOf (.ofRules keep) e outcomes' = outcomes' := by
        refine seenOf_eq_self fun o member => ?_
        have listed : o.rule ∈ (rules.filter (keep ·.id)).map (·.id) :=
          first'.named ▸ List.mem_map_of_mem member
        obtain ⟨r, found, same⟩ := List.mem_map.1 listed
        rw [← same]
        exact (List.mem_filter.1 found).2
      rw [whole] at alike
      exact ⟨shown, .cons ⟨rfl, rfl, rfl, alike⟩ others⟩

/-- Rules do not interfere: with only some of them stored, these come to the same on every event
and leave the same edge states and deliveries, whatever the others do. -/
theorem rules_do_not_interfere (keep : Text → Bool) (events : List Event)
    (orderable : g.rules.Orderable)
    (takes : h.Takes g.places) (answers : g.executor.Answers common own)
    (kept : evictsAlong events (g, h) = false)
    (kept' : evictsAlong events ({ g with rules := g.rules.restrict keep }, h) = false) :
    ∃ os g₁ k os' g₁' k', onEvents events (g, h) = (.ok os, (g₁, k)) ∧
      onEvents events ({ g with rules := g.rules.restrict keep }, h) = (.ok os', (g₁', k')) ∧
      os.map (fun o => (o.event, o.lead, o.kind)) =
        events.map (fun e => (e.id, e.lead.id, e.kind)) ∧
      List.Forall₂ (fun o o' => (o.restrict keep).Alike o') os os' ∧
      g₁.edges.within (.ofRules keep) = g₁'.edges.within (.ofRules keep) ∧
      g₁.ledger.within (.ofRules keep) = g₁'.ledger.within (.ofRules keep) := by
  have ready : Ready common own g h := ⟨takes, answers⟩
  have ready' : Ready common own { g with rules := g.rules.restrict keep } h := ⟨takes, answers⟩
  obtain ⟨os, g₁, k, run, series⟩ := onEvents_series ready orderable events
  obtain ⟨os', g₁', k', run', series'⟩ := onEvents_series ready' (orderable.restrict keep) events
  obtain ⟨shown, alike⟩ := series.restricted series' orderable rfl ready ready' kept kept' rfl
  exact ⟨os, g₁, k, os', g₁', k', run, run', series.named, alike, (congrArg View.states shown).symm,
    (congrArg View.deliveries shown).symm⟩

def offline : RequestKind → Text → Option Fault :=
  fun kind _ => if kind = .webhookDispatch then some .nothingToEvict else none

def crew : Engine where
  rules := { rules := .ofList [("tag", rotating), ("rival", { rotating with id := "rival" }),
    ("hook", { tagging with id := "hook", action := .sendWebhook "https://example.org" }),
    ("stray", { tagging with id := "stray", strays := ["x"] })] }
  executor := { counter.executor with
    handler := some (.recorder { refusal := fun r => offline r.kind r.lead }) }

def tasks : List Event :=
  [completion, { completion with id := "e2", lead := { id := "L2" } },
    { completion with id := "e3" }]

theorem crew_ready (rules : Repository) :
    Ready (some fun kind lead => (offline kind lead).elim (.ok ()) .error) none
    { crew with rules } .still :=
  ⟨Host.takes_memory (by simp [places, crew, counter]) .still,
    .some (Handler.recorder_regular offline), .none⟩

theorem rules_do_not_interfere_crew :
    evictsAlong tasks (crew, .still) = false ∧
    evictsAlong tasks ({ crew with rules := crew.rules.restrict (· = "tag") }, .still) = false ∧
    ∃ os g₁ k os' g₁' k', onEvents tasks (crew, .still) = (.ok os, (g₁, k)) ∧
      onEvents tasks ({ crew with rules := crew.rules.restrict (· = "tag") }, .still) =
        (.ok os', (g₁', k')) ∧
      os.map (·.event) = (["e1", "e2", "e3"] : List Text) ∧
      List.Forall₂ (fun o o' => (o.restrict (· = "tag")).Alike o') os os' := by
  have orderable : crew.rules.Orderable := by decide +kernel
  have ready := crew_ready crew.rules
  have kept := evictsAlong_of_room tasks ready orderable ⟨by decide +kernel, by decide +kernel⟩
  have kept' :=
    evictsAlong_of_room tasks (crew_ready (crew.rules.restrict (· = "tag"))) (orderable.restrict _)
    ⟨by decide +kernel, by decide +kernel⟩
  obtain ⟨os, g₁, k, os', g₁', k', run, run', named, alike, -⟩ :=
    rules_do_not_interfere (· = "tag") tasks orderable ready.takes ready.answers kept kept'
  refine ⟨kept, kept', os, g₁, k, os', g₁', k', run, run', ?_, alike⟩
  have answered := congrArg (List.map fun o => o.1) named
  simp only [List.map_map, Function.comp_def] at answered
  exact answered.trans rfl

def teamsAlong : List Event → Engine × Host → List (Text × Text)
  | [], _ => []
  | e :: rest, s =>
    ((Activity.event e).assignments s).map (fun a => (e.lead.id, a.1)) ++ teamsAlong rest
    (onEvent e s).2

theorem teamsAlong_teams (events : List Event) (s : Engine × Host) :
    (teamsAlong events s).map (·.2) = (assignments (events.map .event) s).map (·.1) := by
  induction events generalizing s with
  | nil => rfl
  | cons e rest ih => simp [teamsAlong, assignments, ih, Activity.after, Function.comp_def]

def teamsOf (lead : Key) (teams : List (Text × Text)) : List (Text × Text) :=
  teams.filter fun a => .text a.1 = lead

theorem Answered.teamsOf (answered : Answered common own e rules g h outcomes g' k)
    (chosen : g.rules.rulesFor e.kind.trigger = .ok rules) (lead : Key) (rest : List Event) :
    Engine.teamsOf lead (teamsAlong (e :: rest) (g, h)) =
      (if .text e.lead.id = lead then (assignmentsOf e rules (g, h)).map fun a =>
        (e.lead.id, a.1) else []) ++
        Engine.teamsOf lead (teamsAlong rest (g', k)) := by
  have made : (Activity.event e).assignments (g, h) = assignmentsOf e rules (g, h) := by
    simp only [Activity.assignments, chosen]
  rw [teamsAlong, answered.run, made, Engine.teamsOf, Engine.teamsOf, List.filter_append, List.filter_map]
  congr 1
  split
  next here => simp [Function.comp_def, here]
  next apart => simp [Function.comp_def, apart]

/-- Where two engines show the same of a lead, an event of it takes the same teams in both. -/
theorem Answered.teamsOf_eq {lead : Key} (answered : Answered common own e rules g h outcomes g₁ k)
    (answered' : Answered common own e rules g' h' outcomes' g₁' k')
    (chosen : g.rules.rulesFor e.kind.trigger = .ok rules)
    (chosen' : g'.rules.rulesFor e.kind.trigger = .ok rules)
    (ready : Ready common own g h) (ready' : Ready common own g' h')
    (kept : evictsAny e rules g h = false)
    (kept' : evictsAny e rules g' h' = false) (here : .text e.lead.id = lead)
    (same : view (.ofLead lead) g' h' = view (.ofLead lead) g h)
    (later : Engine.teamsOf lead (teamsAlong ys (g₁', k')) = Engine.teamsOf lead (teamsAlong xs (g₁, k))) :
    Engine.teamsOf lead (teamsAlong (e :: ys) (g', h')) =
      Engine.teamsOf lead (teamsAlong (e :: xs) (g, h)) := by
  have teams := answered.teams (v := .ofLead lead) answered' ready ready' kept kept'
    (fun _ _ => decide_eq_true here) same
  have teams := congrArg (List.map fun team => (e.lead.id, team)) teams
  simp only [List.map_map, Function.comp_def] at teams
  rw [answered.teamsOf chosen, answered'.teamsOf chosen', if_pos here, if_pos here, teams, later]

def answersTo (lead : Key) (os : List EventOutcome) : List EventOutcome :=
  os.filter fun o => .text o.lead = lead

theorem answersTo_cons_of_pos {lead : Key} {o : EventOutcome}
    (here : decide (.text o.lead = lead) = true)
    (os : List EventOutcome) : answersTo lead (o :: os) = o :: answersTo lead os :=
      List.filter_cons_of_pos here

theorem answersTo_cons_of_neg {lead : Key} {o : EventOutcome}
    (apart : decide (.text o.lead = lead) = false)
    (os : List EventOutcome) : answersTo lead (o :: os) = answersTo lead os :=
  List.filter_cons_of_neg (by simpa using apart)

/-- What two series share of a lead whose events they have in the same order. -/
structure Shared (lead : Key) (g : Engine) (h : Host) (os : List EventOutcome)
    (teams : List (Text × Text))
    (g' : Engine) (h' : Host) (os' : List EventOutcome) (teams' : List (Text × Text)) : Prop where
  view : view (.ofLead lead) g' h' = view (.ofLead lead) g h
  answers : List.Forall₂ EventOutcome.Alike (answersTo lead os) (answersTo lead os')
  teams : teamsOf lead teams' = teamsOf lead teams

theorem Series.shared {lead : Key}
    (aligned : Aligned (fun e : Event => decide (.text e.lead.id = lead)) xs ys)
    (series : Series common own xs g h os g₁ k) (series' : Series common own ys g' h' os' g₁' k')
    (rules : g'.rules = g.rules) (ready : Ready common own g h) (ready' : Ready common own g' h')
    (kept : evictsAlong xs (g, h) = false) (kept' : evictsAlong ys (g', h') = false)
    (same : view (.ofLead lead) g' h' = view (.ofLead lead) g h) :
    Shared lead g₁ k os (teamsAlong xs (g, h)) g₁' k' os' (teamsAlong ys (g', h')) := by
  induction aligned generalizing g h os g' h' os' with
  | nil =>
    cases series
    cases series'
    exact ⟨same, .nil, rfl⟩
  | left passed rest ih =>
    cases series with
    | cons chosen first later =>
      obtain ⟨here, kept⟩ := first.kept chosen kept
      have unseen := first.unseen (v := .ofLead lead) ready here fun _ _ => passed
      have shared := ih later series' (rules.trans first.frame.symm) first.ready ready' kept kept'
        (same.trans unseen.symm)
      refine ⟨shared.view, ?_, ?_⟩
      · rw [answersTo_cons_of_neg passed]
        exact shared.answers
      · rw [first.teamsOf chosen, if_neg (of_decide_eq_false passed)]
        exact shared.teams
  | right passed rest ih =>
    cases series' with
    | cons chosen first later =>
      obtain ⟨here, kept'⟩ := first.kept chosen kept'
      have unseen := first.unseen (v := .ofLead lead) ready' here fun _ _ => passed
      have shared :=
        ih series later (first.frame.trans rules) ready first.ready kept kept' (unseen.trans same)
      refine ⟨shared.view, ?_, ?_⟩
      · rw [answersTo_cons_of_neg passed]
        exact shared.answers
      · rw [first.teamsOf chosen, if_neg (of_decide_eq_false passed)]
        exact shared.teams
  | @both e _ _ seen rest ih =>
    cases series with
    | cons chosen first later =>
      cases series' with
      | cons chosen' first' later' =>
        obtain rfl := Except.ok.inj (chosen.symm.trans (rules ▸ chosen'))
        obtain ⟨here, kept⟩ := first.kept chosen kept
        obtain ⟨here', kept'⟩ := first'.kept chosen' kept'
        obtain ⟨shown, alike⟩ := first.alike (.of_filter rfl) first' ready ready' here here' same
        have shared :=
          ih later later' (by rw [first'.frame, first.frame, rules]) first.ready first'.ready
            kept kept' shown
        refine ⟨shared.view, ?_, ?_⟩
        · rw [answersTo_cons_of_pos seen, answersTo_cons_of_pos seen]
          rw [seenOf_eq_self fun _ _ => seen, seenOf_eq_self fun _ _ => seen] at alike
          exact .cons ⟨rfl, rfl, rfl, alike⟩ shared.answers
        · exact first.teamsOf_eq first' chosen chosen' ready ready' here here'
            (of_decide_eq_true seen) same shared.teams

theorem length_turnsOf (team : Text) (made : List (Text × Text)) :
    (CursorStore.turnsOf team made).length = (made.map (·.1)).count team := by
  induction made with
  | nil => rfl
  | cons a rest ih =>
    by_cases same : a.1 = team
    · subst same
      rw [CursorStore.turnsOf_same, List.length_cons, ih, List.map_cons, List.count_cons_self]
    · rw [CursorStore.turnsOf_other same, ih, List.map_cons, List.count_cons_of_ne same]

/-- Leads are independent: however the events of several leads are interleaved, each lead gets the
same answers in its own order, and in the end the edge states, the deliveries and the number of
assignments of each team are the same. -/
theorem leads_are_independent
    (same : ∀ lead : Text, xs.filter (·.lead.id = lead) = ys.filter (·.lead.id = lead))
    (orderable : g.rules.Orderable) (takes : h.Takes g.places)
    (answers : g.executor.Answers common own)
    (kept : evictsAlong xs (g, h) = false) (kept' : evictsAlong ys (g, h) = false) :
    ∃ os g₁ k os' g₁' k', onEvents xs (g, h) = (.ok os, (g₁, k)) ∧
      onEvents ys (g, h) = (.ok os', (g₁', k')) ∧
      os.map (fun o => (o.event, o.lead, o.kind)) = xs.map (fun e => (e.id, e.lead.id, e.kind)) ∧
      os'.map (fun o => (o.event, o.lead, o.kind)) = ys.map (fun e => (e.id, e.lead.id, e.kind)) ∧
      (∀ lead : Text, List.Forall₂ EventOutcome.Alike (os.filter (·.lead = lead))
        (os'.filter (·.lead = lead))) ∧
      (∀ id, g₁.edges.states.get? id = g₁'.edges.states.get? id) ∧
      (∀ id, id ∈ g₁.ledger.keys ↔ id ∈ g₁'.ledger.keys) ∧
      ∀ team, (CursorStore.turnsOf team (assignments (xs.map .event) (g, h))).length =
        (CursorStore.turnsOf team (assignments (ys.map .event) (g, h))).length := by
  have ready : Ready common own g h := ⟨takes, answers⟩
  obtain ⟨os, g₁, k, run, series⟩ := onEvents_series ready orderable xs
  obtain ⟨os', g₁', k', run', series'⟩ := onEvents_series ready orderable ys
  have aligned (lead : Key) : Aligned (fun e : Event => decide (.text e.lead.id = lead)) xs ys := by
    refine .of_filter ?_
    cases lead with
    | text lead => simpa using same lead
    | _ => simp
  have shared (lead : Key) := series.shared (aligned lead) series' rfl ready ready kept kept' rfl
  refine ⟨os, g₁, k, os', g₁', k', run, run', series.named, series'.named, fun lead => ?_,
    fun id => ?_, fun id => ?_, fun team => ?_⟩
  · simpa [answersTo] using (shared (.text lead)).answers
  · have seen : Scope.ofLead id.1 id.1 id.2 = true := decide_eq_true rfl
    have states : g₁'.edges.within _ = g₁.edges.within _ := congrArg View.states (shared id.1).view
    rw [← EdgeStore.get?_within seen g₁.edges, ← EdgeStore.get?_within seen g₁'.edges, states]
  · have seen : Scope.ofLead id.1 id.1 id.2.1 = true := decide_eq_true rfl
    have deliveries : g₁'.ledger.within _ = g₁.ledger.within _ :=
      congrArg View.deliveries (shared id.1).view
    rw [← Ledger.mem_within seen g₁.ledger, ← Ledger.mem_within seen g₁'.ledger, deliveries]
  · have perm : (teamsAlong xs (g, h)).Perm (teamsAlong ys (g, h)) := by
      refine List.perm_iff_count.2 fun a => ?_
      have teams := congrArg (List.count a) (shared (.text a.1)).teams
      rw [teamsOf, teamsOf, List.count_filter (by simp), List.count_filter (by simp)] at teams
      exact teams.symm
    rw [length_turnsOf, length_turnsOf, ← teamsAlong_teams, ← teamsAlong_teams]
    exact (perm.map _).count_eq team

def tasksOtherwise : List Event :=
  [{ completion with id := "e2", lead := { id := "L2" } }, completion,
    { completion with id := "e3" }]

theorem leads_are_independent_crew :
    (∀ lead : Text, tasks.filter (·.lead.id = lead) = tasksOtherwise.filter (·.lead.id = lead)) ∧
    evictsAlong tasks (crew, .still) = false ∧ evictsAlong tasksOtherwise (crew, .still) = false ∧
    ∃ os g₁ k os' g₁' k', onEvents tasks (crew, .still) = (.ok os, (g₁, k)) ∧
      onEvents tasksOtherwise (crew, .still) = (.ok os', (g₁', k')) ∧
      (∀ lead : Text, List.Forall₂ EventOutcome.Alike (os.filter (·.lead = lead))
        (os'.filter (·.lead = lead))) ∧
      ∀ team, (CursorStore.turnsOf team (assignments (tasks.map .event) (crew, .still))).length =
        (CursorStore.turnsOf team (assignments (tasksOtherwise.map .event) (crew, .still))).length := by
  have same (lead : Text) :
      tasks.filter (·.lead.id = lead) = tasksOtherwise.filter (·.lead.id = lead) := by
    have apart : completion.lead.id ≠ "L2" := by decide +kernel
    simp only [tasks, tasksOtherwise, List.filter_cons, List.filter_nil]
    by_cases first : completion.lead.id = lead
    · subst first
      simp [Ne.symm apart]
    · simp [first]
  have ready := crew_ready crew.rules
  have orderable : crew.rules.Orderable := by decide +kernel
  have kept := evictsAlong_of_room tasks ready orderable ⟨by decide +kernel, by decide +kernel⟩
  have kept' :=
    evictsAlong_of_room tasksOtherwise ready orderable ⟨by decide +kernel, by decide +kernel⟩
  obtain ⟨os, g₁, k, os', g₁', k', run, run', -, -, alike, -, -, teams⟩ :=
    leads_are_independent same orderable ready.takes ready.answers kept kept'
  exact ⟨same, kept, kept', os, g₁, k, os', g₁', k', run, run', alike, teams⟩

end Engine
end LeadRules
