import LeadRules.Proofs.Execution

/-! How an event passes through an engine on a host that takes what is saved. A rule halts before
its action or carries it out; the stores are then written, so that the event is answered whenever
its rules can be ordered. -/
namespace LeadRules

theorem Op.flush_taken {σ : Type} {op : StoreOp σ Unit} {x clean : σ} {h : Host}
    {path : Option FilePath} {v : Value}
    {dirty : Bool} (takes : h.Takes [path])
    (run : op (x, h) =
      if path.isNone || !dirty then (.ok (), (x, h)) else Op.saving path v clean x (x, h)) :
    ∃ y k, op (x, h) = (.ok (), (y, k)) ∧ h.Leads [path] k := by
  rw [run]
  split
  · exact ⟨x, h, rfl, .relogged (.refl h)⟩
  · obtain ⟨k, saved⟩ := takes.save (List.mem_singleton_self _) v
    exact ⟨_, k, Op.saving_saved saved, .save (List.mem_singleton_self _) saved (.refl k)⟩

def RuleResult.ofAction (result : ActionResult) : RuleResult :=
  if result.ok then executed result else actionFailed result

@[simp] theorem RuleResult.actionResult?_ofAction (result : ActionResult) :
    (ofAction result).actionResult? = some result := by
  unfold ofAction
  split <;> rfl

namespace Engine

variable {e : Event} {r : Rule} {rules : List Rule} {outcomes : List RuleOutcome}
  {g g' : Engine} {h k : Host}
  {result : RuleResult}

def places (g : Engine) : List (Option FilePath) :=
  [g.executor.cursors.path, g.edges.path, g.ledger.path]

theorem cursors_mem_places (g : Engine) : [g.executor.cursors.path] ⊆ g.places := by simp [places]

theorem stores_mem_places (g : Engine) :
    [g.edges.path, g.ledger.path] ⊆ g.places := by simp [places]

/-- Notes in the log leave a host that takes the cursors of an engine. -/
theorem takes_cursors (takes : h.Takes g.places) (noted : h.Relogged k) :
    k.Takes [g.executor.cursors.path] :=
  (takes.relogged noted).mono g.cursors_mem_places

/-- What a rule comes to if it does not get as far as its action. -/
def halt (g : Engine) (r : Rule) (e : Event) : Option RuleResult :=
  if (g.sighting r e).exhausted then some (.error Fault.nothingToEvict.message)
  else if !(g.sighting r e).fired then some .notFired
  else
    match r.verdict g.catalog e.lead with
    | .error fault => some (.error fault.message)
    | .ok false => some .conditionsNotMet
    | .ok true => if g.ledger.isProcessed (deliveryKey r e) then some .duplicate else none

/-- A turn by how far it gets. -/
inductive Stage (e : Event) (r : Rule) (g : Engine) (h : Host) : RuleResult → Engine → Host → Prop
  | halted {result : RuleResult} {k : Host} (halt : g.halt r e = some result)
      (noted : h.Relogged k) :
      Stage e r g h result (g.seeing r e) k
  | faulty {fault : Fault} {x : Executor} {h₁ h₂ k : Host} (clear : g.halt r e = none)
      (before : h.Relogged h₁)
      (executed : Executor.execute r.action e.lead (.text r.id) (g.executor, h₁) = (.error fault, (x, h₂)))
      (noted : h₂.Relogged k) :
      Stage e r g h (.error fault.message) { g.seeing r e with executor := x } k
  | acted {result : ActionResult} {x : Executor} {h₁ h₂ k : Host} (clear : g.halt r e = none)
      (before : h.Relogged h₁)
      (executed : Executor.execute r.action e.lead (.text r.id) (g.executor, h₁) = (.ok result, (x, h₂)))
      (noted : h₂.Relogged k) :
      Stage e r g h
        (if g.ledger.maxEntries < 0 then .error Fault.nothingToEvict.message else .ofAction result)
        { g.seeing r e with executor := x, ledger := g.ledger.record (deliveryKey r e) h₂.now } k

theorem Cleared.halt_eq_none (cleared : g.Cleared r e)
    (new : g.ledger.isProcessed (deliveryKey r e) = false) :
    g.halt r e = none := by
  simp [halt, cleared.room, cleared.fired, cleared.met, new]

theorem Turn.stage (turn : Turn e r g h result g' k) : Stage e r g h result g' k := by
  cases turn with
  | exhausted full noted => exact .halted (by simp [halt, full]) noted
  | quiet room still noted => exact .halted (by simp [halt, room, still]) noted
  | unclear room fired unmet noted => exact .halted (by simp [halt, room, fired, unmet]) noted
  | unmet room fired unmet noted => exact .halted (by simp [halt, room, fired, unmet]) noted
  | repeated cleared known noted =>
    exact .halted (by simp [halt, cleared.room, cleared.fired, cleared.met, known]) noted
  | broken cleared new before executed noted =>
    exact .faulty (cleared.halt_eq_none new) before executed noted
  | unrecorded cleared new before executed full noted =>
    have stage := Stage.acted (cleared.halt_eq_none new) before executed noted
    rwa [if_pos full] at stage
  | acted cleared new before executed room noted =>
    have stage := Stage.acted (cleared.halt_eq_none new) before executed noted
    rwa [if_neg (Int.not_lt.2 room)] at stage

/-- A rule that ends without an error or an action has halted before its action. -/
theorem Stage.halt_of_idle (stage : Stage e r g h result g' k)
    (idle : result = .notFired ∨ result = .conditionsNotMet ∨ result = .duplicate) :
    g.halt r e = some result ∧ g'.executor = g.executor := by
  cases stage with
  | halted halt noted => exact ⟨halt, rfl⟩
  | faulty => rcases idle with idle | idle | idle <;> cases idle
  | acted =>
    simp only [RuleResult.ofAction] at idle
    split at idle
    · rcases idle with idle | idle | idle <;> cases idle
    · split at idle
      · rcases idle with idle | idle | idle <;> cases idle
      · rcases idle with idle | idle | idle <;> cases idle

/-- What events leave of an engine as it is, and where they lead the host. -/
structure Frame (g : Engine) (h : Host) (g' : Engine) (k : Host) : Prop where
  rules : g'.rules = g.rules
  catalog : g'.catalog = g.catalog
  directory : g'.executor.directory = g.executor.directory
  edgesMax : g'.edges.maxEntries = g.edges.maxEntries
  ledgerMax : g'.ledger.maxEntries = g.ledger.maxEntries
  places : g'.places = g.places
  host : h.Leads g.places k

namespace Frame

theorem relogged (g : Engine) (noted : h.Relogged k) : Frame g h g k :=
  ⟨rfl, rfl, rfl, rfl, rfl, rfl, .relogged noted⟩

theorem trans {g₁ g₂ g₃ : Engine} {h₁ h₂ h₃ : Host} (first : Frame g₁ h₁ g₂ h₂)
    (second : Frame g₂ h₂ g₃ h₃) :
    Frame g₁ h₁ g₃ h₃ where
  rules := second.rules.trans first.rules
  catalog := second.catalog.trans first.catalog
  directory := second.directory.trans first.directory
  edgesMax := second.edgesMax.trans first.edgesMax
  ledgerMax := second.ledgerMax.trans first.ledgerMax
  places := second.places.trans first.places
  host := first.host.trans (first.places ▸ second.host)

theorem takes (frame : Frame g h g' k) (takes : h.Takes g.places) : k.Takes g'.places :=
  frame.places ▸ takes.leads frame.host

end Frame

theorem sighting_maxEntries (g : Engine) (r : Rule) (e : Event) :
    (g.sighting r e).store.maxEntries = g.edges.maxEntries := by
  simp only [sighting, EdgeStore.transition]
  split <;> rfl

theorem places_seeing (g : Engine) (r : Rule) (e : Event) : (g.seeing r e).places = g.places := by
  simp only [places, seeing, sighting_path]

theorem Stage.frame (stage : Stage e r g h result g' k) (takes : h.Takes g.places) :
    Frame g h g' k := by
  have executed {x : Executor} {h₁ h₂ : Host} {answer : Except Fault ActionResult}
    (before : h.Relogged h₁)
      (executed : Executor.execute r.action e.lead (.text r.id) (g.executor, h₁) = (answer, (x, h₂)))
      (noted : h₂.Relogged k) :
      x.directory = g.executor.directory ∧ x.cursors.path = g.executor.cursors.path ∧
      h.Leads g.places k := by
    have leaves := Executor.execute_leaves (takes_cursors takes before) executed
    have moved : (g.executor.cursorsAfter r.action).path = g.executor.cursors.path := by
      unfold Executor.cursorsAfter
      split <;> rfl
    refine ⟨leaves.directory, leaves.cursors ▸ moved, ?_⟩
    exact (Host.Leads.relogged before).trans
      ((leaves.leads.mono g.cursors_mem_places).trans (.relogged noted))
  cases stage with
  | halted halt noted =>
    exact ⟨rfl, rfl, rfl, sighting_maxEntries g r e, rfl, places_seeing g r e, .relogged noted⟩
  | faulty clear before execution noted =>
    obtain ⟨directory, path, leads⟩ := executed before execution noted
    refine ⟨rfl, rfl, directory, sighting_maxEntries g r e, rfl, ?_, leads⟩
    simp only [places, seeing, sighting_path, path]
  | acted clear before execution noted =>
    obtain ⟨directory, path, leads⟩ := executed before execution noted
    refine ⟨rfl, rfl, directory, sighting_maxEntries g r e, rfl, ?_, leads⟩
    simp only [places, seeing, sighting_path, path, Ledger.record]

theorem Turns.along (turns : Turns e rules g h outcomes g' k) (takes : h.Takes g.places) :
    Frame g h g' k := by
  induction turns with
  | nil => exact .relogged _ (.refl _)
  | cons run first later ih =>
    have frame := first.stage.frame takes
    exact frame.trans (ih (frame.takes takes))

theorem Flushed.frame (flushed : Flushed g g') (leads : h.Leads [g.edges.path, g.ledger.path] k) :
    Frame g h g' k where
  rules := flushed.rules
  catalog := flushed.catalog
  directory := by rw [flushed.executor]
  edgesMax := by rw [flushed.edges]
  ledgerMax := by rw [flushed.ledger]
  places := by
    have edges : g'.edges.path = g.edges.path := by rw [flushed.edges]
    have ledger : g'.ledger.path = g.ledger.path := by rw [flushed.ledger]
    simp only [places, flushed.executor, edges, ledger]
  host := leads.mono g.stores_mem_places

/-- Writing the stores fails nowhere on a disk that takes what is saved. -/
theorem flush_run (takes : h.Takes [g.edges.path, g.ledger.path]) :
    ∃ g' k, flush (g, h) = (.ok (), (g', k)) ∧ h.Leads [g.edges.path, g.ledger.path] k := by
  obtain ⟨edges, h₁, first, leads⟩ :=
    Op.flush_taken (takes.mono (by simp)) (EdgeStore.flush_run g.edges h)
  have leads : h.Leads [g.edges.path, g.ledger.path] h₁ := leads.mono (by simp)
  obtain ⟨ledger, h₂, second, leads'⟩ :=
    Op.flush_taken ((takes.leads leads).mono (by simp)) (Ledger.flush_run g.ledger h₁)
  have first : onEdges EdgeStore.flush (g, h) = (.ok (), ({ g with edges }, h₁)) := by
    rw [onEdges, Op.run_onPart, first]
  have second :
      onLedger Ledger.flush ({ g with edges }, h₁) = (.ok (), ({ g with edges, ledger }, h₂)) := by
    rw [onLedger, Op.run_onPart, second]
  refine ⟨{ g with edges, ledger }, h₂, ?_, leads.trans (leads'.mono (by simp))⟩
  simp only [flush, Op.run_bind, Op.run_store, flushStore_ok first, flushStore_ok second]

/-- An event whose rules cannot be ordered changes nothing. -/
theorem onEvent_unordered {fault : Fault}
    (refused : g.rules.rulesFor e.kind.trigger = .error fault) (h : Host) :
    onEvent e (g, h) = (.error fault, (g, h)) := by
  simp only [onEvent, Op.run_bind, Op.run_store, Op.run_ofExcept, refused]

/-- An event whose rules can be ordered is answered: they take their turns, and the stores are
written. -/
theorem onEvent_passage (takes : h.Takes g.places)
    (chosen : g.rules.rulesFor e.kind.trigger = .ok rules) :
    ∃ outcomes g₁ h₁ g' k, onEvent e (g, h) = (.ok ⟨e.id, e.lead.id, e.kind, outcomes⟩, (g', k)) ∧
      Turns e rules g h outcomes g₁ h₁ ∧ Flushed g₁ g' ∧
        h₁.Leads [g₁.edges.path, g₁.ledger.path] k := by
  obtain ⟨x, g', k, run, delivery⟩ := onEvent_delivery e g h
  have taken {rules outcomes g₁ h₁} (turns : Turns e rules g h outcomes g₁ h₁) :=
    flush_run (((turns.along takes).takes takes).mono g₁.stores_mem_places)
  cases delivery with
  | unordered refused => rw [chosen] at refused; cases refused
  | idle chosen' noted =>
    cases Except.ok.inj (chosen.symm.trans chosen')
    exact ⟨[], g, h, g, k, run, .nil, .refl g, .relogged noted⟩
  | unsaved chosen' some turns flushed =>
    obtain ⟨_, _, done, -⟩ := taken turns
    rw [flushed] at done
    cases done
  | taken chosen' some turns flushed noted =>
    cases Except.ok.inj (chosen.symm.trans chosen')
    obtain ⟨_, _, done, leads⟩ := taken turns
    cases flushed.symm.trans done
    exact ⟨_, _, _, g', k, run, turns, flushed_of_flush flushed, leads.trans (.relogged noted)⟩

end Engine
end LeadRules
