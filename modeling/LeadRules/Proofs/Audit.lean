import LeadRules.Proofs.Passage
import LeadRules.Proofs.Records
import LeadRules.Proofs.Selection

/-! Outcomes as accounts of effects. What the handlers recorded, what went on the ledger
and how the cursors moved can all be told from the outcomes of the events, turn by turn
and over a whole run. -/
namespace LeadRules

def Effect.assignment? : Effect → Option (Text × Text)
  | reassign user (some team) => some (team, user)
  | _ => none

def ActionResult.assignment? (r : ActionResult) : Option (Text × Text) :=
  if r.action = .assignRoundRobin then r.outcome.request?.bind (·.effect.assignment?) else none

def ActionResult.rotated? (r : ActionResult) : Option Text := r.assignment?.map (·.1)

def ActionResult.granted? (r : ActionResult) : Option Request :=
  match r.outcome with
  | .done request => some request
  | _ => none

namespace RuleResult

/-- The team and the member of the round robin that an outcome carries a request
from, delivered or not. -/
def assignment? (r : RuleResult) : Option (Text × Text) := r.actionResult?.bind (·.assignment?)

def rotated? (r : RuleResult) : Option Text := r.assignment?.map (·.1)

def acted (r : RuleResult) : Bool := r.status = .executed || r.status = .actionFailed

/-- Without an action there is no request either. -/
theorem quiet {r : RuleResult} (none : r.actionResult? = none) :
    r.acted = false ∧ r.request? = .none ∧ r.assignment? = .none := by
  cases r with
  | executed => cases none
  | actionFailed => cases none
  | _ => exact ⟨rfl, rfl, rfl⟩

theorem ofAction_acted (result : ActionResult) : (ofAction result).acted = true ∧
    (ofAction result).request? = result.granted? ∧
    (ofAction result).assignment? = result.assignment? ∧
    (ofAction result).status ≠ .duplicate := by
  unfold ofAction ActionResult.ok ActionResult.granted?
  cases outcome : result.outcome <;>
    simp [ActionOutcome.failure?, acted, status, request?, outcome, ActionOutcome.request?,
      assignment?, actionResult?]

end RuleResult

def EventOutcome.rotations (o : EventOutcome) : List Text := o.rules.filterMap (·.result.rotated?)

namespace Handler

/-- The requests that a handler recorded, oldest first. -/
def recorded : Option Handler → List Request
  | some (.recorder s) => s.requests
  | _ => []

def taken (r : Request) : Except Fault Unit → List Request
  | .ok _ => [r]
  | .error _ => []

theorem handle_recorder (s : Recorder) (r : Request) (h : Host) : ∃ answer t,
    handle r (.recorder s, h) = (answer, (.recorder t, h)) ∧
      t.requests = s.requests ++ taken r answer := by
  have run : handle r (.recorder s, h) = ((s.take r).1, (.recorder (s.take r).2, h)) := by
    simp only [handle, Op.run_bind, Op.run_store, Op.run_setStore, Op.run_ofExcept]
  refine ⟨_, _, run, ?_⟩
  unfold Recorder.take
  cases (s.refusal r).or (s.lapse s.offered r) with
  | some fault => simp [taken]
  | none => simp [taken]

end Handler

namespace Executor

variable {a : Action} {lead : Lead} {x y z : Executor} {h k : Host} {r : Request}
  {sent later : List Request}

/-- An executor whose requests are all recorded or refused, by one handler or two. -/
structure Recording (x : Executor) : Prop where
  handler : ∃ s, x.handler = some (.recorder s)
  webhookHandler : x.webhookHandler = none ∨ ∃ s, x.webhookHandler = some (.recorder s)

def posts (x : Executor) (r : Request) : Bool :=
  r.kind = .webhookDispatch && x.webhookHandler.isSome

structure Recorded (x : Executor) (sent : List Request) (y : Executor) : Prop where
  recording : y.Recording
  route : y.posts = x.posts
  common : Handler.recorded y.handler = Handler.recorded x.handler ++ sent.filter (!x.posts ·)
  webhooks :
    Handler.recorded y.webhookHandler = Handler.recorded x.webhookHandler ++ sent.filter x.posts

theorem Recording.refl (recording : x.Recording) : Recorded x [] x :=
  ⟨recording, rfl, by simp, by simp⟩

/-- What is recorded does not depend on anything but the handlers. -/
theorem Recorded.of_handlers {v w : Executor} (recorded : Recorded x sent y)
    (handler : v.handler = x.handler)
    (webhookHandler : v.webhookHandler = x.webhookHandler) (handler' : w.handler = y.handler)
    (webhookHandler' : w.webhookHandler = y.webhookHandler) : Recorded v sent w where
  recording :=
    ⟨handler' ▸ recorded.recording.handler, webhookHandler' ▸ recorded.recording.webhookHandler⟩
  route := by
    have route := recorded.route
    unfold posts at route ⊢
    rw [webhookHandler, webhookHandler', route]
  common := by
    have common := recorded.common
    unfold posts at common ⊢
    rw [handler, handler', webhookHandler, common]
  webhooks := by
    have webhooks := recorded.webhooks
    unfold posts at webhooks ⊢
    rw [webhookHandler, webhookHandler', webhooks]

theorem Recorded.trans (first : Recorded x sent y) (second : Recorded y later z) :
    Recorded x (sent ++ later) z where
  recording := second.recording
  route := second.route.trans first.route
  common := by rw [second.common, first.common, first.route, List.filter_append, List.append_assoc]
  webhooks := by
    rw [second.webhooks, first.webhooks, first.route, List.filter_append, List.append_assoc]

theorem Emission.recorded {answer : Except Fault Unit} (emission : Emission r x h answer y k)
    (recording : x.Recording) : Recorded x (Handler.taken r answer) y := by
  cases emission with
  | posted webhook own handled =>
    rcases recording.webhookHandler with none | ⟨s, recorder⟩
    · rw [own] at none
      cases none
    · cases own.symm.trans recorder
      obtain ⟨answer', t, run, requests⟩ := Handler.handle_recorder s r h
      cases run.symm.trans handled
      refine ⟨⟨recording.handler, .inr ⟨t, rfl⟩⟩, ?_, ?_, ?_⟩
      · funext other
        simp [posts, own]
      · cases answer <;> simp [Handler.taken, posts, own, webhook]
      · rw [own]
        refine requests.trans (congrArg _ ?_)
        cases answer <;> simp [Handler.taken, posts, own, webhook]
  | handed other common handled =>
    obtain ⟨s, recorder⟩ := recording.handler
    cases common.symm.trans recorder
    obtain ⟨answer', t, run, requests⟩ := Handler.handle_recorder s r h
    cases run.symm.trans handled
    have apart : x.posts r = false := by
      unfold posts
      by_cases webhook : r.kind = .webhookDispatch
      · simp [other webhook]
      · simp [webhook]
    refine ⟨⟨⟨t, rfl⟩, recording.webhookHandler⟩, rfl, ?_, ?_⟩
    · rw [common]
      refine requests.trans (congrArg _ ?_)
      cases answer <;> simp [Handler.taken, apart]
    · cases answer <;> simp [Handler.taken, apart]
  | dropped other none noted =>
    obtain ⟨s, recorder⟩ := recording.handler
    rw [none] at recorder
    cases recorder

def sentBy : Except Fault ActionOutcome → List Request
  | .ok (.done request) => [request]
  | _ => []

theorem Performance.recorded {result : Except Fault ActionOutcome}
    (performance : Performance a lead x h result y k)
    (takes : h.Takes [x.cursors.path]) (recording : x.Recording) :
    Recorded x (sentBy result) y := by
  obtain ⟨found, k', run, -⟩ := resolve_run takes lead a
  have moved : Recording { x with cursors := x.cursorsAfter a } :=
    ⟨recording.handler, recording.webhookHandler⟩
  cases performance with
  | faulty asked =>
    cases run.symm.trans asked
    exact recording.refl.of_handlers rfl rfl rfl rfl
  | unresolved asked noted =>
    cases run.symm.trans asked
    exact recording.refl.of_handlers rfl rfl rfl rfl
  | done asked emitted =>
    cases run.symm.trans asked
    exact (emitted.recorded moved).of_handlers rfl rfl rfl rfl
  | refused asked emitted noted =>
    cases run.symm.trans asked
    exact (emitted.recorded moved).of_handlers rfl rfl rfl rfl

/-- An action whose faults are not those of a file has moved nothing when it fails. -/
theorem Performance.faulty_still {fault : Fault}
    (performance : Performance a lead x h (.error fault) y k)
    (takes : h.Takes [x.cursors.path]) : y = x ∧ rotated x.directory a = none := by
  cases performance with
  | faulty asked =>
    cases rotates : rotated x.directory a with
    | none =>
      obtain ⟨result, run⟩ := resolve_still rotates lead h.now
      cases (run x rfl h rfl).symm.trans asked
      exact ⟨rfl, rfl⟩
    | some team =>
      obtain ⟨k, saved⟩ :=
        takes.save (List.mem_singleton_self _) (x.cursors.advance x.directory team).toWire
      obtain ⟨l, noted, run⟩ := resolve_rotated rotates lead saved
      cases run.symm.trans asked

/-- An outcome carries a request from a round robin just when the cursor of a team
moved, to the member there. -/
theorem Performance.assignment?_eq {outcome : ActionOutcome}
    (performance : Performance a lead x h (.ok outcome) y k)
    (takes : h.Takes [x.cursors.path]) (rule : Value) (time : DateTime) :
    (ActionResult.mk a.kind lead.id rule time outcome).assignment? =
      (rotated x.directory a).map fun team => (team, x.cursors.upcoming x.directory team) := by
  cases rotates : rotated x.directory a with
  | some team =>
    obtain ⟨k, saved⟩ :=
      takes.save (List.mem_singleton_self _) (x.cursors.advance x.directory team).toWire
    obtain ⟨l, noted, run⟩ := resolve_rotated rotates lead saved
    obtain ⟨rfl, -⟩ := rotated_eq_some rotates
    cases performance with
    | unresolved asked noted => cases run.symm.trans asked
    | done asked emitted =>
      cases run.symm.trans asked
      rfl
    | refused asked emitted noted =>
      cases run.symm.trans asked
      rfl
  | none =>
    cases a with
    | assignRoundRobin team =>
      obtain ⟨failure, run⟩ := nextOfTeam_empty (rotated_eq_none rotates)
      have run : resolve lead (.assignRoundRobin team) (x, h) = (.ok (.error failure), (x, h)) :=
        run x rfl h
      cases performance with
      | unresolved asked noted => rfl
      | done asked emitted => cases run.symm.trans asked
      | refused asked emitted noted => cases run.symm.trans asked
    | _ => rfl

theorem execute_assignment? {rule : Value} {result : ActionResult}
    (takes : h.Takes [x.cursors.path])
    (executed : execute a lead rule (x, h) = (.ok result, (y, k))) : result.assignment? =
      (rotated x.directory a).map fun team => (team, x.cursors.upcoming x.directory team) := by
  obtain ⟨found, x', h', run, performance⟩ := perform_run a lead x h
  rw [execute_run, run] at executed
  cases found with
  | error fault => cases executed
  | ok outcome =>
    cases executed
    exact performance.assignment?_eq takes ..

structure Told (result : ActionResult) (x y : Executor) : Prop where
  recorded : Recorded x result.granted?.toList y
  cursors : y.cursors = match result.rotated? with
    | some team => x.cursors.advance x.directory team
    | none => x.cursors

theorem execute_told {rule : Value} {result : ActionResult} (takes : h.Takes [x.cursors.path])
    (recording : x.Recording) (executed : execute a lead rule (x, h) = (.ok result, (y, k))) :
    Told result x y := by
  have leaves := execute_leaves takes executed
  have assigned := execute_assignment? takes executed
  obtain ⟨found, x', h', run, performance⟩ := perform_run a lead x h
  rw [execute_run, run] at executed
  cases found with
  | error fault => cases executed
  | ok outcome =>
    cases executed
    refine ⟨?_, ?_⟩
    · have recorded :
          Recorded x (sentBy (.ok outcome)) (x'.remember ⟨a.kind, lead.id, rule, k.now, outcome⟩) :=
        (performance.recorded takes recording).of_handlers rfl rfl rfl rfl
      cases outcome <;> exact recorded
    · rw [leaves.cursors, ActionResult.rotated?, assigned, cursorsAfter]
      cases rotated x.directory a <;> rfl

theorem execute_faulty {rule : Value} {fault : Fault} (takes : h.Takes [x.cursors.path])
    (executed : execute a lead rule (x, h) = (.error fault, (y, k))) :
    y = x ∧ rotated x.directory a = none := by
  obtain ⟨found, x', h', run, performance⟩ := perform_run a lead x h
  rw [execute_run, run] at executed
  cases found with
  | error fault =>
    cases executed
    exact performance.faulty_still takes
  | ok outcome => cases executed

end Executor

namespace Engine

open Executor (Recorded Recording)

variable {e : Event} {r : Rule} {rules : List Rule} {outcomes : List RuleOutcome}
  {g₀ g g' : Engine} {h k : Host}
  {result : RuleResult} {os : List EventOutcome}

/-- What the outcome of a turn tells of the engine before it and after it. -/
structure Audit (r : Rule) (e : Event) (g : Engine) (h : Host) (result : RuleResult)
    (g' : Engine) : Prop where
  duplicate : result.status = .duplicate ↔ (g.sighting r e).fired = true ∧
    r.verdict g.catalog e.lead = .ok true ∧
    (deliveryKey r e).identity ∈ g.ledger.keys
  fresh : result.acted = true → (deliveryKey r e).identity ∉ g.ledger.keys
  ledger : g'.ledger = if result.acted then g.ledger.record (deliveryKey r e) h.now else g.ledger
  listed : 0 < g.ledger.maxEntries → (((deliveryKey r e).identity ∉ g.ledger.keys ∧
    (deliveryKey r e).identity ∈ g'.ledger.keys) ↔ result.acted = true)
  recorded : Recorded g.executor result.request?.toList g'.executor
  cursors : g'.executor.cursors = match result.rotated? with
    | some team => g.executor.cursors.advance g.executor.directory team
    | none => g.executor.cursors
  idle : result.acted = false → result.request? = none ∧ result.rotated? = none ∧
    g'.executor = g.executor

theorem halt_actionResult? (halted : g.halt r e = some result) : result.actionResult? = none := by
  unfold halt at halted
  split at halted
  · cases halted; rfl
  · split at halted
    · cases halted; rfl
    · split at halted
      · cases halted; rfl
      · cases halted; rfl
      · split at halted
        · cases halted; rfl
        · cases halted

theorem halt_duplicate (room : (g.sighting r e).exhausted = false)
    (halted : g.halt r e = some result) :
    result.status = .duplicate ↔ (g.sighting r e).fired = true ∧
      r.verdict g.catalog e.lead = .ok true ∧
      (deliveryKey r e).identity ∈ g.ledger.keys := by
  rw [← Ledger.isProcessed_iff]
  simp only [halt, room, Bool.false_eq_true, if_false] at halted
  cases fired : (g.sighting r e).fired with
  | false =>
    simp only [fired] at halted
    cases halted
    simp [RuleResult.status]
  | true =>
    rcases met : r.verdict g.catalog e.lead with fault | _ | _
    · simp only [fired, met] at halted
      cases halted
      simp [RuleResult.status]
    · simp only [fired, met] at halted
      cases halted
      simp [RuleResult.status]
    · simp only [fired, met] at halted
      cases known : g.ledger.isProcessed (deliveryKey r e) with
      | false => simp [known] at halted
      | true =>
        simp only [known] at halted
        cases halted
        simp [RuleResult.status]

/-- A rule that does not halt was cleared, and its delivery is not on record. -/
theorem cleared_of_halt (clear : g.halt r e = none) :
    g.Cleared r e ∧ (deliveryKey r e).identity ∉ g.ledger.keys := by
  rw [← Ledger.isProcessed_false]
  unfold halt at clear
  split at clear
  next => cases clear
  next room =>
    split at clear
    next => cases clear
    next fired =>
      split at clear
      next => cases clear
      next => cases clear
      next met =>
        split at clear
        next => cases clear
        next new => exact ⟨⟨by simpa using room, by simpa using fired, met⟩, by simpa using new⟩

theorem room_of_bound (bound : 0 ≤ g.edges.maxEntries) (r : Rule) (e : Event) :
    (g.sighting r e).exhausted = false := by
  simp only [sighting, EdgeStore.transition]
  split
  · simpa [EdgeStore.remember] using bound
  · rfl

/-- A turn without an action leaves its executor and its ledger, and tells of neither. -/
theorem Audit.of_quiet (quiet : result.actionResult? = none) (recording : g.executor.Recording)
    (executor : g'.executor = g.executor) (ledger : g'.ledger = g.ledger)
    (duplicate : result.status = .duplicate ↔ (g.sighting r e).fired = true ∧
      r.verdict g.catalog e.lead = .ok true ∧ (deliveryKey r e).identity ∈ g.ledger.keys) :
    Audit r e g h result g' := by
  obtain ⟨idle, request, assigned⟩ := RuleResult.quiet quiet
  have rotated : result.rotated? = none := by rw [RuleResult.rotated?, assigned]; rfl
  refine ⟨duplicate, fun acted => ?_, ?_, fun _ => ?_, ?_, ?_, fun _ => ⟨request, rotated, executor⟩⟩
  · rw [idle] at acted
    cases acted
  · rw [idle]
    exact ledger
  · rw [idle, ledger]
    simp
  · rw [request, executor]
    exact recording.refl
  · rw [rotated, executor]

theorem Stage.audit (stage : Stage e r g h result g' k) (takes : h.Takes g.places)
    (recording : g.executor.Recording) (room : 0 ≤ g.edges.maxEntries)
    (bound : 0 ≤ g.ledger.maxEntries) :
    Audit r e g h result g' := by
  cases stage with
  | halted halted noted =>
    exact .of_quiet (halt_actionResult? halted) recording rfl rfl
      (halt_duplicate (room_of_bound room r e) halted)
  | faulty clear before executed noted =>
    obtain ⟨cleared, new⟩ := cleared_of_halt clear
    refine .of_quiet rfl recording ?_ rfl ?_
    · exact (Executor.execute_faulty (takes_cursors takes before) executed).1
    · simp [RuleResult.status, new]
  | acted clear before executed noted =>
    rename_i result x h₁ h₂
    have takes := takes_cursors takes before
    obtain ⟨cleared, new⟩ := cleared_of_halt clear
    have told := Executor.execute_told takes recording executed
    have now : h₂.now = h.now :=
      ((Executor.execute_leaves takes executed).host.now).trans before.now
    rw [if_neg (Int.not_lt.2 bound)]
    obtain ⟨acted, request, assigned, other⟩ := RuleResult.ofAction_acted result
    refine ⟨?_, fun _ => new, ?_, fun positive => ?_, ?_, ?_, fun idle => ?_⟩
    · exact ⟨fun same => absurd same other, fun known => absurd known.2.2 new⟩
    · rw [acted, now]
      rfl
    · exact ⟨fun _ => acted,
        fun _ => ⟨new, Ledger.mem_keys_record ((Ledger.isProcessed_false ..).2 new) positive _⟩⟩
    · rw [request]
      exact told.recorded
    · rw [RuleResult.rotated?, assigned]
      exact told.cursors
    · rw [acted] at idle
      cases idle

structure Accounted (g : Engine) (sent : List Request) (turned : List Text)
    (g' : Engine) : Prop where
  recorded : Recorded g.executor sent g'.executor
  directory : g'.executor.directory = g.executor.directory
  cursors : g'.executor.cursors =
    turned.foldl (fun s team => s.advance g.executor.directory team) g.executor.cursors

namespace Accounted

variable {g₁ g₂ g₃ : Engine} {sent later : List Request} {turned afterwards : List Text}

theorem refl (recording : g.executor.Recording) : Accounted g [] [] g := ⟨recording.refl, rfl, rfl⟩

theorem trans (first : Accounted g₁ sent turned g₂) (second : Accounted g₂ later afterwards g₃) :
    Accounted g₁ (sent ++ later) (turned ++ afterwards) g₃ where
  recorded := first.recorded.trans second.recorded
  directory := second.directory.trans first.directory
  cursors := by rw [second.cursors, first.cursors, first.directory, List.foldl_append]

theorem flushed (accounted : Accounted g₁ sent turned g₂) (flushed : Flushed g₂ g₃) :
    Accounted g₁ sent turned g₃ := by
  have executor := flushed.executor
  exact ⟨executor ▸ accounted.recorded, executor ▸ accounted.directory, executor ▸ accounted.cursors⟩

end Accounted

theorem Audit.accounted (audit : Audit r e g h result g') (frame : Frame g h g' k) :
    Accounted g result.request?.toList result.rotated?.toList g' := by
  refine ⟨audit.recorded, frame.directory, ?_⟩
  rw [audit.cursors]
  cases result.rotated? <;> rfl

theorem Turns.accounted (turns : Turns e rules g h outcomes g' k) (takes : h.Takes g.places)
    (recording : g.executor.Recording) (room : 0 ≤ g.edges.maxEntries)
    (bound : 0 ≤ g.ledger.maxEntries) :
    Accounted g (outcomes.filterMap (·.result.request?))
      (outcomes.filterMap (·.result.rotated?)) g' := by
  induction turns with
  | nil => exact .refl recording
  | @cons r rest g g₁ g₂ h h₁ h₂ result outcomes run first later ih =>
    have frame := first.stage.frame takes
    have audit := first.stage.audit takes recording room bound
    have rest := ih (frame.takes takes) audit.recorded.recording (frame.edgesMax ▸ room)
      (frame.ledgerMax ▸ bound)
    have whole := (audit.accounted frame).trans rest
    cases request : result.request? <;> cases rotated : result.rotated? <;>
      simpa [request, rotated] using whole

/-- Events one after the other, each on any host whose disk takes what is saved, with their
answers. -/
inductive Passed (g₀ : Engine) : List EventOutcome → Engine → Prop
  | start : Passed g₀ [] g₀
  | event {os : List EventOutcome} {g : Engine} (passed : Passed g₀ os g) (e : Event) (h : Host)
      (takes : h.Takes g.places) :
      Passed g₀ (os ++ (onEvent e (g, h)).1.toOption.toList) (onEvent e (g, h)).2.1

/-- What an engine that events passed through has kept, and what their outcomes tell of it. -/
structure Ledgered (g₀ : Engine) (os : List EventOutcome) (g : Engine) : Prop where
  rules : g.rules = g₀.rules
  room : 0 ≤ g.edges.maxEntries
  bound : 0 ≤ g.ledger.maxEntries
  accounted : Accounted g₀ (os.flatMap (·.requests)) (os.flatMap (·.rotations)) g

theorem Passed.ledgered (passed : Passed g₀ os g) (recording : g₀.executor.Recording)
    (room : 0 ≤ g₀.edges.maxEntries) (bound : 0 ≤ g₀.ledger.maxEntries) : Ledgered g₀ os g := by
  induction passed with
  | start => exact ⟨rfl, room, bound, .refl recording⟩
  | @event os g passed e h takes ih =>
    cases chosen : g.rules.rulesFor e.kind.trigger with
    | error fault =>
      rw [onEvent_unordered chosen]
      simpa [Except.toOption] using ih
    | ok rules =>
      obtain ⟨outcomes, g₁, h₁, g', k, run, turns, flushed, leads⟩ := onEvent_passage takes chosen
      have frame := (turns.along takes).trans (flushed.frame leads)
      have accounted :=
        (turns.accounted takes ih.accounted.recorded.recording ih.room ih.bound).flushed flushed
      rw [run]
      refine ⟨frame.rules.trans ih.rules, frame.edgesMax ▸ ih.room, frame.ledgerMax ▸ ih.bound, ?_⟩
      simpa [Except.toOption, EventOutcome.requests, EventOutcome.rotations]
        using ih.accounted.trans accounted

/-- The outcomes of a run account exactly for its effects: the handlers recorded the requests of
the outcomes, in their order; the cursor of a team moved once for each outcome of its round robin
that carries a request; and each turn, wherever in the run, put on the ledger and left undone just
what its status says. -/
theorem outcomes_account (passed : Passed g₀ os g) (recording : g₀.executor.Recording)
    (room : 0 ≤ g₀.edges.maxEntries) (bound : 0 ≤ g₀.ledger.maxEntries) :
    Accounted g₀ (os.flatMap (·.requests)) (os.flatMap (·.rotations)) g ∧
    ∀ (e : Event) (h : Host) (rules rest : List Rule) (r : Rule) (outcomes : List RuleOutcome)
      (g₁ : Engine) (h₁ : Host),
      h.Takes g.places → g.rules.rulesFor e.kind.trigger = .ok (rules ++ r :: rest) →
      outcomesOf e rules (g, h) = (.ok outcomes, (g₁, h₁)) →
      ∃ result g₂ h₂, outcomeOf e r (g₁, h₁) = (.ok ⟨r.id, r.name, result⟩, (g₂, h₂)) ∧
        Audit r e g₁ h₁ result g₂ := by
  have ledgered := passed.ledgered recording room bound
  refine ⟨ledgered.accounted, ?_⟩
  intro e h rules rest r outcomes g₁ h₁ takes chosen taken
  obtain ⟨_, _, _, run, turns⟩ := outcomesOf_turns e rules g h
  cases run.symm.trans taken
  have frame := turns.along takes
  have accounted :=
    turns.accounted takes ledgered.accounted.recorded.recording ledgered.room ledgered.bound
  obtain ⟨result, g₂, h₂, run, turn⟩ := outcomeOf_turn e r g₁ h₁
  exact ⟨result, g₂, h₂, run, turn.stage.audit (frame.takes takes) accounted.recorded.recording
    (frame.edgesMax ▸ ledgered.room) (frame.ledgerMax ▸ ledgered.bound)⟩

def rotating : Rule := { tagging with action := .assignRoundRobin "sales" }

def counter : Engine := { blank with
  rules := { rules := .ofList [("tag", rotating)] }
  executor := {
    directory := { teams := .ofList [("sales", ⟨"sales", .text "Sales", none, ["ann", "bob"]⟩)] }
    cursors := {}
    handler :=
      some (.recorder
        { lapse := fun offered _ => if offered.length = 1 then some .nothingToEvict else none }) } }

def completing (lead event : Text) (g : Engine) : Except Fault EventOutcome × Engine :=
  let (x, g', _) := onEvent { completion with id := event, lead := { id := lead } } (g, .still)
  (x, g')

theorem outcomes_account_counter : ∃ os g, Passed counter os g ∧ counter.executor.Recording ∧
    os.map (fun o => o.rules.map (·.result.status)) = [[.executed], [.duplicate], [.actionFailed]] ∧
    Handler.recorded g.executor.handler = os.flatMap (·.requests) ∧
    g.executor.cursors = ["sales", "sales"].foldl (·.advance counter.executor.directory ·) {} ∧
    ∃ result g₂ h₂, outcomeOf completion rotating (g, .still) =
      (.ok ⟨"tag", .text "tag", result⟩, (g₂, h₂)) ∧
      Audit rotating completion g .still result g₂ := by
  let g₁ := (completing "L1" "e1" counter).2
  let g₂ := (completing "L1" "e1" g₁).2
  let g₃ := (completing "L2" "e2" g₂).2
  have memory {g : Engine} (places : g.places = [none, none, none]) :
      Host.Takes g.places .still := by
    refine Host.takes_memory ?_ .still
    rw [places]
    simp
  let os :=
    [] ++ (completing "L1" "e1" counter).1.toOption.toList ++
    (completing "L1" "e1" g₁).1.toOption.toList ++
    (completing "L2" "e2" g₂).1.toOption.toList
  have passed : Passed counter os g₃ :=
    .event (.event (.event .start _ .still (memory rfl)) _ .still (memory (by decide +kernel))) _ .still
      (memory (by decide +kernel))
  have recording : counter.executor.Recording := ⟨⟨_, rfl⟩, .inl rfl⟩
  obtain ⟨accounted, audit⟩ := outcomes_account passed recording (by decide) (by decide)
  refine ⟨os, g₃, passed, recording, by decide +kernel, ?_, ?_, ?_⟩
  · have recorded := accounted.recorded.common
    simpa [Executor.posts, counter, Handler.recorded] using recorded
  · have turned : os.flatMap EventOutcome.rotations = ["sales", "sales"] := by decide +kernel
    rw [accounted.cursors, turned]
    rfl
  · have chosen : counter.rules.rulesFor .taskCompleted = .ok [rotating] :=
      Repository.rulesFor_sorted (by decide +kernel) (by decide) _
    have rules := (passed.ledgered recording (by decide) (by decide)).rules
    exact audit completion .still [] [] rotating [] g₃ .still (memory (by decide +kernel))
      (by rw [rules]; exact chosen) rfl

end Engine
end LeadRules
