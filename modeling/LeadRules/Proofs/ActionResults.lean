import LeadRules.Proofs.Errors
import LeadRules.Proofs.Saving
import LeadRules.Proofs.WellFormed

/-! What comes of executing an action. It returns a result, with a request or with a reason,
whatever a handler does. Only what comes before the request may stop it: a task that falls due
beyond the calendar, or the cursor of a round robin that cannot be saved. -/
namespace LeadRules

/-- A failure of files is none of a team. -/
theorem failsAs_files : FailsAs (fun fault => ∀ team, fault ≠ .emptyTeam team) (fun _ => True) :=
  .anyPath (fun _ => nofun) fun _ => nofun

theorem StateFile.save_raises (path : Option FilePath) (v : Value) :
    Op.Raises (fun fault => ∀ team, fault ≠ .emptyTeam team) (save path v) := by
  cases path with
  | none => exact .pure ()
  | some p =>
    refine failsAs_files.save trivial ?_ (fun _ _ => trivial) v
    unfold FilePath.temporary
    split
    · exact .ok _
    · exact .error nofun

/-- Every failure of an action has a message. -/
theorem ActionFailure.message_ne_empty (failure : ActionFailure) : failure.message ≠ "" := by
  cases failure with
  | notDispatched kind lead text => cases kind <;> nofun
  | _ => nofun

def ActionResult.Tells (r : ActionResult) : Prop :=
  (r.ok = true ∧ ∃ request, r.outcome = .done request) ∨
    (r.ok = false ∧ r.reason ≠ "" ∧ ∃ failure, r.outcome.failure? = some failure)

theorem ActionResult.tells (r : ActionResult) : r.Tells := by
  obtain ⟨action, lead, rule, time, outcome⟩ := r
  cases outcome with
  | done request => exact .inl ⟨rfl, request, rfl⟩
  | unresolved failure => exact .inr ⟨rfl, failure.message_ne_empty, failure, rfl⟩
  | refused request failure => exact .inr ⟨rfl, failure.message_ne_empty, failure, rfl⟩

namespace CursorStore

variable {d : Directory} {team : Text} {s : CursorStore} {h k : Host} {fault : Fault}

theorem next_refused (filled : d.members team ≠ [])
    (refused : StateFile.save s.path (s.advance d team).toWire h = (.error fault, k)) :
    next d team (s, h) = (.error fault, (s.advance d team, k)) := by
  have filled : (d.members team).isEmpty = false := List.isEmpty_eq_false_iff.2 filled
  unfold advance at refused
  simp only [next, filled, Bool.false_eq_true, if_false, Op.run_bind, Op.run_store, put,
    Op.run_setStore, Op.run_onHost, refused]
  rfl

end CursorStore

namespace Executor

variable {a : Action} {lead : Lead} {team : Text} {x y : Executor} {h k : Host} {fault : Fault}
  {days : Int} {v : Value}

def lateness (days : Int) : Overflow :=
  if 2147483647 < days then .days else if 999999999 < days then .dayMagnitude days else .date

/-- From today on, just the days beyond the calendar have no time. -/
theorem dueAt_error_iff (now : DateTime) (ahead : 0 ≤ days) :
    dueAt now days = .error fault ↔ (DateTime.limit : Int) ≤ now.micros + days * microsPerDay ∧
    fault = .overflow (lateness days) := by
  have limit : DateTime.limit = 315537897600000000 := by decide
  have day : microsPerDay = 86400000000 := rfl
  obtain ⟨range, long⟩ : (0 : Int) ≤ now.micros + days * microsPerDay ∧
      (999999999 < days → (DateTime.limit : Int) ≤ now.micros + days * microsPerDay) := by
    rw [day]
    omega
  unfold dueAt lateness
  generalize (days * microsPerDay : Int) = span at *
  by_cases far : 999999999 < days
  · by_cases more : 2147483647 < days
    · rw [if_pos (.inl more), if_pos more]
      simp [long far, eq_comm]
    · rw [if_neg (by omega), if_pos (.inl far), if_neg more, if_pos far]
      simp [long far, eq_comm]
  · rw [if_neg (by omega), if_neg (by omega), if_neg (by omega), if_neg far, DateTime.addMicros?,
      DateTime.ofMicros?]
    by_cases beyond : (DateTime.limit : Int) ≤ now.micros + span
    · rw [dif_neg fun within => Int.not_lt.2 beyond within.2]
      simp [beyond, eq_comm]
    · rw [dif_pos ⟨range, Int.not_le.1 beyond⟩]
      simp [beyond]

/-- What stops an action before there is a result: its task falls due beyond the calendar, or it
has its team's next member and the cursor cannot be saved. -/
inductive Stops (a : Action) (x : Executor) (h : Host) : Fault → Prop
  | overdue {title : Text} {days : Int} (task : a = .createTask title days)
      (beyond : (DateTime.limit : Int) ≤ h.now.micros + days * microsPerDay) :
      Stops a x h (.overflow (lateness days))
  | unsaved {team : Text} {fault : Fault} (turn : rotated x.directory a = some team)
      (refused : (StateFile.save x.cursors.path (x.cursors.advance x.directory team).toWire h).1 =
        .error fault) :
      Stops a x h fault

theorem nextOfTeam_refused (filled : x.directory.members team ≠ [])
    (refused : StateFile.save x.cursors.path (x.cursors.advance x.directory team).toWire h =
      (.error fault, k)) :
    nextOfTeam team (x, h) =
      (.error fault, ({ x with cursors := x.cursors.advance x.directory team }, k)) := by
  have run := CursorStore.next_refused filled refused
  have other : ∀ team, fault ≠ .emptyTeam team :=
    StateFile.save_raises x.cursors.path (x.cursors.advance x.directory team).toWire h fault
      (by rw [refused])
  cases fault with
  | emptyTeam team => exact absurd rfl (other team)
  | _ => simp [nextOfTeam, Op.run_bind, contains_of_members filled, onCursors, run]

/-- Where no cursor moves, only a task without a time to be due at cannot be asked for. -/
theorem resolve_still_error_iff (still : rotated x.directory a = none) (lead : Lead) (h : Host) :
    (resolve lead a (x, h)).1 = .error fault ↔ ∃ title days, a = .createTask title days ∧
    dueAt h.now days = .error fault := by
  cases a with
  | createTask title days =>
    have asked : (resolve lead (.createTask title days) (x, h)).1 =
        (dueAt h.now days).map fun due => .ok (.taskCreate title due) := by
      simp only [resolve, Op.run_bind, Op.run_get, Op.run_ofExcept]
      cases dueAt h.now days <;> rfl
    rw [asked]
    constructor
    · intro failed
      cases due : dueAt h.now days with
      | error fault' =>
        rw [due] at failed
        exact ⟨title, days, rfl, due.trans (congrArg _ (Except.error.inj failed))⟩
      | ok time =>
        rw [due] at failed
        cases failed
    · rintro ⟨title', days', ⟨⟩, failed⟩
      rw [failed]
      rfl
  | assignRoundRobin team =>
    obtain ⟨failure, run⟩ := nextOfTeam_empty (rotated_eq_none still)
    have asked : resolve lead (.assignRoundRobin team) (x, h) = (.ok (.error failure), (x, h)) :=
      run x rfl h
    rw [asked]
    refine iff_of_false ?_ ?_
    · rintro ⟨⟩
    · rintro ⟨_, _, ⟨⟩, _⟩
  | _ =>
    refine iff_of_false ?_ ?_
    · rintro ⟨⟩
    · rintro ⟨_, _, ⟨⟩, _⟩

theorem stops_iff_of_still (still : rotated x.directory a = none)
    (ahead : ∀ title days, a = .createTask title days → 0 ≤ days) :
    Stops a x h fault ↔ ∃ title days, a = .createTask title days ∧
    dueAt h.now days = .error fault := by
  constructor
  · intro stops
    cases stops with
    | @overdue title days task beyond =>
      exact ⟨title, days, task, (dueAt_error_iff h.now (ahead title days task)).2 ⟨beyond, rfl⟩⟩
    | unsaved turn => cases still.symm.trans turn
  · rintro ⟨title, days, task, refused⟩
    obtain ⟨beyond, rfl⟩ := (dueAt_error_iff h.now (ahead title days task)).1 refused
    exact .overdue task beyond

theorem stops_iff_of_rotated (turn : rotated x.directory a = some team) : Stops a x h fault ↔
    (StateFile.save x.cursors.path (x.cursors.advance x.directory team).toWire h).1 =
      .error fault := by
  refine ⟨fun stops => ?_, .unsaved turn⟩
  cases stops with
  | overdue task =>
    rw [task] at turn
    cases turn
  | unsaved turn' refused =>
    obtain rfl := Option.some.inj (turn.symm.trans turn')
    exact refused

/-- What an action asks for cannot be told just when it stops there, and then nothing but
the cursors has changed. -/
theorem resolve_stops (ahead : ∀ title days, a = .createTask title days → 0 ≤ days) (lead : Lead)
    (x : Executor) (h : Host) :
    ∃ result cursors k, resolve lead a (x, h) = (result, ({ x with cursors }, k)) ∧
      ∀ fault, result = .error fault ↔ Stops a x h fault := by
  cases turn : rotated x.directory a with
  | none =>
    obtain ⟨result, run⟩ := resolve_still turn lead h.now
    have answer := congrArg Prod.fst (run x rfl h rfl)
    refine ⟨result, x.cursors, h, run x rfl h rfl, fun fault => ?_⟩
    rw [stops_iff_of_still turn ahead, ← resolve_still_error_iff turn lead, answer]
  | some team =>
    obtain ⟨rfl, filled⟩ := rotated_eq_some turn
    rcases saved : StateFile.save x.cursors.path (x.cursors.advance x.directory team).toWire
      h with ⟨fault | _, k⟩
    · refine ⟨_, _, _, nextOfTeam_refused filled saved, fun fault' => ?_⟩
      rw [stops_iff_of_rotated turn, saved]
      simp
    · obtain ⟨l, -, run⟩ := nextOfTeam_run filled saved
      refine ⟨_, _, _, run, fun fault' => ?_⟩
      rw [stops_iff_of_rotated turn, saved]
      simp

theorem Performance.raised (performance : Performance a lead x h (.error fault) y k) :
    resolve lead a (x, h) = (.error fault, (y, k)) := by
  cases performance with
  | faulty asked => exact asked

theorem Performance.returned {outcome : ActionOutcome}
    (performance : Performance a lead x h (.ok outcome) y k) :
    ∃ found s, resolve lead a (x, h) = (.ok found, s) := by
  cases performance with
  | unresolved asked => exact ⟨_, _, asked⟩
  | done asked => exact ⟨_, _, asked⟩
  | refused asked => exact ⟨_, _, asked⟩

/-- Executing an action that was read returns a result, which tells a request or a reason,
whatever the handlers and the disk do; but it raises if its task falls due beyond the calendar, or
if the cursor that it moves cannot be saved. Then nothing is handed on and nothing remembered. -/
theorem execute_raises_iff (read : Action.ofWire v = .ok a) (lead : Lead) (rule : Value)
    (x : Executor) (h : Host) :
    (∀ fault, (execute a lead rule (x, h)).1 = .error fault ↔ Stops a x h fault) ∧
    ((∀ fault, ¬Stops a x h fault) → ∃ result y k, execute a lead rule (x, h) = (.ok result, (y, k)) ∧
      (result.action = a.kind ∧ result.lead = lead.id ∧ result.rule = rule) ∧ result.Tells) ∧
    ∀ fault y k, execute a lead rule (x, h) = (.error fault, (y, k)) →
      y = { x with cursors := y.cursors } := by
  have ahead : ∀ title days, a = .createTask title days → 0 ≤ days := fun title days task =>
    ((Action.ofWire_wellFormed v a read).days title days task).1
  obtain ⟨asked, cursors, l, resolved, stops_iff⟩ := resolve_stops ahead lead x h
  obtain ⟨outcome, y, k, performed, performance⟩ := perform_run a lead x h
  rw [execute_run, performed]
  cases outcome with
  | error fault =>
    cases resolved.symm.trans performance.raised
    refine ⟨fun fault' => ?_, fun never => absurd ((stops_iff fault).1 rfl) (never fault), ?_⟩
    · rw [← stops_iff fault']
      exact ⟨fun same => congrArg _ (Except.error.inj same), fun same => congrArg _ (Except.error.inj same)⟩
    · rintro fault' y k ⟨⟩
      rfl
  | ok outcome =>
    obtain ⟨found, s, asked'⟩ := performance.returned
    cases resolved.symm.trans asked'
    let result : ActionResult := ⟨a.kind, lead.id, rule, k.now, outcome⟩
    refine ⟨fun fault => ?_, fun _ =>
      ⟨result, y.remember result, k, rfl, ⟨rfl, rfl, rfl⟩, result.tells⟩, fun _ _ _ same => ?_⟩
    · rw [← stops_iff fault]
      exact iff_of_false nofun nofun
    · exact absurd (congrArg Prod.fst same) nofun

def nextDay : Value :=
  .record [("type", .text "CREATE_TASK"), ("title", .text "Call"), ("dueDays", .int 1)]

def crewTurn : Value := .record [("type", .text "ASSIGN_ROUND_ROBIN"), ("teamId", .text "crew")]

def crew : Executor where
  directory := { teams := .ofList [("crew", ⟨"crew", .text "Crew", none, ["ann"]⟩)] }
  cursors := { path := some (.ofText "cursors.json") }

def worn : Host := { Host.still with refusals := [true] }

/-- On the last day there is no day to make the task due, and where the disk refuses a turn has no
result. On another day the task is made. -/
theorem execute_raises_crew :
    (execute (.createTask "Call" 1) { id := "L1" } .null (crew, Engine.late)).1 = .error
    (.overflow .date) ∧
    (execute (.assignRoundRobin "crew") { id := "L1" } .null (crew, worn)).1 = .error
    (.file ⟨.deviceFailed, ".", none⟩) ∧
    ∃ result y k, execute (.createTask "Call" 1) { id := "L1" } .null (crew, .still) =
      (.ok result, (y, k)) ∧ result.Tells := by
  have task : Action.ofWire nextDay = .ok (.createTask "Call" 1) :=
    StateFile.of_toOption (by decide +kernel)
  have turn : Action.ofWire crewTurn = .ok (.assignRoundRobin "crew") :=
    StateFile.of_toOption (by decide +kernel)
  refine ⟨?_, ?_, ?_⟩
  · obtain ⟨raises, -⟩ := execute_raises_iff task { id := "L1" } .null crew Engine.late
    have beyond : (DateTime.limit : Int) ≤ Engine.late.now.micros + 1 * microsPerDay := by
      decide +kernel
    exact (raises _).2 (.overdue rfl beyond)
  · obtain ⟨raises, -⟩ := execute_raises_iff turn { id := "L1" } .null crew worn
    have next : rotated crew.directory (.assignRoundRobin "crew") = some "crew" := by decide +kernel
    exact (raises _).2 (.unsaved next rfl)
  · obtain ⟨-, returns, -⟩ := execute_raises_iff task { id := "L1" } .null crew .still
    obtain ⟨result, y, k, run, -, tells⟩ := returns fun fault stops => by
      cases stops with
      | overdue same beyond =>
        cases same
        exact absurd beyond (by decide +kernel)
      | unsaved next => cases next
    exact ⟨result, y, k, run, tells⟩

end Executor
end LeadRules
