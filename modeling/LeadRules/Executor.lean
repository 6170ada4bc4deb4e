import LeadRules.Action
import LeadRules.Handler
import LeadRules.Lead
import LeadRules.RoundRobin

/-! Executing actions: an action on a lead becomes one request, which is handed to one handler.
That a target is unknown or a handler refuses is a result, not a fault. -/
namespace LeadRules

inductive ActionFailure where
  | unknownUser (user : Text)
  | unknownTeam (team : Text)
  | teamWithoutLead (team : Text)
  | unknownPhoneList (phoneList : Text)
  | emptyTeam (team : Text)
  /-- The request was made, but its handler failed. -/
  | notDispatched (kind : RequestKind) (lead text : Text)
deriving DecidableEq

def ActionFailure.message : ActionFailure → Text
  | unknownUser user => "Unknown user: " ++ user
  | unknownTeam team => "Unknown team: " ++ team
  | teamWithoutLead team => "Team " ++ team ++ " has no team lead"
  | unknownPhoneList list => "Unknown phone list: " ++ list
  | emptyTeam team => (Fault.emptyTeam team).message
  | notDispatched kind lead text => kind.name ++ " for lead " ++ lead ++ " failed: " ++ text

inductive ActionOutcome where
  | done (request : Request)
  /-- Its target was not found, so there was nothing to ask for. -/
  | unresolved (failure : ActionFailure)
  | refused (request : Request) (failure : ActionFailure)
deriving DecidableEq

namespace ActionOutcome

def request? : ActionOutcome → Option Request
  | done r | refused r _ => some r
  | unresolved _ => none

def failure? : ActionOutcome → Option ActionFailure
  | done _ => none
  | unresolved f | refused _ f => some f

end ActionOutcome

structure ActionResult where
  action : ActionKind
  lead : Text
  rule : Value
  executedAt : DateTime
  outcome : ActionOutcome
deriving DecidableEq

namespace ActionResult

def ok (r : ActionResult) : Bool := r.outcome.failure?.isNone

def reason (r : ActionResult) : Text := (r.outcome.failure?.map (·.message)).getD ""

end ActionResult

structure Executor where
  directory : Directory
  cursors : CursorStore
  /-- Takes every request but the webhooks that have a handler of their own. -/
  handler : Option Handler := none
  webhookHandler : Option Handler := none
  /-- The latest results, oldest first. -/
  history : List ActionResult := []
  historySize : Nat := 1000

/-- How many results a history may be asked to keep: a word of them. -/
def Executor.historySizeOf (size : Int) : Except Fault Nat :=
  if 0x7FFFFFFFFFFFFFFF < size ∨ size < -0x8000000000000000 then .error (.overflow .word)
  else if size < 0 then .error (.badValue .negativeBound)
  else .ok size.toNat

namespace Executor

/-- The time some days later. The days fit a machine word and the limit of a span of time, and
the calendar ends with the year 9999. -/
def dueAt (now : DateTime) (days : Int) : Except Fault DateTime :=
  if 2147483647 < days ∨ days < -2147483648 then .error (.overflow .days)
  else if 999999999 < days ∨ days < -999999999 then .error (.overflow (.dayMagnitude days))
  else
    match now.addMicros? (days * (microsPerDay : Int)) with
    | some t => .ok t
    | none => .error (.overflow .date)

def toUser (d : Directory) (user : Text) : Except ActionFailure Effect :=
  if d.users.contains user then .ok (.reassign user none) else .error (.unknownUser user)

def toTeamLead (d : Directory) (team : Text) : Except ActionFailure Effect :=
  match d.teams.get? team with
  | none => .error (.unknownTeam team)
  | some t =>
    match t.lead with
    | none => .error (.teamWithoutLead team)
    | some user => if user = "" then .error (.teamWithoutLead team) else .ok (.reassign user (some t.id))

def toPhoneList (d : Directory) (list : Text) : Except ActionFailure Effect :=
  if d.phoneLists.contains list then .ok (.phoneListAdd list) else .error (.unknownPhoneList list)

def onCursors {α : Type} (op : StoreOp CursorStore α) : StoreOp Executor α :=
  op.onPart (fun (x, h) => (x.cursors, h)) fun (x, _) (cursors, h) => ({ x with cursors }, h)

/-- The next member of a known team. A team without members is a failed action; that its cursor
cannot be saved is a fault. -/
def nextOfTeam (team : Text) : StoreOp Executor (Except ActionFailure Effect) := do
  let d := (← Op.store).directory
  if !d.teams.contains team then return .error (.unknownTeam team)
  match ← (onCursors (CursorStore.next d team)).attempt with
  | .ok user => return .ok (.reassign user (some team))
  | .error (.emptyTeam team) => return .error (.emptyTeam team)
  | .error fault => throw fault

def resolve (lead : Lead) (a : Action) : StoreOp Executor (Except ActionFailure Effect) := do
  let (x, h) ← get
  match a with
  | .addTag tag => return .ok (.tagAdd tag)
  | .assignToUser user => return toUser x.directory user
  | .assignToTeam team => return toTeamLead x.directory team
  | .assignRoundRobin team => nextOfTeam team
  | .sendWebhook url => return .ok (.webhook url lead.toWire)
  | .createTask title dueDays => return .ok (.taskCreate title (← Op.ofExcept (dueAt h.now dueDays)))
  | .addToPhoneList list => return toPhoneList x.directory list

/-- Hands a request to the handler that is there for it; without one it is dropped and noted. -/
def emit (r : Request) : StoreOp Executor Unit := do
  let x ← Op.store
  match r.kind, x.webhookHandler, x.handler with
  | .webhookDispatch, some handler, _ =>
    (Handler.handle r).onPart (fun (_, h) => (handler, h)) fun (x, _) (handler, h) =>
      ({ x with webhookHandler := some handler }, h)
  | _, _, some handler =>
    (Handler.handle r).onPart (fun (_, h) => (handler, h)) fun (x, _) (handler, h) =>
      ({ x with handler := some handler }, h)
  | kind, _, none =>
    Op.onHost (Op.log .debug ("No handler for " ++ kind.name ++ "; lead " ++ r.lead ++ " request dropped"))

/-- Puts a result at the end of the history, which forgets the oldest beyond its size. -/
def remember (x : Executor) (result : ActionResult) : Executor :=
  let history := x.history ++ [result]
  { x with history := history.drop (history.length - x.historySize) }

def perform (a : Action) (lead : Lead) : StoreOp Executor ActionOutcome := do
  let now := (← get).2.now
  match ← resolve lead a with
  | .error failure =>
    Op.onHost (Op.log .warning
      ("Action " ++ a.kind.name ++ " skipped for lead " ++ lead.id ++ ": " ++ failure.message))
    return .unresolved failure
  | .ok effect =>
    let request : Request := { lead := lead.id, requestedAt := now, effect }
    match ← (emit request).attempt with
    | .ok _ => return .done request
    | .error fault =>
      let failure := ActionFailure.notDispatched request.kind lead.id fault.message
      Op.onHost (Op.log .error failure.message)
      return .refused request failure

def execute (a : Action) (lead : Lead) (rule : Value) : StoreOp Executor ActionResult := do
  let outcome ← perform a lead
  let result := { action := a.kind, lead := lead.id, rule, executedAt := (← get).2.now, outcome }
  Op.setStore ((← Op.store).remember result)
  return result

/-- The latest results, the failed ones only if so asked. A limit of zero limits nothing, and one below
zero drops that many of the oldest. -/
def recent (x : Executor) (failedOnly : Bool) (limit : Int) : List ActionResult :=
  let results := if failedOnly then x.history.filter (!·.ok) else x.history
  results.drop (if 0 < limit then results.length - limit.toNat else limit.natAbs)

end Executor
end LeadRules
