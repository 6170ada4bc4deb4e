import LeadRules.Executor
import LeadRules.Ledger
import LeadRules.Repository
import LeadRules.Segment

/-! The rule engine: an event goes through every enabled rule that listens to its kind, in the
order of creation. A rule asks in turn whether its trigger fires, whether its conditions hold
and whether the delivery is new, and only then acts. What fails in one rule stays with it. -/
namespace LeadRules

structure Engine where
  rules : Repository := {}
  executor : Executor
  catalog : FieldCatalog := .empty
  edges : EdgeStore := {}
  ledger : Ledger := {}

inductive RuleResult where
  | notFired
  | conditionsNotMet
  | duplicate
  | executed (result : ActionResult)
  | actionFailed (result : ActionResult)
  | error (text : Text)
deriving DecidableEq

namespace RuleResult

def status : RuleResult → RuleStatus
  | notFired => .notFired
  | conditionsNotMet => .conditionsNotMet
  | duplicate => .duplicate
  | executed _ => .executed
  | actionFailed _ => .actionFailed
  | error _ => .error

def actionResult? : RuleResult → Option ActionResult
  | executed r | actionFailed r => some r
  | _ => none

def problem : RuleResult → Text
  | actionFailed r => r.reason
  | error text => text
  | _ => ""

def request? : RuleResult → Option Request
  | executed r => r.outcome.request?
  | _ => none

end RuleResult

structure RuleOutcome where
  rule : Text
  name : Value
  result : RuleResult
deriving DecidableEq

structure EventOutcome where
  event : Text
  lead : Text
  kind : EventKind
  rules : List RuleOutcome := []
deriving DecidableEq

namespace EventOutcome

def requests (o : EventOutcome) : List Request := o.rules.filterMap (·.result.request?)

def withStatus (o : EventOutcome) (status : RuleStatus) : List RuleOutcome :=
  o.rules.filter (·.result.status = status)

end EventOutcome

namespace Engine

def onEdges {α : Type} (op : StoreOp EdgeStore α) : StoreOp Engine α :=
  op.onPart (fun (g, h) => (g.edges, h)) fun (g, _) (edges, h) => ({ g with edges }, h)

def onLedger {α : Type} (op : StoreOp Ledger α) : StoreOp Engine α :=
  op.onPart (fun (g, h) => (g.ledger, h)) fun (g, _) (ledger, h) => ({ g with ledger }, h)

def onExecutor {α : Type} (op : StoreOp Executor α) : StoreOp Engine α :=
  op.onPart (fun (g, h) => (g.executor, h)) fun (g, _) (executor, h) => ({ g with executor }, h)

def onRules {α : Type} (op : StoreOp Repository α) : StoreOp Engine α :=
  op.onPart (fun (g, h) => (g.rules, h)) fun (g, _) (rules, h) => ({ g with rules }, h)

/-- Whether an event fires a rule for its lead; the transition is remembered. -/
def fires (r : Rule) (e : Event) : StoreOp Engine Bool :=
  onEdges (EdgeStore.observe (.ofTexts e.lead.id r.id) (r.trigger.matchEvent e))

/-- Whether a lead meets the conditions of a rule. Strays cannot be evaluated: of three or more
the logic is asked for first, of fewer the field. -/
def meets (r : Rule) (lead : Lead) : StoreOp Engine Bool := do
  if !r.strays.isEmpty then
    throw (.noMember "str" (if 3 ≤ r.strays.length then "logic" else "field"))
  Op.onHost (Segment.evaluate (← Op.store).catalog lead r.conditions)

def deliveryKey (r : Rule) (e : Event) : LedgerKey := .ofTexts e.lead.id r.id e.id

def actOnce (r : Rule) (e : Event) : StoreOp Engine (Option ActionResult) :=
  Ledger.runOnce (·.1.ledger) (fun (g, h) ledger => ({ g with ledger }, h)) (·.2.now) (deliveryKey r e)
    (onExecutor (Executor.execute r.action e.lead (.text r.id)))

/-- The last step of a rule: its action, unless this delivery was processed before. -/
def act (r : Rule) (e : Event) : StoreOp Engine RuleResult := do
  match ← actOnce r e with
  | none =>
    Op.onHost (Op.log .info ("Skipping already processed " ++ Value.tupleLiteral (deliveryKey r e).values))
    return .duplicate
  | some result =>
    if result.ok then return .executed result
    Op.onHost (Op.log .warning
      ("Rule '" ++ r.name.toText ++ "' (" ++ r.id ++ ") action failed: " ++ result.reason))
    return .actionFailed result

def process (r : Rule) (e : Event) : StoreOp Engine RuleResult := do
  if !(← fires r e) then return .notFired
  if !(← meets r e.lead) then return .conditionsNotMet
  act r e

/-- A rule's outcome, whatever happens in it. -/
def outcomeOf (e : Event) (r : Rule) : StoreOp Engine RuleOutcome := do
  match ← (process r e).attempt with
  | .ok result => return { rule := r.id, name := r.name, result }
  | .error fault =>
    Op.onHost (Op.log .error ("Rule " ++ r.id ++ " failed on event " ++ e.id))
    return { rule := r.id, name := r.name, result := .error fault.message }

def outcomesOf (e : Event) : List Rule → StoreOp Engine (List RuleOutcome)
  | [] => return []
  | r :: rest => do
    let outcome ← outcomeOf e r
    return outcome :: (← outcomesOf e rest)

/-- Writes a store. A refused write is noted; the next flush tries again. -/
def flushStore (path : Option FilePath) (flush : StoreOp Engine Unit) : StoreOp Engine Unit := do
  match ← flush.attempt with
  | .ok _ => return
  | .error fault@(.file _) =>
    let place := (path.map FilePath.toText).getD "None"
    Op.onHost (Op.log .error ("Error saving engine state to " ++ place ++ ": " ++ fault.message))
  | .error fault => throw fault

def flush : StoreOp Engine Unit := do
  flushStore (← Op.store).edges.path (onEdges EdgeStore.flush)
  flushStore (← Op.store).ledger.path (onLedger Ledger.flush)

def onEvent (e : Event) : StoreOp Engine EventOutcome := do
  let outcome : EventOutcome := { event := e.id, lead := e.lead.id, kind := e.kind }
  let candidates ← Op.ofExcept ((← Op.store).rules.rulesFor e.kind.trigger)
  if candidates.isEmpty then
    Op.onHost (Op.log .debug ("No enabled rules for " ++ e.kind.name ++ " (lead " ++ e.lead.id ++ ")"))
    return outcome
  let outcome := { outcome with rules := ← outcomesOf e candidates }
  flush
  let executed := (outcome.withStatus .executed).length
  if executed ≠ 0 then
    Op.onHost (Op.log .info
      ("Event " ++ e.kind.name ++ " " ++ e.id ++ " for lead " ++ e.lead.id
        ++ s!": {executed} action(s) executed"))
  return outcome

def onEvents : List Event → StoreOp Engine (List EventOutcome)
  | [] => return []
  | e :: rest => do
    let outcome ← onEvent e
    return outcome :: (← onEvents rest)

def deleteRule (id : Text) : StoreOp Engine Bool :=
  Repository.delete (·.rules) (fun g rules => { g with rules }) id (onEdges (EdgeStore.forget (.text id)))

end Engine
end LeadRules
