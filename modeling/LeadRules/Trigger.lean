import LeadRules.Wire

/-! Triggers: what an event must be for a rule to fire. Each carries only what it needs. -/
namespace LeadRules

inductive Trigger where
  | newLead
  | leadUntouched (hours : Binary64)
  | stageChanged (toStage : Text)
  | taskCompleted
  | scoreReaches (score : Binary64)
deriving DecidableEq

namespace Value

def filled (type key : String) (data : List (Value × Value)) : Except Fault Value :=
  let v := member key data
  if v.isBlank then .error (.malformed (.required type key)) else .ok v

def numeric (key : String) (v : Value) : Except Fault Binary64 := do
  match ← v.toDouble with
  | some x => return x
  | none => throw (.malformed (.notNumeric key v))

end Value

namespace Trigger

def kind : Trigger → TriggerKind
  | newLead => .newLead
  | leadUntouched _ => .leadUntouched
  | stageChanged _ => .stageChanged
  | taskCompleted => .taskCompleted
  | scoreReaches _ => .scoreReaches

/-- Idle hours are not negative, and a stage trigger names a stage. -/
def check (t : Trigger) : Except Fault Trigger :=
  match t with
  | leadUntouched hours => if hours.lt .zero then .error (.malformed .negativeHours) else .ok t
  | stageChanged toStage => if toStage = "" then .error (.malformed .stageMissing) else .ok t
  | t => .ok t

def ofWire (v : Value) : Except Fault Trigger := do
  let .map data := v | throw (.malformed .triggerNotObject)
  let given := Value.member "type" data
  let .text name := given | throw (.malformed (.unknownTrigger given))
  let some kind := TriggerKind.ofName? name | throw (.malformed (.unknownTrigger given))
  match kind with
  | .newLead => return newLead
  | .leadUntouched => check (leadUntouched (← (← Value.filled kind.name "hours" data).numeric "hours"))
  | .stageChanged => check (stageChanged (← Value.filled kind.name "toStage" data).toText)
  | .taskCompleted => return taskCompleted
  | .scoreReaches => return scoreReaches (← (← Value.filled kind.name "score" data).numeric "score")

def toWire (t : Trigger) : Value := .record (("type", .text t.kind.name) ::
  match t with
  | newLead | taskCompleted => []
  | leadUntouched hours => [("hours", .float hours)]
  | stageChanged toStage => [("toStage", .text toStage)]
  | scoreReaches score => [("score", .float score)])

end Trigger
end LeadRules
