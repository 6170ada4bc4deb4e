import LeadRules.Lead
import LeadRules.Operation
import LeadRules.Trigger

/-! Domain events: what happened to a lead, with the lead as it was then. -/
namespace LeadRules

/-- What happened, with what only this kind of event carries. -/
inductive Occurrence where
  | leadCreated
  | stageChanged (oldStage newStage : Value)
  | taskCompleted (task : Value)
  | scoreChanged (previous new : Binary64)
  | idleScanTick
deriving DecidableEq

namespace Occurrence

def kind : Occurrence → EventKind
  | leadCreated => .leadCreated
  | stageChanged .. => .stageChanged
  | taskCompleted _ => .taskCompleted
  | scoreChanged .. => .scoreChanged
  | idleScanTick => .idleScanTick

def demand (kind : EventKind) (key : String) (data : List (Value × Value)) : Except Fault Value :=
  match Value.member key data with
  | .null => .error (.malformed (.eventRequires kind key))
  | v => .ok v

def ofWire (kind : EventKind) (data : List (Value × Value)) : Except Fault Occurrence :=
  match kind with
  | .leadCreated => .ok leadCreated
  | .stageChanged => return stageChanged (Value.member "oldStage" data) (← demand kind "newStage" data)
  | .taskCompleted => .ok (taskCompleted (Value.member "taskId" data))
  | .scoreChanged => do
    let previous ← (← demand kind "previousScore" data).numeric "previousScore"
    let new ← (← demand kind "newScore" data).numeric "newScore"
    return scoreChanged previous new
  | .idleScanTick => .ok idleScanTick

end Occurrence

structure Event where
  id : Text
  lead : Lead
  occurredAt : DateTime
  occurrence : Occurrence
deriving DecidableEq

namespace Event

def kind (e : Event) : EventKind := e.occurrence.kind

/-- Reads an event; it happened `now` unless it says otherwise, and a missing identifier is
drawn when everything else has been read. -/
def ofWire (now : DateTime) (v : Value) : Op IdSource Event := do
  let data ← Op.ofExcept v.members
  let given := Value.member "kind" data
  let .text name := given | throw (.malformed (.unknownEvent given))
  let some kind := EventKind.ofName? name | throw (.malformed (.unknownEvent given))
  let snapshot@(.map _) := Value.member "lead" data | throw (.malformed (.eventWithoutLead kind))
  let lead ← Op.ofExcept (Lead.ofWire snapshot)
  let occurredAt ← Op.ofExcept (Value.member "occurredAt" data).toDateTime?
  let occurrence ← Op.ofExcept (Occurrence.ofWire kind data)
  let eventId := Value.member "eventId" data
  let id ← if eventId.truthy then pure eventId.toText else IdSource.draw
  return { id, lead, occurrence, occurredAt := occurredAt.getD now }

end Event
end LeadRules
