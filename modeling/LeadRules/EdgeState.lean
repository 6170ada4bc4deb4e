import LeadRules.Event
import LeadRules.Trigger

/-! What a rule last saw of a lead, and how an event fires a trigger against it. Score and
stage triggers decide by the event's own transition; the transition seen last only suppresses
the same one delivered again. The idle marker is the idle period already fired for. -/
namespace LeadRules

structure EdgeState where
  lead : Value
  rule : Value
  score : Value := .null
  scoreFrom : Value := .null
  stage : Value := .null
  stageFrom : Value := .null
  idleMarker : Option DateTime := none
  firedAt : Option DateTime := none
deriving DecidableEq

/-- The components that a match replaces; pairs are (from, to). -/
structure EdgeChange where
  score : Option (Value × Value) := none
  stage : Option (Value × Value) := none
  idleMarker : Option (Option DateTime) := none
  firedAt : Option (Option DateTime) := none
deriving DecidableEq

namespace EdgeState

def fresh (lead rule : Value) : EdgeState := { lead, rule }

def apply (s : EdgeState) (c : EdgeChange) : EdgeState :=
  { s with
    scoreFrom := (c.score.map (·.1)).getD s.scoreFrom
    score := (c.score.map (·.2)).getD s.score
    stageFrom := (c.stage.map (·.1)).getD s.stageFrom
    stage := (c.stage.map (·.2)).getD s.stage
    idleMarker := c.idleMarker.getD s.idleMarker
    firedAt := c.firedAt.getD s.firedAt }

def isRepeat (old new : Value × Value) : Bool := new.1.alike old.1 && new.2.alike old.2

def isAlteredBy (s : EdgeState) (c : EdgeChange) : Bool :=
  !(c.score.all (isRepeat (s.scoreFrom, s.score)) && c.stage.all (isRepeat (s.stageFrom, s.stage))
    && c.idleMarker.getD s.idleMarker = s.idleMarker && c.firedAt.getD s.firedAt = s.firedAt)

def toWire (s : EdgeState) : Value := .record [
  ("lead_id", s.lead),
  ("rule_id", s.rule),
  ("last_observed_score", s.score),
  ("last_observed_score_from", s.scoreFrom),
  ("last_observed_stage", s.stage),
  ("last_observed_stage_from", s.stageFrom),
  ("idle_marker", .ofDateTime? s.idleMarker),
  ("fired_at", .ofDateTime? s.firedAt)]

def ofWire (v : Value) : Except Fault EdgeState := do
  let lead ← v.subscript "lead_id"
  let rule ← v.subscript "rule_id"
  let data ← v.members
  let idleMarker ← (Value.member "idle_marker" data).toDateTime?
  let firedAt ← (Value.member "fired_at" data).toDateTime?
  return {
    lead, rule, idleMarker, firedAt
    score := Value.member "last_observed_score" data
    scoreFrom := Value.member "last_observed_score_from" data
    stage := Value.member "last_observed_stage" data
    stageFrom := Value.member "last_observed_stage_from" data }

end EdgeState

namespace Trigger

def handles (t : Trigger) (e : Event) : Bool := e.kind.trigger = t.kind

def idleHours (occurredAt reference : DateTime) : Binary64 :=
  (secondsOfMicros (occurredAt.since reference)).divNat 3600

/-- Whether an event fires a trigger, and what the state becomes. -/
def matchEvent (t : Trigger) (e : Event) (s : EdgeState) : Bool × EdgeChange :=
  match t, e.occurrence with
  | newLead, .leadCreated =>
    if s.firedAt.isSome then (false, {}) else (true, { firedAt := some (some e.occurredAt) })
  | leadUntouched hours, .idleScanTick =>
    match e.lead.idleReference with
    | none => (false, {})
    | some reference =>
      if (idleHours e.occurredAt reference).lt hours then (false, {})
      else if s.idleMarker = some reference then (false, {})
      else (true, { idleMarker := some (some reference) })
  | stageChanged toStage, .stageChanged old new =>
    (new.same (.text toStage) && !old.same (.text toStage)
      && !EdgeState.isRepeat (s.stageFrom, s.stage) (old, new), { stage := some (old, new) })
  | taskCompleted, .taskCompleted _ => (true, {})
  | scoreReaches threshold, .scoreChanged previous new =>
    (previous.lt threshold && threshold.le new
      && !EdgeState.isRepeat (s.scoreFrom, s.score) (.float previous, .float new),
      { score := some (.float previous, .float new) })
  | _, _ => (false, {})

end Trigger
end LeadRules
