import LeadRules.Action
import LeadRules.Condition.Basic

/-! Rules: when a trigger fires and the conditions hold, an action is asked for. -/
namespace LeadRules

/-- A rule as it is stored. Name, description and the enabled mark are kept as they were given;
the mark counts by whether it means yes. `strays` are texts that an unchecked update put in the
place of conditions: such a rule can be listed, but neither shown nor evaluated. -/
structure Rule where
  id : Text
  name : Value
  trigger : Trigger
  action : Action
  conditions : List Condition := []
  strays : List Text := []
  description : Value := .text ""
  isEnabled : Value := .bool true
  createdAt : Stamp
  updatedAt : Stamp
deriving DecidableEq

namespace Rule

def enabled (r : Rule) : Bool := r.isEnabled.truthy
def hasConditions (r : Rule) : Bool := !r.conditions.isEmpty || !r.strays.isEmpty

/-- A stored time with or without a zone, `now` when it is left out. -/
def stampOfWire (now : DateTime) (v : Value) : Except Fault Stamp :=
  if !v.truthy then .ok (.ofDateTime now)
  else
    match v with
    | .text s => Iso.readTime s
    | v => .error (.misuse (.textExpected v.shape))

def conditionsOfWire : List Value → Op IdSource (List Condition)
  | [] => return []
  | v :: rest => return (← Condition.ofWire v) :: (← conditionsOfWire rest)

/-- Reads a rule. A missing identifier is drawn once name and list of conditions are there, and
before trigger, conditions and action are read. -/
def ofWire (now : DateTime) (v : Value) : Op IdSource Rule := do
  let data ← Op.ofExcept v.members
  let name := Value.member "name" data
  if !name.truthy then throw (.malformed .ruleWithoutName)
  let conditions ←
    match Value.member "conditions" data with
    | .list items => pure items
    | other => if other.truthy then throw (.malformed .conditionsNotList) else pure []
  let given := Value.member "id" data
  let id ← if given.truthy then pure given.toText else IdSource.drawShort 12
  let description := Value.member "description" data
  let trigger ← Op.ofExcept (Trigger.ofWire (Value.member "trigger" data))
  let conditions ← conditionsOfWire conditions
  let action ← Op.ofExcept (Action.ofWire (Value.member "action" data))
  let createdAt ← Op.ofExcept (stampOfWire now (Value.member "createdAt" data))
  let updatedAt ← Op.ofExcept (stampOfWire now (Value.member "updatedAt" data))
  return {
    id, name, trigger, action, conditions, createdAt, updatedAt
    description := if description.truthy then description else .text ""
    isEnabled := .bool (Value.memberOr "isEnabled" (.bool true) data).truthy }

/-- The rule for the rules file and for answers; one with strays has no wire form. -/
def toWire (r : Rule) : Except Fault Value :=
  if !r.strays.isEmpty then .error (.noMember "str" "to_dict")
  else .ok (.record [
    ("id", .text r.id),
    ("name", r.name),
    ("description", r.description),
    ("isEnabled", r.isEnabled),
    ("trigger", r.trigger.toWire),
    ("conditions", .list (r.conditions.map Condition.toWire)),
    ("action", r.action.toWire),
    ("createdAt", .text r.createdAt.isoText),
    ("updatedAt", .text r.updatedAt.isoText)])

end Rule
end LeadRules
