import LeadRules.Wire

/-! Lead snapshots. The engine only reads them: most members are kept as the wire gave them,
whatever their shape; identifiers become texts and times lose their zone. -/
namespace LeadRules

structure Lead where
  id : Text
  name : Value := .null
  email : Value := .null
  phone : Value := .null
  city : Value := .null
  course : Value := .null
  company : Value := .null
  source : Value := .null
  stage : Value := .null
  score : Value := .null
  dealValue : Value := .null
  campaign : Value := .null
  tags : List Value := []
  assignedTo : Option Text := none
  followUpStatus : Value := .null
  customFields : Mapping := .empty
  lastActivityAt : Option DateTime := none
  createdAt : Option DateTime := none
deriving DecidableEq

namespace Lead

def idleReference (l : Lead) : Option DateTime := l.lastActivityAt <|> l.createdAt

def ofWire (v : Value) : Except Fault Lead := do
  let data ← v.members
  let id ← Value.required "id" data
  let tags ← (Value.member "tags" data).itemsOrNone
  let customFields ← (Value.member "customFields" data).asMapping
  let lastActivityAt ← (Value.member "lastActivityAt" data).toDateTime?
  let createdAt ← (Value.member "createdAt" data).toDateTime?
  return {
    id := id.toText
    name := Value.member "name" data
    email := Value.member "email" data
    phone := Value.member "phone" data
    city := Value.member "city" data
    course := Value.member "course" data
    company := Value.member "company" data
    source := Value.member "source" data
    stage := Value.member "stage" data
    score := Value.member "score" data
    dealValue := Value.member "dealValue" data
    campaign := Value.member "campaign" data
    tags
    assignedTo := match Value.member "assignedToId" data with
      | .null => none
      | owner => some owner.toText
    followUpStatus := Value.member "followUpStatus" data
    customFields, lastActivityAt, createdAt }

def toWire (l : Lead) : Value := .record [
  ("id", .text l.id),
  ("name", l.name),
  ("email", l.email),
  ("phone", l.phone),
  ("city", l.city),
  ("course", l.course),
  ("company", l.company),
  ("source", l.source),
  ("stage", l.stage),
  ("score", l.score),
  ("dealValue", l.dealValue),
  ("campaign", l.campaign),
  ("tags", .list l.tags),
  ("assignedToId", .ofText? l.assignedTo),
  ("followUpStatus", l.followUpStatus),
  ("customFields", l.customFields.toWire),
  ("lastActivityAt", .ofDateTime? l.lastActivityAt),
  ("createdAt", .ofDateTime? l.createdAt)]

end Lead
end LeadRules
