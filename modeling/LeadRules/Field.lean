import LeadRules.Lead

/-! Fields of a lead that conditions refer to: the standard ones, and those a catalog defines
for an organisation. A reference resolves to a typed value, which may be absent. -/
namespace LeadRules

/-- A lead field of an organisation's own. -/
structure FieldDefinition where
  id : Text
  name : Value
  type : FieldType
  options : List Value

def FieldType.ofWire (v : Value) : Except Fault FieldType :=
  match v with
  | .text s =>
    match FieldType.ofName? s with
    | some t => .ok t
    | none => .error (.badValue (.notFieldType v))
  | v => .error (.badValue (.notFieldType v))

namespace FieldDefinition

/-- The name is the identifier as it was given unless there is another, the type text. -/
def ofWire (v : Value) : Except Fault FieldDefinition := do
  let id ← v.subscript "id"
  let data ← v.members
  let type ← FieldType.ofWire (Value.memberOr "type" (.text "text") data)
  let options ← (Value.member "options" data).itemsOrNone
  return { id := id.toText, name := Value.memberOr "name" id data, type, options }

def toWire (d : FieldDefinition) : Value := .record [
  ("id", .text d.id), ("name", d.name), ("type", .text d.type.name), ("options", .list d.options)]

end FieldDefinition

/-- A field's value together with its declared type; a null value is absent. -/
structure TypedValue where
  value : Value
  type : FieldType
deriving DecidableEq

namespace TypedValue

def absent : TypedValue := ⟨.null, .text⟩

def isNull (t : TypedValue) : Bool := t.value = .null
def isNumeric (t : TypedValue) : Bool := t.type.isNumeric

def ofDouble? (type : FieldType) : Option Binary64 → TypedValue
  | some x => ⟨.float x, type⟩
  | none => absent

end TypedValue

inductive StandardField where
  | source
  | dealValue
  | score
  | campaign
  | tags
  | stage
  | name
  | email
  | phone
  | city
  | course
  | company
  | assignedToId
  | followUpStatus
deriving DecidableEq

namespace StandardField

def all : List StandardField :=
  [source, dealValue, score, campaign, tags, stage, name, email, phone, city, course, company,
    assignedToId, followUpStatus]

def reference : StandardField → String
  | source => "source"
  | dealValue => "dealValue"
  | score => "score"
  | campaign => "campaign"
  | tags => "tags"
  | stage => "stage"
  | name => "name"
  | email => "email"
  | phone => "phone"
  | city => "city"
  | course => "course"
  | company => "company"
  | assignedToId => "assignedToId"
  | followUpStatus => "followUpStatus"

def ofReference? (ref : Text) : Option StandardField := all.find? fun field => field.reference = ref

def type : StandardField → FieldType
  | dealValue | score => .number
  | tags => .list
  | _ => .text

def valueOf (f : StandardField) (l : Lead) : Value :=
  match f with
  | source => l.source
  | dealValue => l.dealValue
  | score => l.score
  | campaign => l.campaign
  | tags => .list l.tags
  | stage => l.stage
  | name => l.name
  | email => l.email
  | phone => l.phone
  | city => l.city
  | course => l.course
  | company => l.company
  | assignedToId => .ofText? l.assignedTo
  | followUpStatus => l.followUpStatus

end StandardField

/-- A value brought to a declared type: numbers and dates become doubles where they can, all
else its text. -/
def FieldType.coerce (type : FieldType) (raw : Value) : Except Fault TypedValue :=
  match type with
  | .number => return .ofDouble? .number (← raw.toNumber)
  | .date => return .ofDouble? .date (← raw.toTimestamp)
  | type => return ⟨.text raw.toText, type⟩

namespace StandardField

/-- A missing value is absent, tags stay a list, and the others are brought to their type. -/
def resolve (f : StandardField) (l : Lead) : Except Fault TypedValue :=
  match f.valueOf l with
  | .null => .ok .absent
  | raw => if f = tags then .ok ⟨raw, .list⟩ else f.type.coerce raw

end StandardField

/-- The definitions of an organisation's fields by identifier. -/
abbrev FieldCatalog := OrderedMap Text FieldDefinition

namespace FieldCatalog

def ofDefinitions (definitions : List FieldDefinition) : FieldCatalog :=
  .ofList (definitions.map fun d => (d.id, d))

def dropBeginning? (beginning t : Text) : Option Text :=
  if t.startsWith beginning then some (t.drop beginning.length) else none

/-- The identifier that a reference names, with or without a mark for custom fields. -/
def customId (ref : Text) : Text :=
  ((dropBeginning? "custom:" ref) <|> (dropBeginning? "customFields." ref)).getD ref

def fieldType (catalog : FieldCatalog) (ref : Text) : Option FieldType :=
  match StandardField.ofReference? ref with
  | some f => some f.type
  | none => (catalog.get? (customId ref)).map (·.type)

def isUnmapped (catalog : FieldCatalog) (ref : Text) : Bool := (catalog.fieldType ref).isNone

def resolveCustom (catalog : FieldCatalog) (l : Lead) (ref : Text) : Except Fault TypedValue :=
  match catalog.get? (customId ref) with
  | none => .ok .absent
  | some d =>
    match l.customFields.lookup (customId ref) with
    | none => .ok .absent
    | some raw => if raw.isBlank then .ok .absent else d.type.coerce raw

/-- The typed value of a reference on a lead. Standard names win over custom ones, and what is
unknown, missing or cannot be brought to its type is absent. -/
def resolve (catalog : FieldCatalog) (l : Lead) (ref : Text) : Except Fault TypedValue :=
  match StandardField.ofReference? ref with
  | some f => f.resolve l
  | none => catalog.resolveCustom l ref

/-- A reference as a condition holds it: anything but a text is refused. -/
def reference : Value → Except Fault Text
  | .text s => .ok s
  | v => do
    let _ ← v.asKey
    throw (.noMember v.shape "startswith")

end FieldCatalog
end LeadRules
