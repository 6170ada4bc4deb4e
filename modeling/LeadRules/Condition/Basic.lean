import LeadRules.Operation
import LeadRules.Wire

/-! Filter conditions: one predicate on a field of a lead. -/
namespace LeadRules

structure Condition where
  id : Text
  field : Value
  operator : Operator
  value : Value
  logic : Logic
deriving DecidableEq

namespace Condition

/-- What every condition obeys: it names a field, and an operator that asks for presence has no
value, or an empty one. -/
def check (c : Condition) : Except Fault Condition :=
  if !c.field.truthy then .error (.malformed .conditionWithoutField)
  else if !c.operator.takesValue ∧ !c.value.isBlank then
    .error (.malformed (.valueNotTaken c.operator c.value))
  else .ok c

def operatorOfWire (v : Value) : Except Fault Operator :=
  match v with
  | .text s =>
    match Operator.ofName? s with
    | some op => .ok op
    | none => .error (.malformed (.unknownOperator v))
  | v => .error (.malformed (.unknownOperator v))

/-- The logic in any case, AND when it is left out. The names are plain letters, and no other
letter has one of them as its capital. -/
def logicOfWire (v : Value) : Except Fault Logic :=
  let given := if v.truthy then v.toText else Logic.and.name
  match Logic.ofName? (given.mapChars Char.toUpper) with
  | some l => .ok l
  | none => .error (.malformed (.unknownLogic v))

/-- The identifier given, or the first eight characters of a fresh one. -/
def idOfWire : Value → Op IdSource Text
  | .null => IdSource.drawShort 8
  | v => return v.toText

/-- Reads a condition. An empty value of an operator that takes none is left out, and a missing
identifier is drawn before the condition is checked. -/
def ofWire (v : Value) : Op IdSource Condition := do
  let data ← Op.ofExcept v.members
  let operator ← Op.ofExcept (operatorOfWire (Value.member "operator" data))
  let logic ← Op.ofExcept (logicOfWire (Value.member "logic" data))
  let given := Value.member "value" data
  let value := if !operator.takesValue ∧ given.isBlank then .null else given
  let field := Value.member "field" data
  let id ← idOfWire (Value.member "id" data)
  Op.ofExcept (check
    { id, operator, value, logic, field := if field.truthy then field else .text "" })

def toWire (c : Condition) : Value := .record [
  ("id", .text c.id),
  ("field", c.field),
  ("operator", .text c.operator.name),
  ("value", if c.operator.takesValue then c.value else .null),
  ("logic", .text c.logic.name)]

end Condition
end LeadRules
