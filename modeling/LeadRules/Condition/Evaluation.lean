import LeadRules.Condition.Basic
import LeadRules.Field
import LeadRules.Text.Casing

/-! Evaluating conditions on a lead. A chain folds from the left: the first condition starts
the result, and each later one joins it by its own logic. Every condition is checked, also
where the result is already settled. -/
namespace LeadRules

namespace TypedValue

/-- Neither missing nor an empty text or list. -/
def isSet (t : TypedValue) : Bool :=
  match t.value with
  | .null => false
  | .text t => t ≠ ""
  | .list items => !items.isEmpty
  | _ => true

/-- The text for comparing with texts: a whole number loses its point. -/
def comparedText : Value → Text
  | .null => ""
  | .float x =>
    if x.isIntegral then
      match x.truncate? with
      | some n => toString n
      | none => x.toText
    else x.toText
  | v => v.toText

/-- An operand in the numeric domain of a field: a time for dates, a number for all others. -/
def operand (type : FieldType) (raw : Value) : Except Fault (Option Binary64) :=
  if type = .date then raw.toTimestamp else raw.toNumber

/-- Compares as numbers; what is no number on either side compares as false. -/
def compare (holds : Binary64 → Binary64 → Bool) (t : TypedValue) (raw : Value) : Except Fault Bool := do
  match t.value with
  | .null | .list _ => return false
  | value =>
    let left ← value.toNumber
    let right ← operand t.type raw
    match left, right with
    | some x, some y => return holds x y
    | _, _ => return false

def occursIn (needle : List Point) : List Point → Bool
  | [] => needle.isEmpty
  | text@(_ :: rest) => needle.isPrefixOf text || occursIn needle rest

def containsText (raw value : Text) : Bool :=
  occursIn (lowerCase raw).points (lowerCase value).points

/-- Whether the lower-case text of the operand occurs in that of the value, or of one item. -/
def contains (t : TypedValue) (raw : Value) : Bool :=
  match t.value, raw with
  | .null, _ => false
  | _, .null => false
  | .list items, raw => items.any fun item => containsText raw.toText item.toText
  | value, raw => containsText raw.toText (comparedText value)

/-- Equal as numbers where the field is numeric and the operand has a number, else as texts; a
list equals what one of its items equals. -/
def equals (t : TypedValue) (raw : Value) : Except Fault Bool :=
  match t.value with
  | .null => .ok false
  | .list items => .ok (items.any fun item => item.toText = raw.toText)
  | value => do
    let right ← if t.isNumeric then operand t.type raw else pure none
    match value, right with
    | .float x, some y => return x.same y
    | _, _ => return comparedText value = comparedText raw

end TypedValue

namespace Condition

def holdsFor (c : Condition) (t : TypedValue) : Except Fault Bool :=
  match c.operator with
  | .isSet => .ok t.isSet
  | .isNotSet => .ok (!t.isSet)
  | .greater => t.compare (fun x y => y.lt x) c.value
  | .less => t.compare Binary64.lt c.value
  | .contains => .ok (t.contains c.value)
  | .equals => t.equals c.value
  | .notEquals => return !(← t.equals c.value)

def holds (catalog : FieldCatalog) (l : Lead) (c : Condition) : Except Fault Bool := do
  c.holdsFor (← catalog.resolve l (← FieldCatalog.reference c.field))

def join (c : Condition) (before now : Bool) : Bool :=
  match c.logic with
  | .or => before || now
  | .and => before && now

/-- The rest of a chain, given the result of what comes before it. -/
def evaluateFrom (catalog : FieldCatalog) (l : Lead) (result : Bool) : List Condition → Except Fault Bool
  | [] => .ok result
  | c :: rest => do evaluateFrom catalog l (c.join result (← c.holds catalog l)) rest

/-- Whether a lead meets a chain; it meets the empty one. -/
def evaluate (catalog : FieldCatalog) (l : Lead) : List Condition → Except Fault Bool
  | [] => .ok true
  | c :: rest => do evaluateFrom catalog l (← c.holds catalog l) rest

def segment (catalog : FieldCatalog) (conditions : List Condition) : List Lead → Except Fault (List Lead)
  | [] => .ok []
  | l :: rest => do
    let met ← evaluate catalog l conditions
    let others ← segment catalog conditions rest
    return if met then l :: others else others

/-- Whether conditions after the first, of three or more, differ in their logic. -/
def isMixed (conditions : List Condition) : Bool :=
  3 ≤ conditions.length &&
    (conditions.drop 1).any fun c => (conditions.drop 1).any fun d => c.logic ≠ d.logic

def unmapped? (catalog : FieldCatalog) (c : Condition) : Option Text :=
  match c.field with
  | .text ref => if catalog.isUnmapped ref then some ref else none
  | _ => none

/-- The conditions of a chain that are reached: up to the first that cannot be checked. -/
def reached (catalog : FieldCatalog) (l : Lead) : List Condition → List Condition
  | [] => []
  | c :: rest =>
    match c.holds catalog l with
    | .ok _ => c :: reached catalog l rest
    | .error _ => [c]

def notes (catalog : FieldCatalog) (l : Lead) (conditions : List Condition) : List Text :=
  let mixed : List Text :=
    if isMixed conditions then
      [s!"Mixed AND/OR chain of {conditions.length} conditions evaluated as a left fold "
        ++ "(grouping semantics unconfirmed)"]
    else []
  mixed ++ ((reached catalog l conditions).filterMap (unmapped? catalog)).map fun (ref : Text) =>
    "Unmapped field reference '" ++ ref ++ "' resolved to null"

end Condition
end LeadRules
