import LeadRules.OrderedMap
import LeadRules.Value.Basic

/-! Wire values as keys of maps. The forms of one number, such as 1, 1.0 and true, are one key,
and a map shows the form that came first. The named NaN is one key too. -/
namespace LeadRules

/-- What tells one key from another. Doubles are those without a whole value. -/
inductive Key where
  | null
  | whole (n : Int)
  | double (x : Binary64)
  | text (t : Text)
deriving DecidableEq

namespace Key

/-- A double with a whole value is that number. -/
def ofDouble (x : Binary64) : Key :=
  match x.truncate? with
  | some n => if x.sameInt n then .whole n else .double x
  | none => .double x

/-- The key that a scalar is; lists and mappings are none. -/
def ofValue? : Value → Option Key
  | .null => some null
  | .bool b => some (whole b.toNat)
  | .int n => some (whole n)
  | .float x => some (ofDouble x)
  | .text t => some (text t)
  | .list _ | .map _ => none

end Key

structure WrittenKey where
  key : Key
  value : Value
deriving DecidableEq

def WrittenKey.ofText (t : Text) : WrittenKey := ⟨.text t, .text t⟩

/-- A mapping of the wire: the names as they were first written, each with its value. -/
abbrev Mapping := OrderedMap Key (Value × Value)

def Mapping.ofList (entries : List (WrittenKey × Value)) : Mapping :=
  entries.foldl (fun m (k, v) => m.putWritten k.key k.value v) .empty

def Mapping.lookup (name : Text) (m : Mapping) : Option Value := (m.get? (.text name)).map (·.2)

def Mapping.toWire (m : Mapping) : Value := .map m.values

end LeadRules
