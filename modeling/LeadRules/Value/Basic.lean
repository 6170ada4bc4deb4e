import LeadRules.Binary64
import LeadRules.Text.Basic

/-! Wire values: what a JSON text holds. Leads, custom fields and conditions carry values of
any shape, so they are kept as they came. A mapping keeps its entries in order and may have
any scalar as a key; one read from a JSON text has texts only. -/
namespace LeadRules

inductive Value where
  | null
  | bool (b : Bool)
  | int (n : Int)
  | float (x : Binary64)
  | text (t : Text)
  | list (items : List Value)
  | map (entries : List (Value × Value))

namespace Value

instance : Inhabited Value := ⟨.null⟩

mutual
def decEq : (a b : Value) → Decidable (a = b)
  | .null, .null => isTrue rfl
  | .bool a, .bool b => decidable_of_iff (a = b) (by simp)
  | .int a, .int b => decidable_of_iff (a = b) (by simp)
  | .float a, .float b => decidable_of_iff (a = b) (by simp)
  | .text a, .text b => decidable_of_iff (a = b) (by simp)
  | .list a, .list b =>
    have := decEqItems a b
    decidable_of_iff (a = b) (by simp)
  | .map a, .map b =>
    have := decEqEntries a b
    decidable_of_iff (a = b) (by simp)
  | .null, .bool _ | .null, .int _ | .null, .float _ | .null, .text _ | .null, .list _
  | .null, .map _ | .bool _, .null | .bool _, .int _ | .bool _, .float _ | .bool _, .text _
  | .bool _, .list _ | .bool _, .map _ | .int _, .null | .int _, .bool _ | .int _, .float _
  | .int _, .text _ | .int _, .list _ | .int _, .map _ | .float _, .null | .float _, .bool _
  | .float _, .int _ | .float _, .text _ | .float _, .list _ | .float _, .map _
  | .text _, .null | .text _, .bool _ | .text _, .int _ | .text _, .float _ | .text _, .list _
  | .text _, .map _ | .list _, .null | .list _, .bool _ | .list _, .int _ | .list _, .float _
  | .list _, .text _ | .list _, .map _ | .map _, .null | .map _, .bool _ | .map _, .int _
  | .map _, .float _ | .map _, .text _ | .map _, .list _ => isFalse (by simp)
def decEqItems : (a b : List Value) → Decidable (a = b)
  | [], [] => isTrue rfl
  | [], _ :: _ | _ :: _, [] => isFalse (by simp)
  | a :: as, b :: bs =>
    have := decEq a b
    have := decEqItems as bs
    decidable_of_iff (a = b ∧ as = bs) (by simp)
def decEqEntries : (a b : List (Value × Value)) → Decidable (a = b)
  | [], [] => isTrue rfl
  | [], _ :: _ | _ :: _, [] => isFalse (by simp)
  | (j, a) :: as, (k, b) :: bs =>
    have := decEq j k
    have := decEq a b
    have := decEqEntries as bs
    decidable_of_iff ((j = k ∧ a = b) ∧ as = bs) (by simp)
end

instance : DecidableEq Value := decEq

def shape : Value → String
  | null => "NoneType"
  | bool _ => "bool"
  | int _ => "int"
  | float _ => "float"
  | text _ => "str"
  | list _ => "list"
  | map _ => "dict"

/-- Zeros, empty texts and containers, false and null count as no. -/
def truthy : Value → Bool
  | null => false
  | bool b => b
  | int n => n ≠ 0
  | float x => x.isNan || x.place? != some 0
  | text t => t ≠ ""
  | list items => !items.isEmpty
  | map entries => !entries.isEmpty

def isBlank (v : Value) : Bool := v = .null ∨ v = .text ""

def lookup (key : Text) (entries : List (Value × Value)) : Option Value :=
  (entries.find? (·.1 = .text key)).map (·.2)

/-- A text or null, for optional texts of the domain. -/
def ofText? : Option Text → Value
  | none => null
  | some t => text t

def texts (items : List Text) : Value := list (items.map text)

def record (entries : List (Text × Value)) : Value :=
  map (entries.map fun (k, v) => (text k, v))

/-- The whole number that a truth value or an integer counts as. -/
def asInt? : Value → Option Int
  | bool b => some b.toNat
  | int n => some n
  | _ => none

def alikeNumber (a b : Value) : Bool :=
  match a.asInt?, b.asInt?, a, b with
  | some m, some n, _, _ => m = n
  | some m, none, _, .float y => y.sameInt m
  | none, some n, .float x, _ => x.sameInt n
  | none, none, .float x, .float y => x.alike y
  | _, _, _, _ => false

mutual
/-- Equality of what stands in containers: truth values count as 0 and 1, an integer equals a
double of the same value, only the named NaN equals itself, and mappings compare without regard
to order. -/
def alike : Value → Value → Bool
  | null, b => b = .null
  | text t, b => b = .text t
  | bool a, b => alikeNumber (.bool a) b
  | int a, b => alikeNumber (.int a) b
  | float a, b => alikeNumber (.float a) b
  | list a, list b => alikeItems a b
  | list _, _ => false
  | map a, map b => a.length = b.length && alikeEntries a b
  | map _, _ => false
def alikeItems : List Value → List Value → Bool
  | [], [] => true
  | a :: as, b :: bs => alike a b && alikeItems as bs
  | _, _ => false
def alikeEntries : List (Value × Value) → List (Value × Value) → Bool
  | [], _ => true
  | (k, v) :: rest, b => (b.any fun (k', v') => alike k k' && alike v v') && alikeEntries rest b
end

/-- Equality of two values that stand alone, where a NaN equals nothing. -/
def same (a b : Value) : Bool :=
  match a, b with
  | float x, float y => x.same y
  | a, b => alike a b

end Value
end LeadRules
