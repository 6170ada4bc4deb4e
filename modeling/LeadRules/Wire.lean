import LeadRules.Fault
import LeadRules.Value.Key

/-! Reading domain data out of wire values: members of objects, items, numbers and times. -/
namespace LeadRules

/-- A number cut to a whole one; NaN and the infinities have none. -/
def Binary64.toWhole (x : Binary64) : Except Fault Int :=
  match x.truncate? with
  | some n => .ok n
  | none => .error (if x.isNan then .badValue .nanToWhole else .overflow .infinityToWhole)

namespace Value

/-- The entries of an object; other shapes have no members to read. -/
def members : Value → Except Fault (List (Value × Value))
  | map entries => .ok entries
  | v => .error (.noMember v.shape "get")

def member (key : Text) (entries : List (Value × Value)) : Value := (lookup key entries).getD null

def memberOr (key : Text) (default : Value) (entries : List (Value × Value)) : Value :=
  (lookup key entries).getD default

def required (key : Text) (entries : List (Value × Value)) : Except Fault Value :=
  match lookup key entries with
  | some v => .ok v
  | none => .error (.missingKey key)

def subscript (key : Text) : Value → Except Fault Value
  | map entries => required key entries
  | v => .error (.misuse (.notSubscriptable v.shape))

/-- The items that a value is made of: those of a list, the points of a text, the keys of a
mapping. -/
def iterate : Value → Except Fault (List Value)
  | list items => .ok items
  | text t => .ok (t.points.map fun p => text ⟨[p]⟩)
  | map entries => .ok (entries.map (·.1))
  | v => .error (.misuse (.notIterable v.shape))

/-- The items of a value, none for one that counts as no. -/
def itemsOrNone (v : Value) : Except Fault (List Value) :=
  if v.truthy then v.iterate else .ok []

def asKey (v : Value) : Except Fault WrittenKey :=
  match Key.ofValue? v with
  | some key => .ok ⟨key, v⟩
  | none => .error (.misuse (.unhashable v.shape))

/-- The entry that an item at a place of a list makes: a key and a value. -/
def asPair (index : Nat) (v : Value) : Except Fault (WrittenKey × Value) :=
  match v.iterate with
  | .ok [k, x] => return (← k.asKey, x)
  | .ok items => .error (.badValue (.notPair index items.length))
  | .error _ => .error (.misuse (.notSequence index))

def asPairs (index : Nat) : List Value → Except Fault (List (WrittenKey × Value))
  | [] => .ok []
  | v :: rest => return (← v.asPair index) :: (← asPairs (index + 1) rest)

/-- The mapping that a value makes: an object as it is, a list of pairs with later pairs
overwriting earlier ones, and nothing from a value that counts as no. -/
def asMapping : Value → Except Fault Mapping
  | map entries => return .ofList (← entries.mapM fun (k, v) => return (← k.asKey, v))
  | v => return .ofList (← asPairs 0 (← v.itemsOrNone))

/-- A number as a double, reading texts; `none` for what is no number. A truth value is none
here, and a whole number too large for a double is a fault. -/
def toNumber : Value → Except Fault (Option Binary64)
  | int n =>
    match Binary64.ofInt? n with
    | some x => .ok (some x)
    | none => .error (.overflow .wholeToDouble)
  | float x => .ok (some x)
  | text t => .ok (Numeral.readDouble? t)
  | _ => .ok none

/-- A number as a double where truth values count as 0 and 1. -/
def toDouble (v : Value) : Except Fault (Option Binary64) :=
  match v with
  | bool b => toNumber (.int b.toNat)
  | v => toNumber v

/-- A whole number from a wire value: numbers are cut, texts read. -/
def toWhole : Value → Except Fault Int
  | .int n => .ok n
  | .bool b => .ok b.toNat
  | .float x => x.toWhole
  | .text s =>
    match Numeral.readInt s with
    | .ok n => .ok n
    | .error .malformed => .error (.badValue (.notWhole s))
    | .error (.tooManyDigits count) => .error (.badValue (.tooManyDigits count))
  | v => .error (.misuse (.notConvertibleToWhole v.shape))

/-- A double from a wire value: numbers as they are, texts read. -/
def toFloating (v : Value) : Except Fault Binary64 := do
  match ← v.toDouble, v with
  | some x, _ => return x
  | none, .text s => throw (.badValue (.notDouble s))
  | none, v => throw (.misuse (.notConvertibleToDouble v.shape))

end Value

/-- The text of a time with the zone mark Z spelled out as an offset. -/
def spellOutZulu (t : Text) : Text :=
  ⟨t.points.flatMap fun p => if p = .char 'Z' then ("+00:00" : Text).points else [p]⟩

def Iso.readTime (t : Text) : Except Fault Stamp :=
  (Iso.read t).mapError fun e => .badValue (.time e)

def Stamp.toDateTime (s : Stamp) : Except Fault DateTime :=
  match s.toDateTime? with
  | some t => .ok t
  | none => .error (.overflow .date)

/-- Seconds since 1970, as a fault where there are none. -/
def Stamp.timestamp (s : Stamp) : Except Fault Binary64 :=
  match s.timestamp? with
  | some x => .ok x
  | none => .error (.badValue (.time (.year 0)))

namespace Value

/-- A time, of any value by its text; null and the empty text are no time. -/
def toDateTime? (v : Value) : Except Fault (Option DateTime) :=
  if v.isBlank then .ok none
  else return some (← (← Iso.readTime (spellOutZulu v.toText)).toDateTime)

/-- A place on the time axis: a number as it is, else the seconds since 1970 of a time. -/
def toTimestamp (v : Value) : Except Fault (Option Binary64) := do
  match ← v.toNumber with
  | some x => return some x
  | none =>
    match Iso.read (spellOutZulu v.toText) with
    | .ok s => return s.timestamp?
    | .error _ => return none

def ofDateTime? : Option DateTime → Value
  | none => null
  | some t => text t.isoText

end Value
end LeadRules
