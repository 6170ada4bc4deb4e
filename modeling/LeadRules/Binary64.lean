/-! Double-precision numbers. A number other than NaN is a sign and a `rank`, its place in
the order of magnitudes: rank 0 is zero, consecutive ranks are neighbouring doubles, and
`infinityRank` is infinity. Every finite magnitude is a whole number of `2 ^ -1074`
(`units`), so arithmetic is exact on naturals followed by one rounding. -/
namespace LeadRules

namespace Binary64

/-- The ranks from one power of two to the next. -/
def blockSize : Nat := Nat.pow 2 52

/-- The place of infinity: one above the largest finite magnitude. -/
def infinityRank : Nat := 2047 * blockSize

/-- Where a NaN comes from. The one that JSON texts name is always itself, all others differ from
each other. -/
inductive NanOrigin where
  | named
  | computed
deriving DecidableEq

end Binary64

inductive Binary64 where
  | nan (origin : Binary64.NanOrigin)
  | number (negative : Bool) (rank : Nat) (bounded : rank ≤ Binary64.infinityRank)
deriving DecidableEq

namespace Binary64

/-- The magnitude of a rank in units of `2 ^ -1074`. In the first two blocks the ranks are the
units themselves; above, each block is spaced twice as wide as the one before. -/
def units (rank : Nat) : Nat :=
  if rank < blockSize then rank
  else (blockSize + rank % blockSize) * Nat.pow 2 (rank / blockSize - 1)

def unitsPerOne : Nat := Nat.pow 2 1074

/-- The nearest whole number to `numerator / denominator`, a half going to the even neighbour. -/
def roundHalfEven (numerator denominator : Nat) : Nat :=
  let quotient := numerator / denominator
  let twice := 2 * (numerator % denominator)
  if denominator < twice ∨ (twice = denominator ∧ quotient % 2 = 1) then quotient + 1 else quotient

/-- The rank nearest to a quotient of units. The mantissa is rounded in the block that holds
the quotient; a carry out of the block lands on the first rank of the next one. -/
def nearestRank (numerator denominator : Nat) : Nat :=
  let block := (numerator / denominator).log2 - 52
  block * blockSize + roundHalfEven numerator (denominator * Nat.pow 2 block)

def ofUnits (negative : Bool) (numerator denominator : Nat) : Binary64 :=
  .number negative (min (nearestRank numerator denominator) infinityRank) (Nat.min_le_right ..)

def ofRatio (negative : Bool) (numerator denominator : Nat) : Binary64 :=
  ofUnits negative (numerator * unitsPerOne) denominator

def infinity (negative : Bool) : Binary64 := .number negative infinityRank (Nat.le_refl _)
def zero : Binary64 := .number false 0 (Nat.zero_le _)

def isNan : Binary64 → Bool
  | .nan _ => true
  | .number .. => false

def isFinite : Binary64 → Bool
  | .nan _ => false
  | .number _ rank _ => rank < infinityRank

/-- The place of a number on the line; both zeros share place 0 and NaN has none. -/
def place? : Binary64 → Option Int
  | .nan _ => none
  | .number negative rank _ => some (if negative then -(rank : Int) else rank)

/-- Numeric comparison: false as soon as a NaN takes part. -/
def compareWith (holds : Int → Int → Bool) (a b : Binary64) : Bool :=
  match a.place?, b.place? with
  | some x, some y => holds x y
  | _, _ => false

def lt : Binary64 → Binary64 → Bool := compareWith (· < ·)
def le : Binary64 → Binary64 → Bool := compareWith (· ≤ ·)
/-- Numeric equality: the zeros agree and a NaN equals nothing. -/
def same : Binary64 → Binary64 → Bool := compareWith (· = ·)

/-- Equality inside of containers, where the named NaN is recognised. -/
def alike (a b : Binary64) : Bool := a.same b || (a = .nan .named && b = .nan .named)

def signedUnits? : Binary64 → Option Int
  | .nan _ => none
  | .number negative rank _ =>
    if rank < infinityRank then some (if negative then -(units rank : Int) else units rank) else none

/-- A whole number as a double; `none` when it is too large for one. -/
def ofInt? (n : Int) : Option Binary64 :=
  let x := ofRatio (n < 0) n.natAbs 1
  if x.isFinite then some x else none

def ofNat (n : Nat) : Binary64 := ofRatio false n 1

def truncate? (x : Binary64) : Option Int :=
  x.signedUnits?.map (Int.tdiv · unitsPerOne)

def isIntegral (x : Binary64) : Bool :=
  match x.signedUnits? with
  | some u => u.natAbs % unitsPerOne = 0
  | none => false

def sameInt (x : Binary64) (n : Int) : Bool := x.signedUnits? = some (n * unitsPerOne)

def isNegative : Binary64 → Bool
  | .nan _ => false
  | .number negative .. => negative

/-- The sum, rounded once. An exact zero is negative only if both operands are. -/
def add (a b : Binary64) : Binary64 :=
  match a, b with
  | .nan _, _ | _, .nan _ => .nan .computed
  | .number s _ _, .number t _ _ =>
    match a.signedUnits?, b.signedUnits? with
    | some x, some y => if x + y = 0 then .number (s && t) 0 (Nat.zero_le _)
                        else ofUnits (x + y < 0) (x + y).natAbs 1
    | some _, none => infinity t
    | none, some _ => infinity s
    | none, none => if s = t then infinity s else .nan .computed

def mul (a b : Binary64) : Binary64 :=
  match a, b with
  | .nan _, _ | _, .nan _ => .nan .computed
  | .number s r _, .number t q _ =>
    if r < infinityRank ∧ q < infinityRank then ofUnits (s != t) (units r * units q) unitsPerOne
    else if r = 0 ∨ q = 0 then .nan .computed
    else infinity (s != t)

/-- The quotient by a positive whole number that is itself a double, rounded once. -/
def divNat (a : Binary64) (n : Nat) : Binary64 :=
  match a with
  | .nan _ => .nan .computed
  | .number s r _ => if r < infinityRank then ofUnits s (units r) n else infinity s

end Binary64
end LeadRules
