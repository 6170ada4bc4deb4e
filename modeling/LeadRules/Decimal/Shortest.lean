import LeadRules.Binary64

/-! The fewest decimal digits that read back as a given double, and among those the digits
nearest to it. The search walks the decimal grids from one digit to seventeen; on each grid
only the two neighbours of the exact value can lie in the interval that rounds to it. -/
namespace LeadRules

/-- The number `digits * 10 ^ exponent`. -/
structure Decimal where
  digits : Nat
  exponent : Int
deriving DecidableEq, Repr

namespace Decimal

def digitCount (n : Nat) : Nat := (Nat.toDigits 10 n).length

/-- The power of ten of the leading digit of a positive number of units. No double lies below
`10 ^ -330`, so scaling by that much leaves an integral part to count. -/
def leadingExponent (units : Nat) : Int :=
  (digitCount (units * Nat.pow 10 330 / Binary64.unitsPerOne) : Int) - 331

/-- The open or closed interval of magnitudes that round to one rank, in half units. The ends
belong to it exactly when the rank is even, since a half rounds to the even neighbour. -/
structure Interval where
  low : Nat
  value : Nat
  high : Nat
  closed : Bool

def Interval.ofRank (rank : Nat) : Interval :=
  { low := Binary64.units (rank - 1) + Binary64.units rank
    value := 2 * Binary64.units rank
    high := Binary64.units rank + Binary64.units (rank + 1)
    closed := rank % 2 = 0 }

/-- A candidate in the common scale `step` per decimal unit and `scale` per half unit. -/
def Interval.holds (i : Interval) (scale scaled : Nat) : Bool :=
  if i.closed then i.low * scale ≤ scaled ∧ scaled ≤ i.high * scale
  else i.low * scale < scaled ∧ scaled < i.high * scale

/-- The grid point with spacing `10 ^ exponent` that reads back: of two, the nearer one, and of
two equally near the even one. -/
def onGrid? (i : Interval) (exponent : Int) : Option Nat :=
  let step := 2 * Binary64.unitsPerOne * Nat.pow 10 exponent.toNat
  let scale := Nat.pow 10 (-exponent).toNat
  let below := i.value * scale / step
  let above := below + 1
  match i.holds scale (below * step), i.holds scale (above * step) with
  | true, false => some below
  | false, true => some above
  | false, false => none
  | true, true =>
    let toBelow := i.value * scale - below * step
    let toAbove := above * step - i.value * scale
    if toBelow < toAbove ∨ (toBelow = toAbove ∧ below % 2 = 0) then some below else some above

/-- Tries the grids of `digits`, `digits + 1`, … significant digits, `tries` of them. -/
def search (i : Interval) (leading : Int) (digits : Nat) : Nat → Decimal
  | 0 => ⟨i.value / (2 * Binary64.unitsPerOne), 0⟩
  | tries + 1 =>
    let exponent := leading + 1 - digits
    match onGrid? i exponent with
    | some d => ⟨d, exponent⟩
    | none => search i leading (digits + 1) tries

/-- Moves trailing zeros of the digits into the exponent, at most `tries` of them. -/
def trim (d : Decimal) : Nat → Decimal
  | 0 => d
  | tries + 1 => if d.digits % 10 = 0 then trim ⟨d.digits / 10, d.exponent + 1⟩ tries else d

/-- The shortest decimal of a finite rank; zero is `0 * 10 ^ 0`. -/
def shortest (rank : Nat) : Decimal :=
  if rank = 0 then ⟨0, 0⟩
  else (search (.ofRank rank) (leadingExponent (Binary64.units rank)) 1 17).trim 17

/-- How a double is written: positionally while the leading digit's power of ten lies in
`lowest ≤ e < highest`, otherwise with an exponent of at least two digits. -/
structure Layout where
  lowest : Int
  highest : Int

def Layout.standard : Layout := ⟨-4, 16⟩

private def zeros (n : Nat) : String := String.ofList (List.replicate n '0')

/-- Digits with a point after the first `point` of them, padded with zeros on either side. A
whole number keeps one zero after the point. -/
def positional (digits : List Char) (point : Int) : String :=
  if point ≤ 0 then "0." ++ zeros (-point).toNat ++ String.ofList digits
  else if (digits.length : Int) ≤ point then
    String.ofList digits ++ zeros (point - digits.length).toNat ++ ".0"
  else
    String.ofList (digits.take point.toNat) ++ "." ++ String.ofList (digits.drop point.toNat)

/-- One digit, the point and the rest if there is any, then a signed exponent. -/
def scientific (digits : List Char) (power : Int) : String :=
  let mantissa := match digits with
    | [] => "0"
    | [d] => d.toString
    | d :: rest => d.toString ++ "." ++ String.ofList rest
  let size := toString power.natAbs
  mantissa ++ (if power < 0 then "e-" else "e+") ++ (if size.length < 2 then "0" ++ size else size)

def write (style : Layout) (d : Decimal) : String :=
  let digits := Nat.toDigits 10 d.digits
  let power := d.exponent + digits.length - 1
  if d.digits = 0 then "0.0"
  else if style.lowest ≤ power ∧ power < style.highest then positional digits (power + 1)
  else scientific digits power

end Decimal

/-- The shortest text that reads back as the double, always with a point or an exponent. -/
def Binary64.toText : Binary64 → String
  | .nan _ => "nan"
  | .number negative rank _ =>
    let magnitude :=
      if rank < Binary64.infinityRank then (Decimal.shortest rank).write .standard else "inf"
    if negative then "-" ++ magnitude else magnitude

end LeadRules
