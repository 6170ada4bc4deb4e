import LeadRules.Decimal.Shortest
import LeadRules.Text.Basic
import LeadRules.Text.Blank
import LeadRules.Text.Digit

/-! Numbers written as text. Blanks at the ends are dropped, decimal digits of every script
count as digits, and one underscore may stand between two digits. -/
namespace LeadRules.Numeral

/-- The text with its blanks dropped and its digits in their plain form. A half of a surrogate pair is
in no number, like the mark that takes its place. -/
def normalize (t : Text) : List Char :=
  trimBlanks ((t.charsOr '\uFFFD').map fun c =>
    match digitValue? c with
    | some d => Char.ofNat ('0'.toNat + d)
    | none => c)

/-- Drops underscores; `none` when one does not stand between two digits. -/
def dropUnderscores (previous : Char) : List Char → Option (List Char)
  | [] => if previous = '_' then none else some []
  | '_' :: rest => if previous.isDigit then dropUnderscores '_' rest else none
  | c :: rest =>
    if previous = '_' ∧ !c.isDigit then none else (dropUnderscores c rest).map (c :: ·)

/-- The characters of a number's text; `none` when an underscore is out of place. -/
def characters? (t : Text) : Option (List Char) := dropUnderscores ' ' (normalize t)

def digitsValue (cs : List Char) : Nat :=
  cs.foldl (fun n c => n * 10 + (c.toNat - '0'.toNat)) 0

/-- Splits a leading sign off; the flag says whether it was a minus. -/
def signed : List Char → Bool × List Char
  | '-' :: rest => (true, rest)
  | '+' :: rest => (false, rest)
  | cs => (false, cs)

inductive WholeProblem where
  | malformed
  | tooManyDigits (count : Nat)
deriving DecidableEq

/-- With how many digits a whole number may be written. -/
def digitLimit : Nat := 4300

/-- A whole number: a sign and at least one digit. Too many digits are refused before what stands
behind them is looked at. -/
def readInt (t : Text) : Except WholeProblem Int := do
  let (negative, cs) := signed (normalize t)
  let run := cs.takeWhile fun c => c.isDigit || c = '_'
  let some digits := dropUnderscores ' ' run | throw .malformed
  if digitLimit < digits.length then throw (.tooManyDigits digits.length)
  if digits.isEmpty || run.length < cs.length then throw .malformed
  return if negative then -(digitsValue digits : Int) else digitsValue digits

/-- The exponent after a mantissa: nothing, or the letter e with a signed whole number. -/
def readExponent? : List Char → Option Int
  | [] => some 0
  | c :: rest =>
    let (negative, digits) := signed rest
    if c.toLower = 'e' ∧ !digits.isEmpty ∧ digits.all Char.isDigit then
      some (if negative then -(digitsValue digits : Int) else digitsValue digits)
    else none

/-- The double nearest to `digits * 10 ^ exponent`. Far outside the range of doubles the power
is not formed: a leading digit beyond `10 ^ 400` is infinite and one below `10 ^ -400` zero. -/
def nearest (negative : Bool) (digits : Nat) (exponent : Int) : Binary64 :=
  let size := Decimal.digitCount digits + exponent
  if digits = 0 ∨ size < -400 then .number negative 0 (Nat.zero_le _)
  else if 400 < size then .infinity negative
  else .ofRatio negative (digits * Nat.pow 10 exponent.toNat) (Nat.pow 10 (-exponent).toNat)

/-- Digits with an optional point, at least one digit in all, and an optional exponent. -/
def readDecimal? (negative : Bool) (cs : List Char) : Option Binary64 := do
  let whole := cs.takeWhile Char.isDigit
  let afterWhole := cs.dropWhile Char.isDigit
  let (fraction, rest) := match afterWhole with
    | '.' :: more => (more.takeWhile Char.isDigit, more.dropWhile Char.isDigit)
    | _ => ([], afterWhole)
  let exponent ← readExponent? rest
  if whole.isEmpty && fraction.isEmpty then none
  else some (nearest negative (digitsValue (whole ++ fraction)) (exponent - fraction.length))

/-- A double: a signed decimal, or one of the words for infinity and NaN in any case. -/
def readDouble? (t : Text) : Option Binary64 := do
  let (negative, cs) := signed (← characters? t)
  match String.ofList (cs.map Char.toLower) with
  | "nan" => some (.nan .computed)
  | "inf" | "infinity" => some (.infinity negative)
  | _ => readDecimal? negative cs

end LeadRules.Numeral
