import LeadRules.Text.Basic
import LeadRules.Text.Printable

/-! Quoted texts: how a text is shown inside a message. -/
namespace LeadRules

def hexDigits (width n : Nat) : String :=
  let digits := String.ofList (Nat.toDigits 16 n)
  String.ofList (List.replicate (width - digits.length) '0') ++ digits

def unitEscape (n : Nat) : String := "\\u" ++ hexDigits 4 n

/-- One character between `quote`s. The quote and the backslash are escaped, so are characters
that do not print, by the shortest of the three hexadecimal forms that holds them. -/
def quoteChar (quote c : Char) : String :=
  if c = quote ∨ c = '\\' then "\\" ++ c.toString
  else if c = '\t' then "\\t"
  else if c = '\n' then "\\n"
  else if c = '\r' then "\\r"
  else if CharSet.printable.contains c then c.toString
  else if c.toNat ≤ 0xFF then "\\x" ++ hexDigits 2 c.toNat
  else if c.toNat ≤ 0xFFFF then unitEscape c.toNat
  else "\\U" ++ hexDigits 8 c.toNat

def quotePoint (quote : Char) : Point → String
  | .char c => quoteChar quote c
  | .half h => unitEscape h.code

/-- Single quotes stand around the text unless it has some itself and no double ones. -/
def quoteFor (t : Text) : Char :=
  if t.points.contains (.char '\'') && !t.points.contains (.char '"') then '"' else '\''

def quoted (t : Text) : String :=
  let quote := quoteFor t
  quote.toString ++ String.join (t.points.map (quotePoint quote)) ++ quote.toString

end LeadRules
