import LeadRules.Text.Surrogate
import LeadRules.Value.Text

/-! Writing JSON texts in ASCII, on one line or indented by two blanks a level. Doubles are
written with the fewest digits that read back. -/
namespace LeadRules.Json

/-- A point by its units: two for a character beyond the basic plane. -/
def escapeUnits (p : Point) : String := String.join (p.units.map unitEscape)

/-- One character of a string: the short escapes, printable ASCII as it is, and all else by its
units. -/
def escapeChar (c : Char) : String :=
  if c = '"' then "\\\""
  else if c = '\\' then "\\\\"
  else if c = '\n' then "\\n"
  else if c = '\r' then "\\r"
  else if c = '\t' then "\\t"
  else if c.toNat = 8 then "\\b"
  else if c.toNat = 12 then "\\f"
  else if 0x20 ≤ c.toNat ∧ c.toNat ≤ 0x7E then c.toString
  else escapeUnits (.char c)

def escapePoint : Point → String
  | .char c => escapeChar c
  | p => escapeUnits p

def writeString (t : Text) : String := "\"" ++ String.join (t.points.map escapePoint) ++ "\""

def writeDouble (x : Binary64) : String :=
  if x.isNan then "NaN"
  else if x.isFinite then x.toText
  else if x.isNegative then "-Infinity" else "Infinity"

def writeScalar : Value → String
  | .null => "null"
  | .bool b => if b then "true" else "false"
  | .int n => toString n
  | .float x => writeDouble x
  | .text _ | .list _ | .map _ => ""

/-- The name of a key: a text as it is, another scalar as it is written. -/
def keyName : Value → Text
  | .text t => t
  | v => writeScalar v

/-- The blanks of the layout: between items, and before the first and after the last of them. -/
inductive Layout where
  | oneLine
  | indented (depth : Nat)

def lineBreak (depth : Nat) : String := "\n" ++ String.ofList (List.replicate (2 * depth) ' ')

def Layout.deeper : Layout → Layout
  | .oneLine => .oneLine
  | .indented depth => .indented (depth + 1)

def Layout.edge : Layout → String
  | .oneLine => ""
  | .indented depth => lineBreak depth

def Layout.separator : Layout → String
  | .oneLine => ", "
  | .indented depth => "," ++ lineBreak depth

mutual
def writeIn (layout : Layout) : Value → String
  | .text t => writeString t
  | .list [] => "[]"
  | .list (v :: rest) =>
    "[" ++ layout.deeper.edge ++ writeIn layout.deeper v ++ writeItems layout.deeper rest ++
      layout.edge ++ "]"
  | .map [] => "\x7b\x7d"
  | .map ((k, v) :: rest) =>
    "\x7b" ++ layout.deeper.edge ++ writeString (keyName k) ++ ": " ++ writeIn layout.deeper v
      ++ writeMembers layout.deeper rest ++ layout.edge ++ "\x7d"
  | .null => writeScalar .null
  | .bool b => writeScalar (.bool b)
  | .int n => writeScalar (.int n)
  | .float x => writeScalar (.float x)
def writeItems (layout : Layout) : List Value → String
  | [] => ""
  | v :: rest => layout.separator ++ writeIn layout v ++ writeItems layout rest
def writeMembers (layout : Layout) : List (Value × Value) → String
  | [] => ""
  | (k, v) :: rest =>
    layout.separator ++ writeString (keyName k) ++ ": " ++ writeIn layout v ++ writeMembers layout rest
end

def write (v : Value) : String := writeIn .oneLine v

/-- The value over indented lines, the form of the state files. -/
def writeIndented (v : Value) : String := writeIn (.indented 0) v

end LeadRules.Json
