import LeadRules.OrderedMap
import LeadRules.Text.Numeral
import LeadRules.Text.Surrogate
import LeadRules.Value.Basic

/-! Reading JSON texts. Reading a value returns it with the characters behind it; a problem of
form keeps the characters from it on, from which its line and column follow. Beside the
standard, the words for NaN and the infinities are read, a number with a point or an exponent
is a double, and of two members with one name the later value counts. Whole numbers are bounded
in their digits, and lists and objects in how deep they lie in each other. -/
namespace LeadRules.Json

inductive Problem where
  | expectingValue
  | expectingName
  | expectingColon
  | expectingComma
  | extraData
  | unterminatedString
  | invalidEscape
  | invalidUnicodeEscape
  | invalidControl
  | byteOrderMark
deriving DecidableEq

def Problem.message : Problem → String
  | .expectingValue => "Expecting value"
  | .expectingName => "Expecting property name enclosed in double quotes"
  | .expectingColon => "Expecting ':' delimiter"
  | .expectingComma => "Expecting ',' delimiter"
  | .extraData => "Extra data"
  | .unterminatedString => "Unterminated string starting at"
  | .invalidEscape => "Invalid \\escape"
  | .invalidUnicodeEscape => "Invalid \\uXXXX escape"
  | .invalidControl => "Invalid control character at"
  | .byteOrderMark => "Unexpected UTF-8 BOM (decode using utf-8-sig)"

/-- A problem and where it lies: line and column from one, offset from zero. -/
structure SyntaxError where
  problem : Problem
  line : Nat
  column : Nat
  offset : Nat
deriving DecidableEq

def SyntaxError.message (e : SyntaxError) : String :=
  s!"{e.problem.message}: line {e.line} column {e.column} (char {e.offset})"

def SyntaxError.locate (text : List Char) (problem : Problem) (remaining : List Char) : SyntaxError :=
  let offset := text.length - remaining.length
  let before := text.take offset
  { problem, offset
    line := before.count '\n' + 1
    column := (before.reverse.takeWhile (· ≠ '\n')).length + 1 }

inductive Container where
  | list
  | object
deriving DecidableEq

def Container.name : Container → String
  | list => "array"
  | object => "object"

/-- Why reading stops. A problem of form has the characters from it on. -/
inductive Refusal where
  | malformed (problem : Problem) (remaining : List Char)
  | tooManyDigits (count : Nat)
  | tooDeep (container : Container)

abbrev Reading (α : Type) := Except Refusal (α × List Char)

def malformed {α : Type} (problem : Problem) (remaining : List Char) : Reading α :=
  .error (.malformed problem remaining)

def depthLimit : Nat := 985

def isSpace (c : Char) : Bool := c = ' ' || c = '\t' || c = '\n' || c = '\r'
def skipSpace (cs : List Char) : List Char := cs.dropWhile isSpace

def hexValue? (c : Char) : Option Nat :=
  if c.isDigit then some (c.toNat - '0'.toNat)
  else if 'a' ≤ c ∧ c ≤ 'f' then some (c.toNat - 'a'.toNat + 10)
  else if 'A' ≤ c ∧ c ≤ 'F' then some (c.toNat - 'A'.toNat + 10)
  else none

def hexValue4? (a b c d : Char) : Option Nat := do
  return (← hexValue? a) * 4096 + (← hexValue? b) * 256 + (← hexValue? c) * 16 + (← hexValue? d)

def unitPoint? (a b c d : Char) : Option Point := (hexValue4? a b c d).map .ofUnit

def escapedChar? : Char → Option Char
  | '"' => some '"'
  | '\\' => some '\\'
  | '/' => some '/'
  | 'b' => some (Char.ofNat 8)
  | 'f' => some (Char.ofNat 12)
  | 'n' => some '\n'
  | 'r' => some '\r'
  | 't' => some '\t'
  | _ => none

/-- The rest of a string whose opening quote stands at `start`; `done` holds its points so far,
last one first. Four hexadecimal digits must have a character behind them, and two escapes that
are halves of a pair make one character. -/
def readString (start : List Char) (done : List Point) : List Char → Reading Text
  | [] => malformed .unterminatedString start
  | '"' :: rest => .ok (⟨done.reverse⟩, rest)
  | ['\\'] => malformed .unterminatedString start
  | '\\' :: 'u' :: a :: b :: c :: d :: '\\' :: 'u' :: e :: f :: g :: h :: next :: rest =>
    match unitPoint? a b c d with
    | none =>
      malformed .invalidUnicodeEscape
        ('u' :: a :: b :: c :: d :: '\\' :: 'u' :: e :: f :: g :: h :: next :: rest)
    | some p =>
      if p.opensPair then
        match unitPoint? e f g h with
        | none => malformed .invalidUnicodeEscape ('u' :: e :: f :: g :: h :: next :: rest)
        | some q =>
          match p.pair? q with
          | some pair => readString start (.char pair :: done) (next :: rest)
          | none => readString start (p :: done) ('\\' :: 'u' :: e :: f :: g :: h :: next :: rest)
      else readString start (p :: done) ('\\' :: 'u' :: e :: f :: g :: h :: next :: rest)
  | '\\' :: 'u' :: a :: b :: c :: d :: next :: rest =>
    match unitPoint? a b c d with
    | none => malformed .invalidUnicodeEscape ('u' :: a :: b :: c :: d :: next :: rest)
    | some p => readString start (p :: done) (next :: rest)
  | '\\' :: 'u' :: rest => malformed .invalidUnicodeEscape ('u' :: rest)
  | '\\' :: c :: rest =>
    match escapedChar? c with
    | some e => readString start (.char e :: done) rest
    | none => malformed .invalidEscape ('\\' :: c :: rest)
  | c :: rest =>
    if c.toNat < 0x20 then malformed .invalidControl (c :: rest)
    else readString start (.char c :: done) rest

/-- The exponent of a number; without a digit in it, it does not belong to the number. -/
def readExponent? (cs : List Char) : Option (Int × List Char) :=
  match cs with
  | c :: rest =>
    if c = 'e' ∨ c = 'E' then
      let (negative, digits) := Numeral.signed rest
      let power := digits.takeWhile Char.isDigit
      if power.isEmpty then none
      else
        let n : Int := Numeral.digitsValue power
        some (if negative then -n else n, digits.dropWhile Char.isDigit)
    else none
  | [] => none

def readFraction? : List Char → Option (List Char × List Char)
  | '.' :: c :: rest =>
    if c.isDigit then some ((c :: rest).takeWhile Char.isDigit, (c :: rest).dropWhile Char.isDigit)
    else none
  | _ => none

/-- The digits before the point: zero alone, or digits that do not start with zero. -/
def readWhole? : List Char → Option (List Char × List Char)
  | '0' :: rest => some (['0'], rest)
  | c :: rest =>
    if c.isDigit then some ((c :: rest).takeWhile Char.isDigit, (c :: rest).dropWhile Char.isDigit)
    else none
  | [] => none

def readInteger (negative : Bool) (digits rest : List Char) : Reading Value :=
  let n : Int := Numeral.digitsValue digits
  if Numeral.digitLimit < digits.length then .error (.tooManyDigits digits.length)
  else .ok (.int (if negative then -n else n), rest)

def readNumber? (cs : List Char) : Option (Reading Value) := do
  let (negative, unsigned) := match cs with
    | '-' :: rest => (true, rest)
    | _ => (false, cs)
  let (whole, afterWhole) ← readWhole? unsigned
  let (fraction, afterFraction) := (readFraction? afterWhole).getD ([], afterWhole)
  let double (power : Int) : Value :=
    .float (Numeral.nearest negative (Numeral.digitsValue (whole ++ fraction)) (power - fraction.length))
  match fraction, readExponent? afterFraction with
  | [], none => some (readInteger negative whole afterFraction)
  | _, some (power, rest) => some (.ok (double power, rest))
  | _, none => some (.ok (double 0, afterFraction))

def readScalar (cs : List Char) : Reading Value :=
  match cs with
  | 'n' :: 'u' :: 'l' :: 'l' :: rest => .ok (.null, rest)
  | 't' :: 'r' :: 'u' :: 'e' :: rest => .ok (.bool true, rest)
  | 'f' :: 'a' :: 'l' :: 's' :: 'e' :: rest => .ok (.bool false, rest)
  | 'N' :: 'a' :: 'N' :: rest => .ok (.float (.nan .named), rest)
  | 'I' :: 'n' :: 'f' :: 'i' :: 'n' :: 'i' :: 't' :: 'y' :: rest => .ok (.float (.infinity false), rest)
  | '-' :: 'I' :: 'n' :: 'f' :: 'i' :: 'n' :: 'i' :: 't' :: 'y' :: rest => .ok (.float (.infinity true), rest)
  | _ => (readNumber? cs).getD (malformed .expectingValue cs)

/-- How many containers may be opened inside one more, if that one may be. -/
def enter (room : Nat) (container : Container) : Except Refusal Nat :=
  match room with
  | 0 => .error (.tooDeep container)
  | room + 1 => .ok room

mutual
/-- One value at the start of the characters; `room` containers may be opened in it. The fuel
bounds the values and members read one inside or after another; a text has fewer of them than
characters. -/
def readValue (room : Nat) : Nat → List Char → Reading Value
  | 0, cs => malformed .expectingValue cs
  | fuel + 1, cs =>
    match cs with
    | '"' :: rest => (readString cs [] rest).map fun (t, rest) => (.text t, rest)
    | '[' :: rest =>
      match enter room .list, skipSpace rest with
      | .error refusal, _ => .error refusal
      | .ok _, ']' :: rest => .ok (.list [], rest)
      | .ok room, inside => (readItems room fuel [] inside).map fun (items, rest) => (.list items, rest)
    | '\x7b' :: rest =>
      match enter room .object, skipSpace rest with
      | .error refusal, _ => .error refusal
      | .ok _, '\x7d' :: rest => .ok (.map [], rest)
      | .ok room, inside => (readMembers room fuel [] inside).map fun (entries, rest) => (.map entries, rest)
    | _ => readScalar cs
/-- The items of a list from the next one to the closing bracket; `done` holds those before. -/
def readItems (room : Nat) : Nat → List Value → List Char → Reading (List Value)
  | 0, _, cs => malformed .expectingValue cs
  | fuel + 1, done, cs =>
    match readValue room fuel cs with
    | .error refusal => .error refusal
    | .ok (item, rest) =>
      match skipSpace rest with
      | ']' :: rest => .ok (done ++ [item], rest)
      | ',' :: rest => readItems room fuel (done ++ [item]) (skipSpace rest)
      | rest => malformed .expectingComma rest
def readMembers (room : Nat) : Nat → List (Value × Value) → List Char → Reading (List (Value × Value))
  | 0, _, cs => malformed .expectingName cs
  | fuel + 1, done, cs =>
    match cs with
    | '"' :: afterQuote =>
      match readString cs [] afterQuote with
      | .error refusal => .error refusal
      | .ok (name, rest) =>
        match skipSpace rest with
        | ':' :: rest =>
          match readValue room fuel (skipSpace rest) with
          | .error refusal => .error refusal
          | .ok (value, rest) =>
            let done := Entries.put (.text name) value done
            match skipSpace rest with
            | '\x7d' :: rest => .ok (done, rest)
            | ',' :: rest => readMembers room fuel done (skipSpace rest)
            | rest => malformed .expectingComma rest
        | rest => malformed .expectingColon rest
    | _ => malformed .expectingName cs
end

def readCharacters (cs : List Char) : Except Refusal Value :=
  if cs.head? = some (Char.ofNat 0xFEFF) then .error (.malformed .byteOrderMark cs)
  else
    match readValue depthLimit (2 * cs.length + 1) (skipSpace cs) with
    | .error refusal => .error refusal
    | .ok (value, rest) =>
      match skipSpace rest with
      | [] => .ok value
      | extra => .error (.malformed .extraData extra)

inductive ReadProblem where
  | malformed (e : SyntaxError)
  | tooManyDigits (count : Nat)
  | tooDeep (container : Container)
deriving DecidableEq

/-- The value of a whole JSON text, blanks around it allowed. -/
def read (text : String) : Except ReadProblem Value :=
  (readCharacters text.toList).mapError fun
    | .malformed problem remaining => .malformed (.locate text.toList problem remaining)
    | .tooManyDigits count => .tooManyDigits count
    | .tooDeep container => .tooDeep container

end LeadRules.Json
