import LeadRules.DateTime.Basic
import LeadRules.Text.Quoted

/-! The ISO 8601 texts of times. Written is one form; read are calendar dates and week dates,
with hyphens or without, any one character before the time of day, hours alone or with minutes
and seconds, a fraction behind a point or a comma of which six digits count, and an offset. A null
character behind a complete time of day or offset ends it, whatever follows. -/
namespace LeadRules

inductive TimeFault where
  | malformed (text : Text)
  | offset (micros : Int)
  | year (n : Nat)
  | month
  | day
  | hour
  | minute
  | second
deriving DecidableEq

/-- A span of time as messages show it: the parts that are not zero, only days being negative. -/
def spanLiteral (micros : Int) : String :=
  let days := micros / microsPerDay
  let rest := (micros % microsPerDay).toNat
  let part (name : String) (n : Int) := if n = 0 then [] else [s!"{name}={n}"]
  let parts := part "days" days ++ part "seconds" (rest / microsPerSecond) ++
    part "microseconds" (rest % microsPerSecond)
  "datetime.timedelta(" ++ (if parts.isEmpty then "0" else ", ".intercalate parts) ++ ")"

def TimeFault.message : TimeFault → String
  | malformed text => "Invalid isoformat string: " ++ quoted text
  | offset micros =>
    "offset must be a timedelta strictly between -timedelta(hours=24) and timedelta(hours=24), not "
      ++ spanLiteral micros ++ "."
  | year n => s!"year {n} is out of range"
  | month => "month must be in 1..12"
  | day => "day is out of range for month"
  | hour => "hour must be in 0..23"
  | minute => "minute must be in 0..59"
  | second => "second must be in 0..59"

namespace Iso

def padded (width n : Nat) : String :=
  let digits := toString n
  String.ofList (List.replicate (width - digits.length) '0') ++ digits

def clockText (seconds : Nat) : String :=
  padded 2 (seconds / 3600) ++ ":" ++ padded 2 (seconds / 60 % 60) ++ ":" ++ padded 2 (seconds % 60)

def fractionText (micros : Nat) : String := if micros = 0 then "" else "." ++ padded 6 micros

end Iso

/-- The date, a T, the time of day, and six digits of a fraction unless it is zero. -/
def DateTime.isoText (t : DateTime) : String :=
  let d := t.date
  Iso.padded 4 d.year ++ "-" ++ Iso.padded 2 d.month ++ "-" ++ Iso.padded 2 d.day ++ "T"
    ++ Iso.clockText t.secondOfDay ++ Iso.fractionText t.microsecond

/-- The sign, hours and minutes of an offset, and seconds with a fraction unless they are zero. -/
def Iso.offsetText (micros : Int) : String :=
  let seconds := micros.natAbs / microsPerSecond
  let rest := micros.natAbs % microsPerSecond
  (if micros < 0 then "-" else "+") ++ Iso.padded 2 (seconds / 3600) ++ ":" ++
    Iso.padded 2 (seconds / 60 % 60) ++
    (if seconds % 60 = 0 ∧ rest = 0 then ""
      else ":" ++ Iso.padded 2 (seconds % 60) ++ Iso.fractionText rest)

def Stamp.isoText (s : Stamp) : String :=
  s.wall.isoText ++ (match s.offset with | none => "" | some micros => Iso.offsetText micros)

namespace Iso

def takeDigits? (count : Nat) (cs : List Char) : Option (Nat × List Char) :=
  let digits := cs.take count
  if digits.length = count ∧ digits.all Char.isDigit then
    some (digits.foldl (fun n c => n * 10 + (c.toNat - '0'.toNat)) 0, cs.drop count)
  else none

/-- A date as it was written. The parts are not yet checked against the calendar. -/
inductive WrittenDate where
  | ofMonth (year month day : Nat)
  | ofWeek (year week day : Nat)

/-- Reads the date from the characters before the time: `hyphens` says whether its parts are
separated. A week without a day means its Monday. -/
def readDate? (cs : List Char) : Option WrittenDate := do
  let (year, rest) ← takeDigits? 4 cs
  let hyphens := rest.head? = some '-'
  let rest := if hyphens then rest.drop 1 else rest
  let skipHyphen (cs : List Char) : Option (List Char) :=
    if hyphens then (if cs.head? = some '-' then some (cs.drop 1) else none) else some cs
  match rest with
  | 'W' :: rest =>
    let (week, rest) ← takeDigits? 2 rest
    if rest.isEmpty then return .ofWeek year week 1
    let (day, _) ← takeDigits? 1 (← skipHyphen rest)
    return .ofWeek year week day
  | rest =>
    let (month, rest) ← takeDigits? 2 rest
    let (day, _) ← takeDigits? 2 (← skipHyphen rest)
    return .ofMonth year month day

/-- How many characters the date takes. The fifth and sixth tell the forms apart. A week date
in one piece is told from one with a day by how many digits follow it before anything else,
since the digits of a time come in pairs. -/
def dateLength? (cs : List Char) : Option Nat :=
  let size := cs.length
  if size = 7 then some 7
  else if cs[4]? = some '-' then
    if cs[5]? = some 'W' then
      if 8 < size ∧ cs[8]? = some '-' then
        if size = 9 then none
        else if 10 < size ∧ (cs[10]?.any Char.isDigit) then some 8 else some 10
      else some 8
    else some 10
  else if cs[4]? = some 'W' then
    let stop := 7 + ((cs.drop 7).takeWhile Char.isDigit).length
    if stop < 9 then some stop else if stop % 2 = 0 then some 7 else some 8
  else some 8

/-- A time of day or an offset as it was written: fields and microseconds. `complete` says that it
ended there. -/
structure WrittenClock where
  fields : List Nat
  micros : Nat
  complete : Bool

/-- Whether a time ends before these characters: there are none, or the first one is null. -/
def isEnd (cs : List Char) : Bool := cs.head?.all (·.toNat = 0)

/-- Up to six digits of a fraction among the first `limit` characters; further digits are
dropped. -/
def readFraction? (fields : List Nat) (cs : List Char) (limit : Nat) : Option WrittenClock := do
  let (digits, rest) ← takeDigits? (min limit 6) cs
  return ⟨fields, digits * Nat.pow 10 (6 - min limit 6), isEnd (rest.dropWhile Char.isDigit)⟩

/-- Reads hours, minutes and seconds from the first `limit` characters of `cs`, `more` fields at
most. Whether a colon follows the hours decides, in `colons`, if one must follow each field. A
point or a comma starts the fraction early; what follows the seconds starts it in any case. -/
def readFields? (colons : Option Bool) (fields : List Nat) (cs : List Char) (limit : Nat) :
    Nat → Option WrittenClock
  | 0 => readFraction? fields cs limit
  | more + 1 => do
    let (value, rest) ← takeDigits? 2 cs
    let fields := fields ++ [value]
    let colons := colons.getD (rest.head? = some ':')
    if limit ≤ 3 then return ⟨fields, 0, isEnd rest⟩
    if colons ∧ rest.head? = some ':' then readFields? (some colons) fields (rest.drop 1) (limit - 3) more
    else if rest.head? = some '.' ∨ rest.head? = some ',' then readFraction? fields (rest.drop 1) (limit - 3)
    else if colons then none
    else readFields? (some colons) fields rest (limit - 2) more

def readClock? (cs : List Char) (limit : Nat) : Option WrittenClock := readFields? none [] cs limit 3

def WrittenClock.field (c : WrittenClock) (i : Nat) : Nat := c.fields[i]?.getD 0

def WrittenClock.seconds (c : WrittenClock) : Nat := c.field 0 * 3600 + c.field 1 * 60 + c.field 2

structure Written where
  date : WrittenDate
  clock : WrittenClock
  offset : Option Int

def isZoneMark (c : Char) : Bool := c = '+' || c = '-' || c = 'Z'

/-- The time of day with the offset behind it. Without one the time must be complete; with one
it may break off at the mark. An offset without a whole second is zero, whatever its fraction. -/
def readTime? (cs : List Char) : Option (WrittenClock × Option Int) := do
  let size := (cs.takeWhile (!isZoneMark ·)).length
  let clock ← readClock? cs size
  match cs.drop size with
  | [] => if clock.complete then return (clock, none) else none
  | 'Z' :: rest => if isEnd rest then return (clock, some 0) else none
  | mark :: rest =>
    let shift ← readClock? rest rest.length
    if !shift.complete then none
    else if shift.seconds = 0 then return (clock, some 0)
    else
      let micros : Int := shift.seconds * microsPerSecond + shift.micros
      return (clock, some (if mark = '-' then -micros else micros))

/-- Every character as often as it has bytes, since the places in a time are counted in bytes. -/
def byBytes (cs : List Char) : List Char := cs.flatMap fun c => List.replicate c.utf8Size c

/-- Half of a surrogate pair may stand before the time of day, at one of the places where a date
can end. It counts as the usual letter there. -/
def plainSeparator (ps : List Point) : List Point :=
  match [7, 8, 10].find? fun place => ps[place]?.any Point.isHalf with
  | some place => ps.set place (.char 'T')
  | none => ps

def readWritten? (text : Text) : Option Written := do
  let plain : Text := ⟨plainSeparator text.points⟩
  let cs := plain.charsOr ' '
  if cs.length < 7 ∨ plain.points.any Point.isHalf then none
  let size ← dateLength? cs
  let date ← readDate? (cs.take size)
  match cs.drop size with
  | [] => return ⟨date, ⟨[], 0, true⟩, none⟩
  | _ :: rest =>
    let (clock, offset) ← readTime? (byBytes rest)
    return ⟨date, clock, offset⟩

/-- The day of a written date. A week date that no week of its year has is malformed; in year 0
the count of weeks has no day to start from. -/
def WrittenDate.dayNumber (malformed : TimeFault) : WrittenDate → Except TimeFault Nat
  | .ofWeek year week day => do
    if week = 0 ∨ 53 < week ∨ day = 0 ∨ 7 < day then throw malformed
    if year = 0 then (if week = 53 then throw malformed else throw .month)
    if week = 53 ∧ !Calendar.hasLongYear year then throw malformed
    let n := Calendar.firstMonday year + ((week - 1) * 7 + (day - 1) : Nat)
    if Calendar.dayCount ≤ n then throw (.year 10000)
    return n.toNat
  | .ofMonth year month day => do
    if year = 0 then throw (.year 0)
    if month = 0 ∨ 12 < month then throw .month
    if day = 0 ∨ Calendar.daysInMonth year month < day then throw .day
    return Calendar.Date.dayNumber ⟨year, month, day⟩

/-- Whether the form of the date alone is refused, before the offset is looked at. -/
def WrittenDate.isMalformed (d : WrittenDate) : Bool :=
  match d.dayNumber (.malformed "") with
  | .error (.malformed _) => true
  | _ => false

/-- The time that a text stands for. Faults of form win over the offset's range, that over the
calendar's, and that over the clock's. -/
def read (text : Text) : Except TimeFault Stamp := do
  let malformed := TimeFault.malformed text
  let some written := readWritten? text | throw malformed
  if written.date.isMalformed then throw malformed
  if let some micros := written.offset then
    if (microsPerDay : Int) ≤ micros.natAbs then throw (.offset micros)
  let days ← written.date.dayNumber malformed
  let clock := written.clock
  if 23 < clock.field 0 then throw .hour
  if 59 < clock.field 1 then throw .minute
  if 59 < clock.field 2 then throw .second
  match DateTime.ofMicros? (days * microsPerDay + clock.seconds * microsPerSecond + clock.micros : Nat) with
  | some wall => return ⟨wall, written.offset⟩
  | none => throw malformed

end Iso
end LeadRules
