/-! The Gregorian calendar. Days are counted from 0 at the first of January of year 1, a
Monday, so that a date is a number and week days are remainders by 7. -/
namespace LeadRules.Calendar

def isLeap (year : Nat) : Bool := year % 4 = 0 && (year % 100 ≠ 0 || year % 400 = 0)

def daysBeforeYear (year : Nat) : Nat :=
  let past := year - 1
  past * 365 + past / 4 - past / 100 + past / 400

def monthLengths (year : Nat) : List Nat :=
  [31, if isLeap year then 29 else 28, 31, 30, 31, 30, 31, 31, 30, 31, 30, 31]

def daysInMonth (year month : Nat) : Nat := (monthLengths year)[month - 1]?.getD 0

def daysBeforeMonth (year month : Nat) : Nat := ((monthLengths year).take (month - 1)).foldl (· + ·) 0

structure Date where
  year : Nat
  month : Nat
  day : Nat
deriving DecidableEq

def Date.dayNumber (d : Date) : Nat :=
  daysBeforeYear d.year + daysBeforeMonth d.year d.month + (d.day - 1)

/-- The year that holds a day. Dividing by the mean length of a year is off by one at most. -/
def yearOfDay (n : Nat) : Nat :=
  let guess := n * 400 / 146097 + 1
  if n < daysBeforeYear guess then guess - 1
  else if daysBeforeYear (guess + 1) ≤ n then guess + 1
  else guess

/-- The month and the day of the month of the day that is `rest` days into the months left. -/
def monthOfDay (month rest : Nat) : List Nat → Nat × Nat
  | [] => (month, rest + 1)
  | length :: later =>
    if rest < length then (month, rest + 1) else monthOfDay (month + 1) (rest - length) later

def Date.ofDayNumber (n : Nat) : Date :=
  let year := yearOfDay n
  let (month, day) := monthOfDay 1 (n - daysBeforeYear year) (monthLengths year)
  ⟨year, month, day⟩

def dayCount : Nat := daysBeforeYear 10000

/-- The day of the week, Monday being 0. -/
def weekday (dayNumber : Nat) : Nat := dayNumber % 7

/-- The Monday of week 1: the week with the year's first Thursday. It may lie in the year
before, so the count is an integer. -/
def firstMonday (year : Nat) : Int :=
  let first : Int := daysBeforeYear year
  let shift := weekday (daysBeforeYear year)
  if shift ≤ 3 then first - shift else first + 7 - shift

/-- A year has 53 weeks when it starts on a Thursday, or on a Wednesday if it is a leap year. -/
def hasLongYear (year : Nat) : Bool :=
  let start := weekday (daysBeforeYear year)
  start = 3 || (start = 2 && isLeap year)

end LeadRules.Calendar
