import LeadRules.Binary64
import LeadRules.Calendar

/-! Times of day on calendar days, to the microsecond. A time without a zone is the number of
microseconds since the start of year 1; order and differences are those of numbers. -/
namespace LeadRules

def microsPerSecond : Nat := 1000000
def microsPerDay : Nat := 86400 * microsPerSecond

namespace DateTime

def limit : Nat := Calendar.dayCount * microsPerDay

end DateTime

structure DateTime where
  micros : Nat
  inRange : micros < DateTime.limit
deriving DecidableEq

namespace DateTime

def ofMicros? (n : Int) : Option DateTime :=
  if h : 0 ≤ n ∧ n < limit then some ⟨n.toNat, by omega⟩ else none

def date (t : DateTime) : Calendar.Date := .ofDayNumber (t.micros / microsPerDay)
def secondOfDay (t : DateTime) : Nat := t.micros % microsPerDay / microsPerSecond
def microsecond (t : DateTime) : Nat := t.micros % microsPerSecond

def seconds (t : DateTime) : Nat := t.micros / microsPerSecond

def epoch : Nat := Calendar.daysBeforeYear 1970 * 86400

def addMicros? (t : DateTime) (n : Int) : Option DateTime := ofMicros? (t.micros + n)

def since (t earlier : DateTime) : Int := t.micros - earlier.micros

/-- Seconds since 1970 as a double: the whole seconds plus the fraction, each rounded. The
first day of year 1 has none, since its neighbour a day before is out of range. -/
def timestamp? (t : DateTime) : Option Binary64 :=
  if t.seconds < 86400 then none
  else
    let whole : Int := t.seconds - epoch
    (Binary64.ofInt? whole).map (·.add (.ofRatio false t.microsecond microsPerSecond))

end DateTime

def secondsOfMicros (n : Int) : Binary64 := .ofRatio (n < 0) n.natAbs microsPerSecond

/-- A wall clock time with the offset of its zone in microseconds, if it has one. -/
structure Stamp where
  wall : DateTime
  offset : Option Int
deriving DecidableEq

namespace Stamp

def ofDateTime (t : DateTime) : Stamp := ⟨t, none⟩

/-- Microseconds from the start of year 1 to the instant; a time without a zone is taken as
UTC. It may lie outside the calendar. -/
def instant (s : Stamp) : Int := s.wall.micros - s.offset.getD 0

def toDateTime? (s : Stamp) : Option DateTime := DateTime.ofMicros? s.instant

def timestamp? (s : Stamp) : Option Binary64 :=
  match s.offset with
  | none => s.wall.timestamp?
  | some _ => some (secondsOfMicros (s.instant - (DateTime.epoch * microsPerSecond : Nat)))

end Stamp
end LeadRules
