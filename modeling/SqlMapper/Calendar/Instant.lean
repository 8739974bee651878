import SqlMapper.Calendar.Date

/-!
# Points in time

An `Instant` is a point in universal time to the nanosecond. The second after 23:59:59 that a leap
second adds has no number of its own: it is the last second of its minute with a thousand million
nanoseconds or more.
-/

namespace SqlMapper

namespace Instant

/-- The seconds that the representable years span. -/
def minSeconds : Int := -8334601228800

def maxSeconds : Int := 8210266876799

end Instant

structure Instant where
  /-- Seconds from 1970-01-01 00:00:00. -/
  seconds : Int
  nanos : Nat
  inRange : Instant.minSeconds ≤ seconds ∧ seconds ≤ Instant.maxSeconds
  leapAtMinuteEnd : nanos < 2000000000 ∧ (1000000000 ≤ nanos → seconds % 60 = 59)
  deriving DecidableEq

namespace Instant

def of? (seconds : Int) (nanos : Nat) : Option Instant :=
  if h : (minSeconds ≤ seconds ∧ seconds ≤ maxSeconds) ∧
      (nanos < 2000000000 ∧ (1000000000 ≤ nanos → seconds % 60 = 59)) then
    some ⟨seconds, nanos, h.1, h.2⟩
  else none

def isLeapSecond (t : Instant) : Bool := decide (1000000000 ≤ t.nanos)

def dayNumber (t : Instant) : Int := t.seconds / 86400

def date (t : Instant) : Date := Date.ofDayNumber t.dayNumber

def secondOfDay (t : Instant) : Nat := (t.seconds % 86400).toNat

def hour (t : Instant) : Nat := t.secondOfDay / 3600

def minute (t : Instant) : Nat := t.secondOfDay / 60 % 60

/-- The second of the minute; 60 for a leap second. -/
def second (t : Instant) : Nat := t.secondOfDay % 60 + if t.isLeapSecond then 1 else 0

/-- The nanoseconds past the second. -/
def subsecond (t : Instant) : Nat := t.nanos % 1000000000

/-- The instant so many milliseconds from 1970-01-01 00:00:00, if it can be represented. -/
def ofMillis? (millis : Int) : Option Instant :=
  of? (millis / 1000) ((millis % 1000).toNat * 1000000)

end Instant

/-- What a clock shows on a day. A second of 60 is a leap second. -/
structure ClockTime where
  hour : Nat
  minute : Nat
  second : Nat
  nanos : Nat
  deriving DecidableEq, Repr

namespace ClockTime

def midnight : ClockTime := ⟨0, 0, 0, 0⟩

def IsValid (c : ClockTime) : Prop :=
  c.hour < 24 ∧ c.minute < 60 ∧ c.second ≤ 60 ∧ c.nanos < 1000000000

instance (c : ClockTime) : Decidable c.IsValid := by unfold IsValid; infer_instance

end ClockTime

/-- The instant at which a clock that is `offset` seconds ahead of universal time shows a date and
a time of day, if these exist and the instant can be represented. -/
def Instant.ofCivil? (date : Date) (clock : ClockTime) (offset : Int) : Option Instant :=
  if date.IsValid ∧ clock.IsValid then
    let leap := clock.second = 60
    let second := if leap then 59 else clock.second
    let ofDay := clock.hour * 3600 + clock.minute * 60 + second
    Instant.of? (date.dayNumber * 86400 + ofDay - offset)
      (if leap then clock.nanos + 1000000000 else clock.nanos)
  else none

end SqlMapper
