/-!
# The calendar

Dates of the Gregorian calendar, extended to all years, and their numbers counted in days from
1970-01-01. Inside, a year begins on the first of March, so that a leap day is the last day of its
year and of every cycle of 4, 100 and 400 years that has one.
-/

namespace SqlMapper

structure Date where
  year : Int
  month : Nat
  day : Nat
  deriving DecidableEq, Repr, Inhabited

namespace Date

def isLeap (year : Int) : Bool := year % 4 == 0 && (year % 100 != 0 || year % 400 == 0)

def daysInMonth (year : Int) (month : Nat) : Nat :=
  if month = 2 then if isLeap year then 29 else 28
  else if month = 4 ∨ month = 6 ∨ month = 9 ∨ month = 11 then 30
  else 31

/-- The years that can be represented. -/
def minYear : Int := -262143

def maxYear : Int := 262142

/-- A day that exists, in a year that can be represented. -/
def IsValid (d : Date) : Prop :=
  minYear ≤ d.year ∧ d.year ≤ maxYear ∧ 1 ≤ d.month ∧ d.month ≤ 12 ∧ 1 ≤ d.day ∧
    d.day ≤ daysInMonth d.year d.month

instance (d : Date) : Decidable d.IsValid := by unfold IsValid; infer_instance

/-- Days from the first of March to the first of a month; March is month 0. -/
def daysBeforeMonth (month : Int) : Int := (153 * month + 2) / 5

/-- The number of a date, 0 for 1970-01-01. -/
def dayNumber (d : Date) : Int :=
  let month : Int := if 3 ≤ d.month then (d.month : Int) - 3 else (d.month : Int) + 9
  let year : Int := if 3 ≤ d.month then d.year else d.year - 1
  365 * year + year / 4 - year / 100 + year / 400 + daysBeforeMonth month + d.day - 719469

/-- The date of a number. The cycles of 400, 100, 4 and 1 years are taken off in turn; the last
century of four and the last year of four are a day longer. -/
def ofDayNumber (n : Int) : Date :=
  let days := n + 719468
  let inEra := days % 146097
  let century := min 3 (inEra / 36524)
  let inCentury := inEra - 36524 * century
  let four := inCentury / 1461
  let inFour := inCentury - 1461 * four
  let one := min 3 (inFour / 365)
  let inYear := inFour - 365 * one
  let year := 400 * (days / 146097) + 100 * century + 4 * four + one
  let month := (5 * inYear + 2) / 153
  let day := inYear - daysBeforeMonth month + 1
  { year := if month < 10 then year else year + 1
    month := (if month < 10 then month + 3 else month - 9).toNat
    day := day.toNat }

end Date

end SqlMapper
