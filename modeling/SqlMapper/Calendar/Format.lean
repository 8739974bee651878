import SqlMapper.Calendar.Instant
import SqlMapper.Text.Integer

/-!
# Written dates

Two forms of an instant. `Instant.stored` is what date columns hold: date and time of day to the
second, separated by a space. `Instant.internet` is the form of the internet standard, to the
nanosecond and with the offset of universal time; its fraction has three, six or nine digits, as
many as are needed.

Years from 0 to 9999 have four digits; other years are written with a sign.
-/

namespace SqlMapper

open Text

def yearChars (year : Int) : List Char :=
  if 0 ≤ year ∧ year ≤ 9999 then paddedDigits 4 year.toNat
  else (if year < 0 then '-' else '+') :: paddedDigits 4 year.natAbs

def Date.chars (d : Date) : List Char :=
  yearChars d.year ++ '-' :: (paddedDigits 2 d.month ++ '-' :: paddedDigits 2 d.day)

namespace Instant

def clockChars (t : Instant) : List Char :=
  paddedDigits 2 t.hour ++ ':' :: (paddedDigits 2 t.minute ++ ':' :: paddedDigits 2 t.second)

/-- The fraction of the second with the fewest groups of three digits, none if it is zero. -/
def fractionChars (t : Instant) : List Char :=
  let n := t.subsecond
  if n = 0 then []
  else if n % 1000000 = 0 then '.' :: paddedDigits 3 (n / 1000000)
  else if n % 1000 = 0 then '.' :: paddedDigits 6 (n / 1000)
  else '.' :: paddedDigits 9 n

def storedChars (t : Instant) : List Char := t.date.chars ++ ' ' :: t.clockChars

/-- The text that a date column holds. -/
def stored (t : Instant) : String := String.ofList t.storedChars

/-- The form of the internet standard. -/
def internet (t : Instant) : String :=
  String.ofList
    (t.date.chars ++ 'T' :: (t.clockChars ++ t.fractionChars ++ ['+', '0', '0', ':', '0', '0']))

end Instant

end SqlMapper
