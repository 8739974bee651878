import SqlMapper.Calendar.Instant
import SqlMapper.Text.Blank
import SqlMapper.Text.Real

/-!
# Reading dates

`Instant.read?` accepts the form of the internet standard, then the stored form with a space or a
`T` before the time of day and with or without a fraction, and last a date alone, which means its
midnight. The first form that fits the whole text decides.

Outside the internet standard reading is lenient: a number may have fewer digits than usual and
blanks before it, and the space before the time of day stands for any run of blanks, even an empty
one. A year without a sign has at most four digits.
-/

namespace SqlMapper

open Text

/-- A reader of the start of a text. -/
abbrev Scan (α : Type) := List Char → Option (α × List Char)

namespace Scan

def char (c : Char) : Scan Unit
  | d :: rest => if d = c then some ((), rest) else none
  | [] => none

/-- Exactly `width` digits. -/
def fixed (width : Nat) : Scan Nat := fun cs =>
  let digits := cs.take width
  if digits.length = width ∧ digits.all isDigit then some (digitsValue digits, cs.drop width)
  else none

/-- One to `width` digits after any blanks. -/
def upTo (width : Nat) : Scan Nat := fun cs =>
  let cs := trimStart cs
  let digits := (cs.take width).takeWhile isDigit
  if digits = [] then none else some (digitsValue digits, cs.drop digits.length)

/-- A year after any blanks: any number of digits after a sign, and up to four without one. -/
def year : Scan Int := fun cs =>
  match trimStart cs with
  | '-' :: rest => signed (-1) rest
  | '+' :: rest => signed 1 rest
  | cs => (upTo 4 cs).map fun (n, rest) => ((n : Int), rest)
where
  signed (sign : Int) (cs : List Char) : Option (Int × List Char) :=
    match spanDigits cs with
    | ([], _) => none
    | (digits, rest) => some (sign * digitsValue digits, rest)

/-- The nanoseconds that the digits after a point stand for; digits past the ninth are dropped. -/
def nanosOf (digits : List Char) : Nat :=
  digitsValue (digits.take 9) * pow10 (9 - digits.length)

/-- One or more digits after a point. -/
def fraction : Scan Nat
  | '.' :: rest =>
      match spanDigits rest with
      | ([], _) => none
      | (digits, rest) => some (nanosOf digits, rest)
  | _ => none

/-- A fraction, or nothing where there is no point. -/
def optionalFraction : Scan Nat
  | '.' :: rest => fraction ('.' :: rest)
  | cs => some (0, cs)

/-- The offset of a clock in seconds: `Z`, or hours and minutes after a sign. -/
def offset : Scan Int
  | 'Z' :: rest => some (0, rest)
  | 'z' :: rest => some (0, rest)
  | '+' :: rest => hoursMinutes 1 rest
  | '-' :: rest => hoursMinutes (-1) rest
  | '\u2212' :: rest => hoursMinutes (-1) rest
  | _ => none
where
  hoursMinutes (sign : Int) (cs : List Char) : Option (Int × List Char) := do
    let (hours, cs) ← fixed 2 cs
    let ((), cs) ← char ':' cs
    let (minutes, cs) ← fixed 2 cs
    if hours < 24 ∧ minutes < 60 then some (sign * (hours * 3600 + minutes * 60 : Nat), cs)
    else none

end Scan

/-- The value of a reading that used the whole text. -/
def Scan.whole? : Option (α × List Char) → Option α
  | some (a, []) => some a
  | _ => none

namespace Instant

/-- The form of the internet standard: every field at full width, and an offset. -/
def readInternet? (cs : List Char) : Option Instant := do
  let (year, cs) ← Scan.fixed 4 cs
  let ((), cs) ← Scan.char '-' cs
  let (month, cs) ← Scan.fixed 2 cs
  let ((), cs) ← Scan.char '-' cs
  let (day, cs) ← Scan.fixed 2 cs
  let cs ← match cs with
    | 'T' :: rest => some rest
    | 't' :: rest => some rest
    | ' ' :: rest => some rest
    | _ => none
  let (hour, cs) ← Scan.fixed 2 cs
  let ((), cs) ← Scan.char ':' cs
  let (minute, cs) ← Scan.fixed 2 cs
  let ((), cs) ← Scan.char ':' cs
  let (second, cs) ← Scan.fixed 2 cs
  let (nanos, cs) ← Scan.optionalFraction cs
  let offset ← Scan.whole? (Scan.offset cs)
  ofCivil? ⟨year, month, day⟩ ⟨hour, minute, second, nanos⟩ offset

/-- A date with leniently read numbers. -/
def scanDate : Scan Date := fun cs => do
  let (year, cs) ← Scan.year cs
  let ((), cs) ← Scan.char '-' cs
  let (month, cs) ← Scan.upTo 2 cs
  let ((), cs) ← Scan.char '-' cs
  let (day, cs) ← Scan.upTo 2 cs
  some (⟨year, month, day⟩, cs)

/-- A time of day with leniently read numbers; `fraction` reads what follows the seconds. -/
def scanClock (fraction : Scan Nat) : Scan ClockTime := fun cs => do
  let (hour, cs) ← Scan.upTo 2 cs
  let ((), cs) ← Scan.char ':' cs
  let (minute, cs) ← Scan.upTo 2 cs
  let ((), cs) ← Scan.char ':' cs
  let (second, cs) ← Scan.upTo 2 cs
  let (nanos, cs) ← fraction cs
  some (⟨hour, minute, second, nanos⟩, cs)

/-- A date and a time of day; `separator` reads what is between them. -/
def readCivil? (separator : Scan Unit) (cs : List Char) : Option Instant := do
  let (date, cs) ← scanDate cs
  let ((), cs) ← separator cs
  let clock ← Scan.whole? (scanClock Scan.optionalFraction cs)
  ofCivil? date clock 0

/-- A date alone. -/
def readDate? (cs : List Char) : Option Instant := do
  let date ← Scan.whole? (scanDate cs)
  ofCivil? date ClockTime.midnight 0

/-- The instant that a text stands for. Blanks around it do not matter. -/
def read? (text : String) : Option Instant :=
  let cs := trim text.toList
  readInternet? cs <|>
    readCivil? (fun cs => some ((), trimStart cs)) cs <|>
    readCivil? (Scan.char 'T') cs <|>
    readDate? cs

end Instant

end SqlMapper
