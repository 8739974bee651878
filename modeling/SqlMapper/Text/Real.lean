import SqlMapper.Number.Binary64
import SqlMapper.Text.Integer

/-!
# Decimal reals

Reads a real number written in decimal and rounds it once to the nearest binary number. Digits may
stand on either side of the point only, an exponent may follow, and the words for infinity and
not-a-number are accepted in any case.
-/

namespace SqlMapper.Text

/-- The digits at the start of a text, and the rest. -/
def spanDigits (cs : List Char) : List Char × List Char :=
  (cs.takeWhile isDigit, cs.dropWhile isDigit)

/-- The exponent that ends a numeral; none is zero. -/
def exponentPart? : List Char → Option Int
  | [] => some 0
  | e :: rest =>
      if e = 'e' ∨ e = 'E' then
        match rest with
        | '-' :: digits => (digits? digits).map fun n => -(n : Int)
        | '+' :: digits => (digits? digits).map fun n => (n : Int)
        | digits => (digits? digits).map fun n => (n : Int)
      else none

/-- Rounds `digits · 10 ^ exponent`. Sizes far outside the format are settled by their digit count
alone. -/
def roundDecimal (negative : Bool) (digits : List Char) (exponent : Int) : Binary64 :=
  let significant := digits.dropWhile (· == '0')
  let size := (significant.length : Int) + exponent
  if significant = [] then Binary64.zero negative
  else if 400 < size then Binary64.infinity negative
  else if size < -400 then Binary64.zero negative
  else Binary64.ofDecimal negative (digitsValue significant) exponent

/-- A numeral without a sign. -/
def unsignedReal? (negative : Bool) (cs : List Char) : Option Binary64 :=
  let (whole, afterWhole) := spanDigits cs
  let (fraction, afterFraction) := match afterWhole with
    | '.' :: rest => spanDigits rest
    | _ => ([], afterWhole)
  if whole = [] ∧ fraction = [] then none
  else (exponentPart? afterFraction).map fun e =>
    roundDecimal negative (whole ++ fraction) (e - fraction.length)

def real? (cs : List Char) : Option Binary64 :=
  let (negative, body) : Bool × List Char := match cs with
    | '-' :: rest => (true, rest)
    | '+' :: rest => (false, rest)
    | _ => (false, cs)
  let word := String.ofList (body.map Char.toLower)
  if word = "inf" ∨ word = "infinity" then some (Binary64.infinity negative)
  else if word = "nan" then some Binary64.nan
  else unsignedReal? negative body

end SqlMapper.Text
