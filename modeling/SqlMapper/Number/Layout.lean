import SqlMapper.Number.Shortest

/-!
# Written forms of binary numbers

Two forms, both from the shortest decimal that reads back. `Binary64.plainText` is positional
whatever the size and has a point only where there is a fraction, as in SQL literals.
`Binary64.jsonText` always shows that the number is not an integer, by a point or an exponent, and
is positional from `1e-5` up to below `1e16`.
-/

namespace SqlMapper

def zeros (n : Nat) : List Char := List.replicate n '0'

namespace Decimal

/-- The digits without an exponent, with no point for an integer. -/
def positional (x : Decimal) : List Char :=
  let digits := Nat.toDigits 10 x.digits
  let places := (-x.exponent).toNat
  if 0 ≤ x.exponent then digits ++ zeros x.exponent.toNat
  else if places < digits.length then
    digits.take (digits.length - places) ++ '.' :: digits.drop (digits.length - places)
  else '0' :: '.' :: (zeros (places - digits.length) ++ digits)

/-- One digit, the others after a point, and a signed exponent. -/
def scientific (x : Decimal) : List Char :=
  let digits := Nat.toDigits 10 x.digits
  let exponent := x.exponent + digits.length - 1
  let mantissa := match digits with
    | lead :: rest@(_ :: _) => lead :: '.' :: rest
    | _ => digits
  mantissa ++ 'e' :: (if exponent < 0 then '-' else '+') :: Nat.toDigits 10 exponent.natAbs

end Decimal

namespace Binary64

def signed (x : Binary64) (text : List Char) : List Char :=
  if x.negative then '-' :: text else text

/-- The text of a number without an exponent. A number halfway between two shortest decimals takes
the larger. -/
def plainText (x : Binary64) : String :=
  if x.isNan then "NaN"
  else
    let body :=
      if !x.isFinite then ['i', 'n', 'f']
      else if x.isZero then ['0']
      else (x.shortest .up).positional
    String.ofList (x.signed body)

/-- The text of a finite number in JSON. A number halfway between two shortest decimals takes the
even one. -/
def jsonText (x : Binary64) : String :=
  let body :=
    if x.isZero then ['0', '.', '0']
    else
      let d := x.shortest .even
      let point := d.exponent + digitCount d.digits
      if point < -4 ∨ 16 < point then d.scientific
      else if 0 ≤ d.exponent then d.positional ++ ['.', '0']
      else d.positional
  String.ofList (x.signed body)

end Binary64

end SqlMapper
