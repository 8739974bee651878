import SqlMapper.Number.Power

/-!
# Binary floating-point numbers of 64 bits

A number is its bit pattern, and its value is read off the fields: a finite pattern stands for
`± significand · 2 ^ scale`. Nothing here uses the run-time floating point of the language, so
every operation can be unfolded. Arithmetic is exact on naturals and rounds once at the end, to
the nearest pattern and to the even one of two nearest.
-/

namespace SqlMapper

/-- A binary floating-point number, kept as its sign, exponent and fraction bits. -/
structure Binary64 where
  bits : UInt64
  deriving DecidableEq, Repr, Inhabited

/-- The quotient of two naturals rounded to a natural, a half going to the even neighbour. -/
def divHalfEven (num den : Nat) : Nat :=
  let floor := num / den
  let twice := 2 * (num % den)
  if den < twice ∨ (twice = den ∧ floor % 2 = 1) then floor + 1 else floor

namespace Binary64

def negative (x : Binary64) : Bool := decide (pow2 63 ≤ x.bits.toNat)

/-- The eleven exponent bits. -/
def biased (x : Binary64) : Nat := x.bits.toNat / pow2 52 % pow2 11

/-- The fifty-two fraction bits. -/
def fraction (x : Binary64) : Nat := x.bits.toNat % pow2 52

def isFinite (x : Binary64) : Bool := x.biased != 2047

def isNan (x : Binary64) : Bool := x.biased == 2047 && x.fraction != 0

/-- Holds of both zeros. -/
def isZero (x : Binary64) : Bool := x.biased == 0 && x.fraction == 0

/-- The integer factor of a finite number; the leading bit is implied unless the exponent is
least. -/
def significand (x : Binary64) : Nat :=
  if x.biased = 0 then x.fraction else pow2 52 + x.fraction

/-- The power of two of a finite number. -/
def scale (x : Binary64) : Int := (max x.biased 1 : Nat) - 1075

def ofNatBits (negative : Bool) (magnitude : Nat) : Binary64 :=
  ⟨UInt64.ofNat (if negative then pow2 63 + magnitude else magnitude)⟩

def zero (negative : Bool) : Binary64 := ofNatBits negative 0

def infinity (negative : Bool) : Binary64 := ofNatBits negative (2047 * pow2 52)

def nan : Binary64 := ofNatBits false (2047 * pow2 52 + pow2 51)

def neg (x : Binary64) : Binary64 :=
  ofNatBits (!x.negative) (x.bits.toNat % pow2 63)

/-- The naturals whose quotient is `num / den` divided by `2 ^ q`. -/
def rescaled (num den : Nat) (q : Int) : Nat × Nat :=
  if 0 ≤ q then (num, den * pow2 q.toNat) else (num * pow2 (-q).toNat, den)

/-- The scale at which the quotient of two positive naturals has fifty-three bits, or the least
scale there is. -/
def roundingScale (num den : Nat) : Int :=
  let guess : Int := max ((num.log2 : Int) - den.log2 - 52) (-1074)
  let (n, d) := rescaled num den guess
  if n < d * pow2 52 then max (guess - 1) (-1074) else guess

/-- The number nearest to `num / den`, the even one of two. Too large a quotient is infinite. -/
def ofRatio (negative : Bool) (num den : Nat) : Binary64 :=
  if num = 0 then zero negative
  else
    let q := roundingScale num den
    let (n, d) := rescaled num den q
    -- A significand that rounds up to `2 ^ 53` carries into the exponent bits.
    let magnitude := (q + 1074).toNat * pow2 52 + divHalfEven n d
    if 2047 * pow2 52 ≤ magnitude then infinity negative else ofNatBits negative magnitude

/-- The number nearest to an integer. -/
def ofInt (n : Int) : Binary64 := ofRatio (decide (n < 0)) n.natAbs 1

/-- The number nearest to `m · 10 ^ e`. -/
def ofDecimal (negative : Bool) (m : Nat) (e : Int) : Binary64 :=
  if 0 ≤ e then ofRatio negative (m * pow10 e.toNat) 1 else ofRatio negative m (pow10 (-e).toNat)

/-- The product of two finite numbers. -/
def mul (x y : Binary64) : Binary64 :=
  let (n, d) := rescaled (x.significand * y.significand) 1 (-(x.scale + y.scale))
  ofRatio (x.negative != y.negative) n d

/-- The quotient of a finite number by a finite number that is not zero. -/
def div (x y : Binary64) : Binary64 :=
  let (n, d) := rescaled x.significand y.significand (y.scale - x.scale)
  ofRatio (x.negative != y.negative) n d

/-- The magnitude of a finite number without its fractional part. -/
def floorMagnitude (x : Binary64) : Nat :=
  let (n, d) := rescaled x.significand 1 (-x.scale)
  n / d

/-- Holds of the finite numbers without a fractional part. -/
def isIntegral (x : Binary64) : Bool :=
  let (n, d) := rescaled x.significand 1 (-x.scale)
  x.isFinite && n % d == 0

/-- The integer part of a finite number, clamped to `[low, high]`. -/
def clampToInt (x : Binary64) (low high : Int) : Int :=
  let n : Int := if x.negative then -(x.floorMagnitude : Int) else x.floorMagnitude
  max low (min high n)

/-- Widens a number of 32 bits, exactly. -/
def ofBits32 (bits : UInt32) : Binary64 :=
  let n := bits.toNat
  let negative := decide (pow2 31 ≤ n)
  let biased := n / pow2 23 % pow2 8
  let fraction := n % pow2 23
  if biased = 255 then if fraction = 0 then infinity negative else nan
  else
    let significand := if biased = 0 then fraction else pow2 23 + fraction
    let (num, den) := rescaled significand 1 (150 - (max biased 1 : Nat))
    ofRatio negative num den

end Binary64

end SqlMapper
