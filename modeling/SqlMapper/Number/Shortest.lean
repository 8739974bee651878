import SqlMapper.Number.Binary64

/-!
# Shortest decimals

Every finite number that is not zero has decimals that are nearer to it than to any other number
of the format; reading one of them gives the number back. `Binary64.shortest` picks one with the
fewest digits, and of those the nearest. A number can lie halfway between two such decimals; which
of the two is taken is the caller's choice.
-/

namespace SqlMapper

/-- Which of two equally near decimals is taken: the larger, or the one with an even last
digit. -/
inductive HalfwayRule
  | up
  | even
  deriving DecidableEq, Repr

/-- The positive number `digits · 10 ^ exponent`. -/
structure Decimal where
  digits : Nat
  exponent : Int
  deriving DecidableEq, Repr, Inhabited

namespace Decimal

/-- Moves trailing zeros into the exponent. -/
def stripZeros : Nat → Decimal → Decimal
  | 0, x => x
  | fuel + 1, x =>
      if x.digits ≠ 0 ∧ x.digits % 10 = 0 then
        stripZeros fuel ⟨x.digits / 10, x.exponent + 1⟩
      else x

end Decimal

/-- How many decimal digits a natural has; zero has one. -/
def digitCount (n : Nat) : Nat := (Nat.toDigits 10 n).length

namespace Binary64

/-- The decimals that read back as a positive number: the fractions between `low / den` and
`high / den`, the ends included if `closed`. The number itself is `value / den`. -/
structure RoundingInterval where
  low : Nat
  value : Nat
  high : Nat
  den : Nat
  closed : Bool

/-- Half a step lies between the number and either end; the lower step is half as wide at a power
of two. -/
def roundingInterval (x : Binary64) : RoundingInterval :=
  let lowStep := if x.fraction = 0 ∧ 1 < x.biased then 1 else 2
  let m := 4 * x.significand
  let (one, den) := rescaled 1 1 (2 - x.scale)
  { low := (m - lowStep) * one, value := m * one, high := (m + 2) * one, den := den,
    closed := x.significand % 2 == 0 }

namespace RoundingInterval

def contains (r : RoundingInterval) (num den : Nat) : Bool :=
  if r.closed then decide (r.low * den ≤ num * r.den ∧ num * r.den ≤ r.high * den)
  else decide (r.low * den < num * r.den ∧ num * r.den < r.high * den)

/-- The power of ten of the leading digit. -/
def leadingExponent (r : RoundingInterval) : Int :=
  if r.den ≤ r.value then (digitCount (r.value / r.den) : Int) - 1
  else -(digitCount ((r.den - 1) / r.value) : Int)

/-- The better of the two neighbours of the number on the grid of multiples of `10 ^ e`, if one of
them reads back. -/
def onGrid? (rule : HalfwayRule) (r : RoundingInterval) (e : Int) : Option Decimal :=
  let (one, unit) : Nat × Nat := if 0 ≤ e then (1, pow10 e.toNat) else (pow10 (-e).toNat, 1)
  -- The number is `num / den` steps of the grid.
  let num := r.value * one
  let den := r.den * unit
  let floor := num / den
  let rest := num % den
  let below := r.contains (floor * unit) one
  let above := r.contains ((floor + 1) * unit) one
  let upward :=
    decide (den < 2 * rest) ||
      (decide (den = 2 * rest) && (rule == .up || floor % 2 == 1))
  if below && above then some ⟨if upward then floor + 1 else floor, e⟩
  else if below then some ⟨floor, e⟩
  else if above then some ⟨floor + 1, e⟩
  else none

/-- Tries finer and finer grids. -/
def search (rule : HalfwayRule) (r : RoundingInterval) : Nat → Int → Decimal
  | 0, e => ⟨r.value * pow10 (-e).toNat / (r.den * pow10 e.toNat), e⟩
  | tries + 1, e =>
      match r.onGrid? rule e with
      | some x => x
      | none => search rule r tries (e - 1)

end RoundingInterval

/-- The shortest decimal that reads back as a finite number that is not zero, up to sign.
Seventeen digits always suffice. -/
def shortest (rule : HalfwayRule) (x : Binary64) : Decimal :=
  let r := x.roundingInterval
  (r.search rule 17 r.leadingExponent).stripZeros 20

end Binary64

end SqlMapper
