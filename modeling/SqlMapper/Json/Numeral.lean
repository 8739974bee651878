import SqlMapper.Json.Fault
import SqlMapper.Number.Binary64
import SqlMapper.Text.Real

/-!
# Numbers in JSON text

`numeral` reads the shape of a number, and `Numeral.value?` its value. An integer that fits a
64-bit word is itself. Any other number is computed in two roundings: the digits are gathered while
they fit an unsigned word and dropped afterwards, that word is rounded to a binary number, and the
binary number is multiplied or divided by the binary number nearest to the power of ten.
-/

namespace SqlMapper.Json

open Text

structure Exponent where
  negative : Bool
  digits : List Char

structure Numeral where
  negative : Bool
  whole : List Char
  /-- Absent if there is no point. -/
  fraction : Option (List Char)
  exponent : Option Exponent

/-- The fault of a place where a digit must stand. -/
def digitFault (attitude : Attitude) (cs : List Char) : Fault :=
  if attitude = .strict ∧ cs = [] then .truncated else .malformed

def someDigits (attitude : Attitude) (cs : List Char) : Except Fault (List Char × List Char) :=
  match spanDigits cs with
  | ([], rest) => .error (digitFault attitude rest)
  | found => .ok found

/-- Either a single zero, or digits of which the first is not zero. -/
def wholePart (attitude : Attitude) (cs : List Char) : Except Fault (List Char × List Char) := do
  let (digits, rest) ← someDigits attitude cs
  if digits.head? = some '0' ∧ 1 < digits.length then .error .malformed else .ok (digits, rest)

def fractionPart (attitude : Attitude) :
    List Char → Except Fault (Option (List Char) × List Char)
  | '.' :: rest => do
      let (digits, rest) ← someDigits attitude rest
      .ok (some digits, rest)
  | cs => .ok (none, cs)

def exponentPart (attitude : Attitude) (cs : List Char) :
    Except Fault (Option Exponent × List Char) :=
  match cs with
  | e :: rest =>
      if e = 'e' ∨ e = 'E' then do
        let (negative, rest) : Bool × List Char := match rest with
          | '-' :: rest => (true, rest)
          | '+' :: rest => (false, rest)
          | _ => (false, rest)
        let (digits, rest) ← someDigits attitude rest
        .ok (some ⟨negative, digits⟩, rest)
      else .ok (none, cs)
  | [] => .ok (none, [])

/-- Reads the shape of a number at the start of a text. -/
def numeral (attitude : Attitude) (cs : List Char) : Except Fault (Numeral × List Char) := do
  let (negative, cs) : Bool × List Char := match cs with
    | '-' :: rest => (true, rest)
    | _ => (false, cs)
  let (whole, cs) ← wholePart attitude cs
  let (fraction, cs) ← fractionPart attitude cs
  let (exponent, cs) ← exponentPart attitude cs
  .ok (⟨negative, whole, fraction, exponent⟩, cs)

/-- The largest unsigned word. -/
def maxWord : Nat := 18446744073709551615

/-- Digits gathered into a word, and the power of ten that the word is to be scaled by. -/
structure Gathered where
  word : Nat
  power : Int
  /-- Set once a digit has not fitted; later digits no longer enter the word. -/
  full : Bool

/-- Gathers one digit. A digit before the point that does not fit still counts for the size. -/
def Gathered.add (beforePoint : Bool) (g : Gathered) (c : Char) : Gathered :=
  let word := 10 * g.word + digitValue c
  if g.full ∨ maxWord < word then
    ⟨g.word, if beforePoint then g.power + 1 else g.power, true⟩
  else ⟨word, if beforePoint then g.power else g.power - 1, false⟩

/-- The word of a numeral. The fraction starts anew: a digit of it may fit where one of the whole
part did not. -/
def Numeral.gather (n : Numeral) : Gathered :=
  let g := n.whole.foldl (Gathered.add true) ⟨0, 0, false⟩
  (n.fraction.getD []).foldl (Gathered.add false) { g with full := false }

def powerOfTen (n : Nat) : Binary64 := Binary64.ofDecimal false 1 n

/-- Divides by a power of ten in steps of `10 ^ 308`. -/
def dividePower : Nat → Binary64 → Nat → Binary64
  | 0, x, _ => x
  | steps + 1, x, n =>
      if n ≤ 308 then x.div (powerOfTen n)
      else if x.isZero then x
      else dividePower steps (x.div (powerOfTen 308)) (n - 308)

/-- Scales a word by a power of ten, or fails on a number that is too large. -/
def scaleWord? (word : Nat) (power : Int) : Option Binary64 :=
  let x := Binary64.ofRatio false word 1
  if power < 0 then some (dividePower 4 x power.natAbs)
  else if power ≤ 308 then
    let y := x.mul (powerOfTen power.toNat)
    if y.isFinite then some y else none
  else if x.isZero then some x
  else none

/-- Exponents past this bound are not computed with. -/
def exponentLimit : Nat := 2147483647

def Numeral.magnitude? (n : Numeral) : Option Binary64 :=
  let g := n.gather
  match n.exponent with
  | none => scaleWord? g.word g.power
  | some e =>
      let size := digitsValue e.digits
      if exponentLimit < size then
        if g.word ≠ 0 ∧ !e.negative then none else some (Binary64.zero false)
      else scaleWord? g.word (if e.negative then g.power - size else g.power + size)

/-- A number as it is kept: an integer of 64 bits, or a binary number. -/
inductive Number
  | int (n : Int)
  | float (x : Binary64)

/-- The value of a numeral; there is none if it is too large for a binary number. Zero with a sign
is a binary number. -/
def Numeral.value? (n : Numeral) : Option Number :=
  let size := digitsValue n.whole
  if n.fraction.isNone ∧ n.exponent.isNone ∧
      (if n.negative then 0 < size ∧ size ≤ pow2 63 else size ≤ maxWord) then
    some (.int (if n.negative then -(size : Int) else size))
  else n.magnitude?.map fun x => .float (if n.negative then x.neg else x)

end SqlMapper.Json
