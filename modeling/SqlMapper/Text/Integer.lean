/-!
# Decimal integers

Writing naturals and integers in decimal, and reading them back with an optional sign. There are no
separators and no blanks inside, and leading zeros are accepted.
-/

namespace SqlMapper.Text

def digitChar (d : Nat) : Char := Char.ofNat (48 + d % 10)

def isDigit (c : Char) : Bool := 48 ≤ c.toNat && c.toNat ≤ 57

def digitValue (c : Char) : Nat := c.toNat - 48

/-- The decimal digits of a natural, without leading zeros. -/
def natDigits (n : Nat) : List Char :=
  if n < 10 then [digitChar n] else natDigits (n / 10) ++ [digitChar n]

/-- The natural that a row of digits stands for; no digits stand for zero. -/
def digitsValue (digits : List Char) : Nat :=
  digits.foldl (fun n c => 10 * n + digitValue c) 0

def natText (n : Nat) : String := String.ofList (natDigits n)

def intDigits (n : Int) : List Char :=
  if n < 0 then '-' :: natDigits n.natAbs else natDigits n.natAbs

def intText (n : Int) : String := String.ofList (intDigits n)

/-- Digits padded on the left with zeros to a least width. -/
def paddedDigits (width n : Nat) : List Char :=
  let digits := natDigits n
  List.replicate (width - digits.length) '0' ++ digits

/-- A row of one or more digits and nothing else. -/
def digits? (cs : List Char) : Option Nat :=
  if cs ≠ [] ∧ cs.all isDigit then some (digitsValue cs) else none

/-- A natural, with an optional plus. -/
def nat? : List Char → Option Nat
  | '+' :: rest => digits? rest
  | cs => digits? cs

/-- An integer, with an optional sign. -/
def int? : List Char → Option Int
  | '-' :: rest => (digits? rest).map fun n => -(n : Int)
  | '+' :: rest => (digits? rest).map fun n => (n : Int)
  | cs => (digits? cs).map fun n => (n : Int)

end SqlMapper.Text
