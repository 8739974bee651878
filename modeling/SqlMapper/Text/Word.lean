import SqlMapper.Text.Integer

/-!
# Machine words in decimal

Reading and writing signed and unsigned words of 64 bits. A numeral outside the range is refused.
-/

namespace SqlMapper

/-- The signed word equal to an integer, if there is one. -/
def toInt64? (n : Int) : Option Int64 :=
  if -9223372036854775808 ≤ n ∧ n ≤ 9223372036854775807 then some (Int64.ofInt n) else none

/-- The unsigned word equal to a natural, if there is one. -/
def toUInt64? (n : Nat) : Option UInt64 :=
  if n ≤ 18446744073709551615 then some (UInt64.ofNat n) else none

namespace Text

/-- A signed word, with an optional sign. -/
def int64? (cs : List Char) : Option Int64 := (int? cs).bind toInt64?

/-- An unsigned word, with an optional plus. -/
def uint64? (cs : List Char) : Option UInt64 := (nat? cs).bind toUInt64?

def int64Text (n : Int64) : String := intText n.toInt

def uint64Text (n : UInt64) : String := natText n.toNat

end Text

end SqlMapper
