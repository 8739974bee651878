import SqlMapper.Keyed
import SqlMapper.Number.Binary64

/-!
# JSON documents

A number is an integer in the signed or unsigned 64-bit range, or a binary number; no document
holds an integer outside those ranges. An object lists its entries in order of first insertion and
names none twice.
-/

namespace SqlMapper

inductive Json
  | null
  | bool (b : Bool)
  | int (n : Int)
  | float (x : Binary64)
  | string (s : String)
  | array (items : List Json)
  | object (entries : List (String × Json))
  deriving Repr, Inhabited

namespace Json

def string? : Json → Option String
  | .string s => some s
  | _ => none

/-- The integers of the unsigned range. -/
def nat? : Json → Option Nat
  | .int n => if 0 ≤ n then some n.toNat else none
  | _ => none

def isNull : Json → Bool
  | .null => true
  | _ => false

end Json

end SqlMapper
