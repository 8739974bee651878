import SqlMapper.Calendar.Format
import SqlMapper.Json.Basic
import SqlMapper.Text.Blank
import SqlMapper.Text.Word

/-!
# Values

A `Value` is what an application hands over and gets back. A `Stored` is what the database holds in
a cell: the same without truth values, instants and documents, which have no cells of their own.
-/

namespace SqlMapper

/-- A binary floating-point number of 32 bits. -/
structure Binary32 where
  bits : UInt32
  deriving DecidableEq, Repr

/-- The value of an application. -/
inductive Value
  | null
  | bool (b : Bool)
  | int (n : Int64)
  | float (x : Binary64)
  | text (s : String)
  | date (t : Instant)
  | json (j : Json)
  | blob (bytes : List UInt8)

instance : Inhabited Value := ⟨.null⟩

namespace Value

def isNull : Value → Bool
  | .null => true
  | _ => false

/-- The integer that a value is, is equal to, or spells. A float beyond the words of 64 bits gives
the nearest of them. -/
def integer? : Value → Option Int64
  | .int n => some n
  | .float x =>
      if x.isIntegral then
        some (Int64.ofInt (x.clampToInt (-9223372036854775808) 9223372036854775807))
      else none
  | .text s => Text.int64? (Text.trim s.toList)
  | _ => none

def text? : Value → Option String
  | .text s => some s
  | _ => none

/-- An instant becomes text, bytes become a list of numbers, and a float that is not finite becomes
null. -/
def toJson : Value → Json
  | .null => .null
  | .bool b => .bool b
  | .int n => .int n.toInt
  | .float x => if x.isFinite then .float x else .null
  | .text s => .string s
  | .date t => .string t.internet
  | .json j => j
  | .blob bytes => .array (bytes.map fun b => .int b.toNat)

/-- A scalar becomes a value of its own, an integer too large for a word becomes a float, and a
list or an object stays a document. -/
def ofJson : Json → Value
  | .null => .null
  | .bool b => .bool b
  | .int n => match toInt64? n with
      | some n => .int n
      | none => .float (Binary64.ofInt n)
  | .float x => .float x
  | .string s => .text s
  | j => .json j

end Value

/-- Types whose members are values. -/
class ToValue (α : Type) where
  toValue : α → Value

export ToValue (toValue)

instance : ToValue Value := ⟨id⟩

instance : ToValue Bool := ⟨.bool⟩

instance : ToValue Int64 := ⟨.int⟩

instance : ToValue Int32 := ⟨fun n => .int n.toInt64⟩

instance : ToValue Int16 := ⟨fun n => .int n.toInt64⟩

instance : ToValue UInt32 := ⟨fun n => .int (Int64.ofNat n.toNat)⟩

instance : ToValue UInt16 := ⟨fun n => .int (Int64.ofNat n.toNat)⟩

instance : ToValue UInt8 := ⟨fun n => .int (Int64.ofNat n.toNat)⟩

instance : ToValue Binary64 := ⟨.float⟩

instance : ToValue Binary32 := ⟨fun x => .float (Binary64.ofBits32 x.bits)⟩

instance : ToValue String := ⟨.text⟩

instance : ToValue Instant := ⟨.date⟩

instance : ToValue Json := ⟨.json⟩

instance : ToValue (List UInt8) := ⟨.blob⟩

/-- The absence of a value is null. -/
instance [ToValue α] : ToValue (Option α) := ⟨fun
  | some a => toValue a
  | none => .null⟩

/-- The content of a cell. -/
inductive Stored
  | null
  | int (n : Int64)
  | float (x : Binary64)
  | text (s : String)
  | blob (bytes : List UInt8)
  deriving DecidableEq, Repr, Inhabited

namespace Stored

def integer? : Stored → Option Int64
  | .int n => some n
  | _ => none

def text? : Stored → Option String
  | .text s => some s
  | _ => none

end Stored

/-- The cells of a row by column, as the database lists them; a column may be listed twice. -/
abbrev Row := Entries Stored

end SqlMapper
