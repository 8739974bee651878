import SqlMapper.Dialect
import SqlMapper.Storage

/-!
# Literals

What a statement says in place of a value: the content of a cell, or a piece of SQL that is taken
over as it is. Only text for an undeclared field is taken over.
-/

namespace SqlMapper

inductive Literal
  | cell (stored : Stored)
  | verbatim (sql : String)
  deriving DecidableEq, Repr

/-- The literal of a value under a declaration. -/
def literal (declared : Option Property) (v : Value) : Literal :=
  match declared, v with
  | none, .text sql => .verbatim sql
  | declared, v => .cell (store declared v)

def hexDigitUpper (d : Nat) : Char := if d < 10 then Char.ofNat (48 + d) else Char.ofNat (55 + d)

def byteDigits (b : UInt8) : List Char :=
  [hexDigitUpper (b.toNat / 16), hexDigitUpper (b.toNat % 16)]

namespace Dialect

/-- The literal of a cell. A float that is not finite is null. -/
def cell (d : Dialect) : Stored → List Char
  | .null => "NULL".toList
  | .int n => Text.intDigits n.toInt
  | .float x => if x.isFinite then x.plainText.toList else "NULL".toList
  | .text s => d.string s
  | .blob bytes => 'X' :: '\x27' :: bytes.flatMap byteDigits ++ ['\x27']

def literal (d : Dialect) : Literal → List Char
  | .cell stored => d.cell stored
  | .verbatim sql => sql.toList

end Dialect

end SqlMapper
