import SqlMapper.Calendar.Parse
import SqlMapper.Json.Document
import SqlMapper.Json.Writer
import SqlMapper.Model.Basic
import SqlMapper.Text.Utf8

/-!
# Storing values

`store` turns a value into the content of a cell, and `restore` the content of a cell into a value;
both go by the declaration of the property. A value that does not fit its declaration is kept as
text. Instants are kept as text to the second; an integer in a date column counts milliseconds.
-/

namespace SqlMapper

namespace Value

/-- The instant that a value is, spells, or counts in milliseconds. -/
def instant? : Value → Option Instant
  | .date t => some t
  | .text s => Instant.read? s
  | .int millis => Instant.ofMillis? millis.toInt
  | _ => none

/-- False are null, zero, the empty text, and the texts `0` and `false` in any case. -/
def isTrue : Value → Bool
  | .null => false
  | .bool b => b
  | .int n => n != 0
  | .float x => !x.isZero
  | .text s => !(s == "" || s == "0" || Text.sameIgnoringCase s "false")
  | .date _ => true
  | .json _ => true
  | .blob _ => true

/-- The cell that holds a value as it is. -/
def plain : Value → Stored
  | .null => .null
  | .bool b => .int (if b then 1 else 0)
  | .int n => .int n
  | .float x => .float x
  | .text s => .text s
  | .date t => .text t.stored
  | .json j => .text j.text
  | .blob bytes => .blob bytes

/-- The text of a value. -/
def asText : Value → String
  | .null => ""
  | .bool true => "true"
  | .bool false => "false"
  | .int n => Text.int64Text n
  | .float x => x.plainText
  | .text s => s
  | .date t => t.stored
  | .json j => j.text
  | .blob bytes => Text.utf8Lossy bytes

end Value

/-- The number that a text spells: a word, or a float that is finite. -/
def readNumber? (s : String) : Option Stored :=
  let cs := Text.trim s.toList
  match Text.int64? cs with
  | some n => some (.int n)
  | none => ((Text.real? cs).filter Binary64.isFinite).map .float

/-- The cell of a number column. -/
def storeNumber : Value → Stored
  | .text s => (readNumber? s).getD (.text s)
  | v => v.plain

/-- The cell of a date column. A blank text is no date. -/
def storeDate (v : Value) : Stored :=
  match v.instant?, v with
  | some t, _ => .text t.stored
  | none, .text s => if Text.trim s.toList = [] then .null else .text s
  | none, v => .text v.asText

/-- The cell of a document column. Text is taken for a document already written. -/
def storeJson : Value → Stored
  | .text s => .text s
  | v => .text v.toJson.text

/-- The cell of a text column. Bytes stay bytes. -/
def storeText : Value → Stored
  | .blob bytes => .blob bytes
  | v => .text v.asText

/-- The cell that holds a value under a declaration. -/
def store (declared : Option Property) (v : Value) : Stored :=
  if v.isNull then .null
  else
    match declared with
    | none => v.plain
    | some p =>
        match p.kind with
        | .number => storeNumber v
        | .boolean => .int (if v.isTrue then 1 else 0)
        | .date => storeDate v
        | .json => storeJson v
        | .string => storeText v
        | .text => storeText v

namespace Stored

/-- The value of a cell as it is. -/
def plain : Stored → Value
  | .null => .null
  | .int n => .int n
  | .float x => .float x
  | .text s => .text s
  | .blob bytes => .blob bytes

end Stored

def restoreDate : Stored → Value
  | .text s => ((Instant.read? s).map .date).getD (.text s)
  | .int millis => ((Instant.ofMillis? millis.toInt).map .date).getD (.int millis)
  | stored => stored.plain

def restoreBoolean : Stored → Value
  | .int n => .bool (n != 0)
  | .text s =>
      if s = "1" ∨ s = "true" then .bool true
      else if s = "0" ∨ s = "false" then .bool false
      else .text s
  | stored => stored.plain

def restoreJson : Stored → Value
  | .text s =>
      match Json.parse s with
      | .ok j => .json j
      | .error _ => .text s
  | stored => stored.plain

/-- The value that a cell holds under a declaration. -/
def restore (declared : Option Property) (stored : Stored) : Value :=
  match declared.map Property.kind with
  | some .date => restoreDate stored
  | some .boolean => restoreBoolean stored
  | some .json => restoreJson stored
  | _ => stored.plain

/-- The record of a row. -/
def restoreRow (m : Model) (row : Row) : Record :=
  Keyed.ofList (row.map fun cell => (cell.1, restore (m.declaration? cell.1) cell.2))

end SqlMapper
