import SqlMapper.Json.Document
import SqlMapper.Json.Writer

/-!
# Decoding documents

Decoders turn a `Doc` into a value of another type and say what does not fit. They walk the
document in order, so of two problems the earlier one is reported; faults of the text take part in
this like any other problem. A structure is given by its fields and is read from an object or from
the list of its fields in order.

Documents that were read beforehand are judged a little differently from a running text: of a list
that is too long the length is known, and a word where a name should stand can be named.
-/

namespace SqlMapper.Json

/-- What stands in a place where something else was expected. -/
inductive Found
  | null
  | bool (b : Bool)
  | int (n : Int)
  | float (x : Binary64)
  | string (s : String)
  | sequence
  | map
  deriving Repr

inductive Misfit
  | invalidType (found : Found) (expected : String)
  | invalidValue (found : Found) (expected : String)
  | invalidLength (length : Nat) (expected : String)
  | unknownVariant (name : String) (known : List String)
  | missingField (name : String)
  | duplicateField (name : String)
  | duplicateProperty (name : String)
  deriving Repr

inductive DecodeError
  | fault (fault : Fault)
  | misfit (misfit : Misfit)
  deriving Repr

abbrev Decoded := Except DecodeError

/-- Whether a document is decoded while its text is read, or afterwards. -/
inductive Origin
  | text
  | document
  deriving DecidableEq, Repr

namespace Found

def text : Found → String
  | .null => "null"
  | .bool true => "boolean `true`"
  | .bool false => "boolean `false`"
  | .int n => s!"integer `{Text.intText n}`"
  | .float x => s!"floating point `{x.jsonText}`"
  | .string s => s!"string {Text.quoted s}"
  | .sequence => "sequence"
  | .map => "map"

end Found

/-- Names in backticks: one or the other of two, and one of more. -/
def alternatives (names : List String) : String :=
  match names with
  | [one, other] => s!"`{one}` or `{other}`"
  | _ => "one of " ++ ", ".intercalate (names.map fun name => s!"`{name}`")

def Misfit.message : Misfit → String
  | .invalidType found expected => s!"invalid type: {found.text}, expected {expected}"
  | .invalidValue found expected => s!"invalid value: {found.text}, expected {expected}"
  | .invalidLength length expected =>
      s!"invalid length {Text.natText length}, expected {expected}"
  | .unknownVariant name known => s!"unknown variant `{name}`, expected {alternatives known}"
  | .missingField name => s!"missing field `{name}`"
  | .duplicateField name => s!"duplicate field `{name}`"
  | .duplicateProperty name => s!"duplicate property `{name}`"

def fail (misfit : Misfit) : Decoded α := .error (.misfit misfit)

def faulty (fault : Fault) : Decoded α := .error (.fault fault)

def Tail.decode (tail : Tail) : Decoded Unit :=
  match tail.check with
  | .ok () => .ok ()
  | .error fault => faulty fault

namespace Doc

/-- Reports a document of the wrong type. Of a list or an object only the opening counts. -/
def mismatch (expected : String) : Doc → Decoded α
  | .null => fail (.invalidType .null expected)
  | .bool b => fail (.invalidType (.bool b) expected)
  | .int n => fail (.invalidType (.int n) expected)
  | .float x => fail (.invalidType (.float x) expected)
  | .string s => fail (.invalidType (.string s) expected)
  | .array .. => fail (.invalidType .sequence expected)
  | .object .. => fail (.invalidType .map expected)
  | .oddKey _ => fail (.invalidType .map expected)
  | .broken fault => faulty fault
  | .brokenWord fault => faulty fault

def decodeString : Doc → Decoded String
  | .string s => .ok s
  | doc => doc.mismatch "a string"

def decodeBool : Doc → Decoded Bool
  | .bool b => .ok b
  | doc => doc.mismatch "a boolean"

/-- A natural up to `high`; `expected` names the range. -/
def decodeNat (high : Nat) (expected : String) : Doc → Decoded Nat
  | .int n =>
      if 0 ≤ n ∧ n ≤ high then .ok n.toNat else fail (.invalidValue (.int n) expected)
  | doc => doc.mismatch expected

def decodeOption (decode : Doc → Decoded α) : Doc → Decoded (Option α)
  | .null => .ok none
  | doc => some <$> decode doc

/-- The value that belongs to a variant that carries nothing. -/
def decodeUnit : Doc → Decoded Unit
  | .null => .ok ()
  | doc => doc.mismatch "unit"

def variantNamed (variants : List (String × α)) (name : String) : Decoded α :=
  match Entries.get? name variants with
  | some a => .ok a
  | none => fail (.unknownVariant name (Entries.names variants))

/-- One of some named variants, written as its name, or as an object with the name as its only key
and a null. -/
def decodeVariant (origin : Origin) (variants : List (String × α)) : Doc → Decoded α
  | .string name => variantNamed variants name
  | .object [(name, payload)] tail => do
      let a ← variantNamed variants name
      payload.decodeUnit
      match tail with
      | .closed => .ok a
      | .stopped fault => faulty fault
      | .dangling _ => faulty .malformed
  | .object entries tail =>
      match origin, entries, tail with
      | .document, _, _ => fail (.invalidValue .map "map with a single key")
      | .text, (name, payload) :: _, _ => do
          let _ ← variantNamed variants name
          payload.decodeUnit
          faulty .malformed
      | .text, [], .stopped fault => faulty fault
      | .text, [], _ => faulty .malformed
  | .oddKey key => key.mismatch "variant identifier"
  | .broken fault => faulty fault
  | doc =>
      match origin with
      | .text => faulty .malformed
      | .document => doc.mismatch "string or map"

def decodeItems (decode : Doc → Decoded α) : List Doc → Decoded (List α)
  | [] => .ok []
  | item :: rest => do
      let a ← decode item
      let more ← decodeItems decode rest
      .ok (a :: more)

def decodeList (decode : Doc → Decoded α) : Doc → Decoded (List α)
  | .array items tail => do
      let found ← decodeItems decode items
      tail.decode
      .ok found
  | doc => doc.mismatch "a sequence"

end Doc

/-- A field of a structure that is being gathered in a `σ`. -/
structure StructField (σ : Type) where
  name : String
  /-- Another name that is accepted in an object. -/
  otherName : Option String
  required : Bool
  read : Doc → Decoded (σ → σ)

namespace StructField

def answersTo (field : StructField σ) (key : String) : Bool :=
  field.name == key || field.otherName == some key

/-- Reads the entries of an object. An entry of no field is passed over, and a field must not occur
twice. Returned are the gathered fields and the names of those that occurred. -/
def readEntries (fields : List (StructField σ)) (gathered : σ) (seen : List String) :
    List (String × Doc) → Decoded (σ × List String)
  | [] => .ok (gathered, seen)
  | (key, value) :: rest =>
      match fields.find? (·.answersTo key) with
      | none => readEntries fields gathered seen rest
      | some field =>
          if seen.contains field.name then fail (.duplicateField field.name)
          else do
            let set ← field.read value
            readEntries fields (set gathered) (field.name :: seen) rest

/-- Reads the items of a list as fields in order. Fields that are not required may be missing at
the end; `expected` describes the whole list. -/
def readItems (origin : Origin) (expected : String) (length : Nat) (tail : Tail) :
    Nat → List (StructField σ) → σ → List Doc → Decoded σ
  | _, [], gathered, [] =>
      match tail with
      | .closed => .ok gathered
      | .stopped fault => faulty fault
      | .dangling _ => faulty .malformed
  | _, [], _, _ :: _ =>
      match origin with
      | .text => faulty .malformed
      | .document => fail (.invalidLength length "fewer elements in array")
  | index, field :: fields, gathered, item :: items => do
      let set ← field.read item
      readItems origin expected length tail (index + 1) fields (set gathered) items
  | index, field :: fields, gathered, [] => do
      tail.decode
      if field.required then fail (.invalidLength index expected)
      else readItems origin expected length tail (index + 1) fields gathered []

end StructField

/-- Reads a structure by its fields into `start`, from an object or from a list. -/
def Doc.decodeStruct (origin : Origin) (name : String) (fields : List (StructField σ)) (start : σ) :
    Doc → Decoded σ
  | .object entries tail => do
      let (gathered, seen) ← StructField.readEntries fields start [] entries
      tail.decode
      match fields.find? fun field => field.required && !seen.contains field.name with
      | some field => fail (.missingField field.name)
      | none => .ok gathered
  | .array items tail =>
      let plural := if fields.length = 1 then "element" else "elements"
      let expected := s!"struct {name} with {Text.natText fields.length} {plural}"
      StructField.readItems origin expected items.length tail 0 fields start items
  | .oddKey _ => faulty .malformed
  | doc => doc.mismatch s!"struct {name}"

/-- Decodes a whole text. -/
def decodeText (decode : Doc → Decoded α) (text : String) : Decoded α := do
  let r := read depthLimit text.toList
  let a ← decode r.found
  match r.rest with
  | .error fault => faulty fault
  | .ok rest =>
      match checkEnd rest with
      | .error fault => faulty fault
      | .ok () => .ok a

/-- Decodes a document. -/
def decodeJson (decode : Doc → Decoded α) (j : Json) : Decoded α := decode (Doc.ofJson j)

end SqlMapper.Json
