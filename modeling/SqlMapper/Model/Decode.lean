import SqlMapper.Json.Decode
import SqlMapper.Model.Basic

/-!
# Models in JSON

The fields of a property are `type`, `limit`, `allowNull` or `null`, `unique` and `index`, of which
only the first is required. A model has a `name`, a `table` and `properties`. A file of models is a
list in which no two models have the same name.
-/

namespace SqlMapper

open Json

/-- The names under which kinds are read. -/
def Kind.variants : List (String × Kind) :=
  [("String", .string), ("Varchar", .string), ("string", .string), ("varchar", .string),
    ("Text", .text), ("text", .text), ("JSON", .json), ("Json", .json), ("json", .json),
    ("Number", .number), ("number", .number), ("Date", .date), ("date", .date),
    ("Boolean", .boolean), ("boolean", .boolean)]

def Kind.decode (origin : Origin) : Doc → Decoded Kind := Doc.decodeVariant origin Kind.variants

namespace Property

def decodeLimit (doc : Doc) : Decoded (Option UInt32) :=
  doc.decodeOption fun doc => UInt32.ofNat <$> doc.decodeNat 4294967295 "u32"

def fields (origin : Origin) : List (StructField Property) :=
  [⟨"type", none, true, fun doc => do
      let kind ← Kind.decode origin doc
      .ok fun p => { p with kind }⟩,
    ⟨"limit", none, false, fun doc => do
      let limit ← decodeLimit doc
      .ok fun p => { p with limit }⟩,
    ⟨"allowNull", some "null", false, fun doc => do
      let nullable ← doc.decodeBool
      .ok fun p => { p with nullable }⟩,
    ⟨"unique", none, false, fun doc => do
      let unique ← doc.decodeBool
      .ok fun p => { p with unique }⟩,
    ⟨"index", none, false, fun doc => do
      let indexed ← doc.decodeBool
      .ok fun p => { p with indexed }⟩]

/-- The kind that the gathering starts from is always replaced, since it is required. -/
def decode (origin : Origin) : Doc → Decoded Property :=
  Doc.decodeStruct origin "PropertyDescriptor" (fields origin) Property.string

/-- A limit is written only if there is one. -/
def toJson (p : Property) : Json :=
  .object
    (("type", .string p.kind.name) ::
      (p.limit.toList.map fun limit => ("limit", .int limit.toNat)) ++
      [("allowNull", .bool p.nullable), ("unique", .bool p.unique), ("index", .bool p.indexed)])

end Property

namespace Model

/-- Reads the properties of a model one after the other. -/
def decodeProperties (origin : Origin) (declared : Keyed Property) :
    List (String × Doc) → Decoded (Keyed Property)
  | [] => .ok declared
  | (name, doc) :: rest => do
      let p ← Property.decode origin doc
      if declared.contains name then fail (.duplicateProperty name)
      else decodeProperties origin (declared.put name p) rest

def decodePropertyMap (origin : Origin) : Doc → Decoded (Keyed Property)
  | .object entries tail => do
      let properties ← decodeProperties origin Keyed.empty entries
      tail.decode
      .ok properties
  | .oddKey _ => faulty .malformed
  | doc => doc.mismatch "a map of property name to property descriptor"

def fields (origin : Origin) : List (StructField Model) :=
  [⟨"name", none, true, fun doc => do
      let name ← doc.decodeString
      .ok fun m => { m with name }⟩,
    ⟨"table", none, false, fun doc => do
      let table ← doc.decodeOption Doc.decodeString
      .ok fun m => { m with table }⟩,
    ⟨"properties", none, false, fun doc => do
      let properties ← decodePropertyMap origin doc
      .ok fun m => { m with properties }⟩]

def decode (origin : Origin) : Doc → Decoded Model :=
  Doc.decodeStruct origin "ModelSchema" (fields origin) (Model.ofName "")

def ofText (text : String) : Decoded Model := decodeText (decode .text) text

end Model

/-- Why a file gives no models. -/
inductive ModelFileError
  | unreadable
  | parse (path : String) (cause : DecodeError)
  | duplicateModel (name : String)

/-- The name of the first model that has the name of an earlier one. -/
def firstRepeated? (seen : List String) : List Model → Option String
  | [] => none
  | m :: rest => if m.name ∈ seen then some m.name else firstRepeated? (m.name :: seen) rest

/-- Reads a list of models; the path is named in errors. -/
def parseModels (path text : String) : Except ModelFileError (List Model) :=
  match decodeText (Doc.decodeList (Model.decode .text)) text with
  | .error cause => .error (.parse path cause)
  | .ok models =>
      match firstRepeated? [] models with
      | some name => .error (.duplicateModel name)
      | none => .ok models

/-- Reads the models of a file, given its content unless it cannot be read. -/
def loadModels (path : String) : Option String → Except ModelFileError (List Model)
  | none => .error .unreadable
  | some text => parseModels path text

/-- The message of an error without the explanation of what is wrong with the file. -/
def ModelFileError.heading : ModelFileError → String
  | .unreadable => "Failed to read model file"
  | .parse path _ => s!"Failed to parse model file '{path}'"
  | .duplicateModel name => s!"Model '{name}' is defined more than once"

end SqlMapper
