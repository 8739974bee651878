import SqlMapper.Json.Decode
import SqlMapper.Query.Predicate

/-!
# Settings

Where the database is, how long statements and migrations may take, and how branches are combined.
All fields have defaults. Timeouts are in milliseconds.
-/

namespace SqlMapper

open Json

namespace OrMode

def name : OrMode → String
  | .grouped => "grouped"
  | .flattened => "flattened"

def variants : List (String × OrMode) := [("grouped", .grouped), ("flattened", .flattened)]

end OrMode

structure Settings where
  database : String := ":memory:"
  statementTimeout : Option UInt64 := none
  migrationTimeout : Option UInt64 := none
  orMode : OrMode := .grouped
  deriving DecidableEq, Repr, Inhabited

namespace Settings

def ofDatabase (database : String) : Settings := { database }

def withStatementTimeout (s : Settings) (millis : UInt64) : Settings :=
  { s with statementTimeout := some millis }

def withMigrationTimeout (s : Settings) (millis : UInt64) : Settings :=
  { s with migrationTimeout := some millis }

def withOrMode (s : Settings) (orMode : OrMode) : Settings := { s with orMode }

/-- The database without the scheme in front of it. -/
def location (s : Settings) : List Char :=
  let database := s.database.toList
  match Text.dropStart? "sqlite://".toList database with
  | some rest => rest
  | none => (Text.dropStart? "sqlite:".toList database).getD database

/-- Whether the database lives in memory and goes away with the connection. -/
def isMemory (s : Settings) : Bool :=
  let location := s.location
  location.isEmpty || (Text.dropStart? ":memory:".toList location).isSome ||
    Text.occursIn "mode=memory".toList location

def decodeTimeout (doc : Doc) : Decoded (Option UInt64) :=
  doc.decodeOption fun doc => UInt64.ofNat <$> doc.decodeNat maxWord "u64"

def fields (origin : Origin) : List (StructField Settings) :=
  [⟨"database", none, false, fun doc => do
      let database ← doc.decodeString
      .ok fun s => { s with database }⟩,
    ⟨"statementTimeoutMs", none, false, fun doc => do
      let statementTimeout ← decodeTimeout doc
      .ok fun s => { s with statementTimeout }⟩,
    ⟨"migrationTimeoutMs", none, false, fun doc => do
      let migrationTimeout ← decodeTimeout doc
      .ok fun s => { s with migrationTimeout }⟩,
    ⟨"orMode", none, false, fun doc => do
      let orMode ← doc.decodeVariant origin OrMode.variants
      .ok fun s => { s with orMode }⟩]

def decode (origin : Origin) : Doc → Decoded Settings :=
  Doc.decodeStruct origin "AdapterSettings" (fields origin) {}

def ofText (text : String) : Decoded Settings := decodeText (decode .text) text

def timeoutJson : Option UInt64 → Json
  | some millis => .int millis.toNat
  | none => .null

def toJson (s : Settings) : Json :=
  .object
    [("database", .string s.database), ("statementTimeoutMs", timeoutJson s.statementTimeout),
      ("migrationTimeoutMs", timeoutJson s.migrationTimeout), ("orMode", .string s.orMode.name)]

end Settings

end SqlMapper
