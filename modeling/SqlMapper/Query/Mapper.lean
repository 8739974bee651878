import SqlMapper.Query.Statement

/-!
# Statements of a model

A `Mapper` writes the statements of one model in one dialect. What it turns down never becomes a
statement: a deletion without criteria, an update without identity or without a declared property,
and criteria without a predicate of their own.
-/

namespace SqlMapper

structure Mapper where
  dialect : Dialect
  model : Model
  orMode : OrMode := .grouped

namespace Mapper

/-- The quoted name of the table. -/
def table (b : Mapper) : String := String.ofList (b.dialect.identifier b.model.tableName)

def predicate (b : Mapper) (c : Criteria) : Except QueryError (Option Predicate) :=
  c.predicate b.dialect b.model b.orMode

/-- The condition of some criteria with its keyword, empty if nothing is tested. -/
def condition (b : Mapper) (c : Criteria) : Except QueryError String := do
  let p ← b.predicate c
  .ok (String.ofList ((p.map b.dialect.condition).getD []))

def write (b : Mapper) (s : Statement) : String := s.text b.dialect

def select (b : Mapper) (f : Filter) : Except QueryError String := do
  let p ← b.predicate f.criteria
  .ok (b.write (.select b.model.tableName p f.order f.limit f.offset))

def selectById (b : Mapper) (id : Int64) : String := b.write (.selectById b.model.tableName id)

def rowExists (b : Mapper) (id : Int64) : String := b.write (.rowExists b.model.tableName id)

/-- The predicate of criteria that may be left out. -/
def predicateOf (b : Mapper) : Option Criteria → Except QueryError (Option Predicate)
  | none => .ok none
  | some c => b.predicate c

def count (b : Mapper) (c : Option Criteria) : Except QueryError String := do
  let p ← b.predicateOf c
  .ok (b.write (.count b.model.tableName p))

/-- Deletes the rows that meet some criteria; no criteria are refused, empty ones are not. -/
def delete (b : Mapper) : Option Criteria → Except QueryError String
  | none => .error .missingWhere
  | some c => do
      let p ← b.predicate c
      .ok (b.write (.delete b.model.tableName p))

def deleteAll (b : Mapper) : String := b.write (.delete b.model.tableName none)

def deleteById (b : Mapper) (id : Int64) : String := b.write (.deleteById b.model.tableName id)

/-- The declared fields of a record other than the key, with their literals. -/
def assignments (b : Mapper) (r : Record) : List (String × Literal) :=
  r.entries.filterMap fun entry =>
    if entry.1 = idName then none
    else (b.model.get? entry.1).map fun p => (entry.1, literal (some p) entry.2)

/-- Writes the declared fields of a record to the row of its identity. -/
def update (b : Mapper) (r : Record) : Except QueryError String :=
  match Record.id? r with
  | none => .error (.missingId b.model.name)
  | some id =>
      match b.assignments r with
      | [] => .error (.emptyUpdate b.model.name)
      | assignments => .ok (b.write (.update b.model.tableName assignments id))

/-- The cells that an insertion binds. -/
def cells (b : Mapper) (r : Record) : List Stored :=
  r.entries.map fun entry => store (b.model.declaration? entry.1) entry.2

def insertion (b : Mapper) (replacing : Bool) (r : Record) : String × List Stored :=
  (b.write (.insert replacing b.model.tableName r.names), b.cells r)

/-- Inserts a record as a new row. -/
def insert (b : Mapper) (r : Record) : String × List Stored := b.insertion false r

/-- Inserts a record, replacing a row with the same key. -/
def upsert (b : Mapper) (r : Record) : String × List Stored := b.insertion true r

end Mapper

end SqlMapper
