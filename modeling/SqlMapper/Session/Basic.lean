import SqlMapper.Query.Mapper
import SqlMapper.Session.Activity
import SqlMapper.Session.Registry
import SqlMapper.Session.Settings

/-!
# Sessions

A session knows the models, the dialect and the settings. Its operations find the model, write a
statement, send it and read the answer. A request that is turned down sends nothing, and any other
sends one statement.
-/

namespace SqlMapper

structure Session where
  dialect : Dialect
  settings : Settings := {}
  registry : Registry := Registry.empty

namespace Session

variable (s : Session) (db : Database)

/-- Registers a model, replacing one of the same name. -/
def define (m : Model) : Session := { s with registry := s.registry.define m }

def model (name : String) : Except SessionError Model :=
  match s.registry.get? name with
  | some m => .ok m
  | none => .error (.unknownModel name)

/-- Declares a property of a registered model. -/
def defineProperty (name property : String) (p : Property) : Except SessionError Session := do
  let m ← s.model name
  .ok (s.define (m.define property p))

/-- The registered models in the order of their names. -/
def models : List Model := s.registry.models

def mapperOf (m : Model) : Mapper :=
  { dialect := s.dialect, model := m, orMode := s.settings.orMode }

def mapper (name : String) : Except SessionError Mapper := s.mapperOf <$> s.model name

/-- Sends something, within the time for a statement. -/
def bounded (activity : Activity α) : Activity α := activity.within s.settings.statementTimeout

def run (sql : String) (params : List Stored) : Activity RunResult :=
  s.bounded (.ofReply (.run sql params) (db.run sql params))

def all (sql : String) : Activity (List Row) := s.bounded (.ofReply (.all sql []) (db.all sql []))

def get (sql : String) : Activity (Option Row) :=
  s.bounded (.ofReply (.get sql []) (db.get sql []))

/-- What becomes of a statement that may have been turned down. -/
def accepted (sql : Except QueryError α) : Activity α := .ofOutcome (sql.mapError .query)

/-- Inserts a record and gives the identity of its row. -/
def create (name : String) (r : Record) : Activity Int64 := do
  let b ← Activity.ofOutcome (s.mapper name)
  let (sql, params) := b.insert r
  let result ← s.run db sql params
  return result.lastInsertId

/-- Inserts a record, replacing a row of its identity, and gives the record with its identity. -/
def updateOrCreate (name : String) (r : Record) : Activity Record := do
  let b ← Activity.ofOutcome (s.mapper name)
  let (sql, params) := b.upsert r
  let result ← s.run db sql params
  return match Record.id? r with
    | some _ => r
    | none => Record.insert r idName result.lastInsertId

/-- Writes a record to the row of its identity. -/
def save (name : String) (r : Record) : Activity Unit := do
  let b ← Activity.ofOutcome (s.mapper name)
  let sql ← accepted (b.update r)
  let _ ← s.run db sql []

/-- Writes a record to the row of a given identity. -/
def updateAttributes (name : String) (id : Int64) (r : Record) : Activity Unit :=
  s.save db name (Record.insert r idName id)

def findById (name : String) (id : Int64) : Activity (Option Record) := do
  let b ← Activity.ofOutcome (s.mapper name)
  let row ← s.get db (b.selectById id)
  return row.map fun row => Record.insert (restoreRow b.model row) idName id

/-- The records that a filter asks for. -/
def find (name : String) (f : Filter) : Activity (List Record) := do
  let b ← Activity.ofOutcome (s.mapper name)
  let sql ← accepted (b.select f)
  let rows ← s.all db sql
  return rows.map (restoreRow b.model)

def rowExists (name : String) (id : Int64) : Activity Bool := do
  let b ← Activity.ofOutcome (s.mapper name)
  let row ← s.get db (b.rowExists id)
  return row.isSome

/-- Deletes the rows that meet some criteria and gives their number. -/
def remove (name : String) (c : Option Criteria) : Activity UInt64 := do
  let b ← Activity.ofOutcome (s.mapper name)
  let sql ← accepted (b.delete c)
  let result ← s.run db sql []
  return result.rowsAffected

/-- Deletes the row of an identity and tells whether there was one. -/
def destroy (name : String) (id : Int64) : Activity Bool := do
  let b ← Activity.ofOutcome (s.mapper name)
  let result ← s.run db (b.deleteById id) []
  return decide (0 < result.rowsAffected)

/-- Deletes all rows and gives their number. -/
def destroyAll (name : String) : Activity UInt64 := do
  let b ← Activity.ofOutcome (s.mapper name)
  let result ← s.run db b.deleteAll []
  return result.rowsAffected

/-- The count in a row, zero if there is none. -/
def countOf (row : Option Row) : Int64 :=
  ((row.bind (Entries.get? "cnt")).bind Stored.integer?).getD 0

/-- Counts the rows that meet some criteria, or all. -/
def count (name : String) (c : Option Criteria) : Activity Int64 := do
  let b ← Activity.ofOutcome (s.mapper name)
  let sql ← accepted (b.count c)
  let row ← s.get db sql
  return countOf row

/-- Closes the connection. -/
def disconnect : Activity Unit := .signal .close

end Session

end SqlMapper
