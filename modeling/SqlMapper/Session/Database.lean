import SqlMapper.Session.Error
import SqlMapper.Value

/-!
# The database from outside

A `Database` answers statements: each takes some time and then has a result or fails. What a
session does with a database shows in `Event`s, which are what arrives there.
-/

namespace SqlMapper

/-- What a statement without rows reports. -/
structure RunResult where
  lastInsertId : Int64
  rowsAffected : UInt64
  deriving DecidableEq, Repr

/-- An answer after some milliseconds. -/
structure Reply (α : Type) where
  delay : Nat
  answer : Except DatabaseError α

structure Database where
  /-- A statement without rows. -/
  run : String → List Stored → Reply RunResult
  /-- All rows of a query. -/
  all : String → List Stored → Reply (List Row)
  /-- The first row of a query. -/
  get : String → List Stored → Reply (Option Row)
  /-- One statement of the batch that is given first. -/
  batch : List String → String → Reply Unit

inductive Event
  | run (sql : String) (params : List Stored)
  | all (sql : String) (params : List Stored)
  | get (sql : String) (params : List Stored)
  /-- Statements that take effect together or not at all. -/
  | openBatch (statements : List String)
  /-- A statement of a batch. -/
  | batch (sql : String)
  | close
  deriving DecidableEq, Repr

end SqlMapper
