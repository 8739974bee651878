import SqlMapper.Query.Filter
import SqlMapper.Query.Predicate

/-!
# Statements on rows

A `Statement` says what is done to the rows of a table; `Statement.text` writes it in a dialect.
Values are written into the statement, except those of an insertion, which are bound to its
placeholders.
-/

namespace SqlMapper

inductive Statement
  | select (table : String) (condition : Option Predicate) (order : List OrderTerm)
      (limit : Option UInt64) (offset : UInt64)
  | selectById (table : String) (id : Int64)
  | rowExists (table : String) (id : Int64)
  | count (table : String) (condition : Option Predicate)
  | delete (table : String) (condition : Option Predicate)
  | deleteById (table : String) (id : Int64)
  | update (table : String) (assignments : List (String × Literal)) (id : Int64)
  /-- An insertion; `replacing` replaces a row with the same key. -/
  | insert (replacing : Bool) (table : String) (columns : List String)
  deriving DecidableEq, Repr

namespace Dialect

/-- A clause behind a blank, if there is one. -/
def clause : Option (List Char) → List Char
  | none => []
  | some cs => ' ' :: cs

/-- A condition with its keyword. -/
def condition (d : Dialect) (p : Predicate) : List Char := "WHERE ".toList ++ d.predicate p

def orderTerm (d : Dialect) (t : OrderTerm) : List Char :=
  match t.direction with
  | .ascending => d.field t.field
  | .descending => d.field t.field ++ " DESC".toList

def orderClause? (d : Dialect) : List OrderTerm → Option (List Char)
  | [] => none
  | terms => some ("ORDER BY ".toList ++ commaJoined (terms.map d.orderTerm))

/-- The condition on the key. -/
def idCondition (d : Dialect) (id : Int64) : List Char :=
  " WHERE ".toList ++ d.identifier idName ++ " = ".toList ++ Text.intDigits id.toInt

def assignment (d : Dialect) (a : String × Literal) : List Char :=
  d.field a.1 ++ " = ".toList ++ d.literal a.2

/-- Column names and one placeholder each. -/
def insertionColumns (d : Dialect) : List String → List Char
  | [] => d.defaultValues.toList
  | columns =>
      '(' :: commaJoined (columns.map d.field) ++ ") VALUES (".toList ++
        commaJoined (columns.map fun _ => ['?']) ++ [')']

def statement (d : Dialect) : Statement → List Char
  | .select table condition order limit offset =>
      "SELECT * FROM ".toList ++ d.identifier table ++ clause (condition.map d.condition) ++
        clause (d.orderClause? order) ++ clause (d.page? limit offset)
  | .selectById table id =>
      "SELECT * FROM ".toList ++ d.identifier table ++ d.idCondition id ++ " LIMIT 1".toList
  | .rowExists table id =>
      "SELECT 1 FROM ".toList ++ d.identifier table ++ d.idCondition id ++ " LIMIT 1".toList
  | .count table condition =>
      "SELECT count(*) as cnt FROM ".toList ++ d.identifier table ++
        clause (condition.map d.condition)
  | .delete table condition =>
      "DELETE FROM ".toList ++ d.identifier table ++ clause (condition.map d.condition)
  | .deleteById table id => "DELETE FROM ".toList ++ d.identifier table ++ d.idCondition id
  | .update table assignments id =>
      "UPDATE ".toList ++ d.identifier table ++ " SET ".toList ++
        commaJoined (assignments.map d.assignment) ++ d.idCondition id
  | .insert replacing table columns =>
      (if replacing then d.replaceInto else "INSERT INTO").toList ++ ' ' :: d.identifier table ++
        ' ' :: d.insertionColumns columns

end Dialect

/-- The text of a statement in a dialect. -/
def Statement.text (d : Dialect) (s : Statement) : String := String.ofList (d.statement s)

end SqlMapper
