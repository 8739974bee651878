import SqlMapper.Literal
import SqlMapper.Query.Predicate
import SqlMapper.Schema.Diff

/-!
# Statements on tables

A `Definition` creates, alters or removes a table or an index; `Definition.text` writes it in a
dialect. `TableDiff.definitions` carries out a diff. Index removals come first, then the column
changes, then index creations. Where a column cannot be altered in place the table is rebuilt: a
shadow table is made as declared, the rows are copied into it, and it takes the place of the table.
-/

namespace SqlMapper

/-- A change of a table in place. -/
inductive Alter
  | column (change : ColumnChange)
  | rename (table : String)
  deriving DecidableEq, Repr

inductive Definition
  /-- A table with the key column and the given others. -/
  | createTable (table : String) (columns : Entries Property)
  | dropTable (table : String) (ifExists : Bool)
  | alterTable (table : String) (changes : List Alter)
  | createIndex (table name column : String) (unique : Bool)
  | dropIndex (table name : String)
  /-- Copies the given columns of all rows of one table to another. -/
  | copyRows (source target : String) (columns : List String)
  deriving DecidableEq, Repr

namespace Dialect

/-- The type of a column and whether it accepts null. -/
def columnSettings (p : Property) : List Char :=
  p.columnType.toList ++ (if p.nullable then " NULL" else " NOT NULL").toList

def columnDefinition (d : Dialect) (name : String) (p : Property) : List Char :=
  d.identifier name ++ ' ' :: columnSettings p

/-- The key column. -/
def primaryKey (d : Dialect) : List Char := d.identifier idName ++ " INTEGER PRIMARY KEY".toList

def columnChange (d : Dialect) : ColumnChange → List Char
  | .add name p => "ADD COLUMN ".toList ++ d.columnDefinition name p
  | .change name p =>
      "CHANGE COLUMN ".toList ++ d.identifier name ++ ' ' :: d.columnDefinition name p
  | .drop name => "DROP COLUMN ".toList ++ d.identifier name

def alter (d : Dialect) : Alter → List Char
  | .column change => d.columnChange change
  | .rename table => "RENAME TO ".toList ++ d.identifier table

def definition (d : Dialect) : Definition → List Char
  | .createTable table columns =>
      "CREATE TABLE ".toList ++ d.identifier table ++ " (\n  ".toList ++
        Text.joinWith ",\n  ".toList
          (d.primaryKey :: columns.map fun entry => d.columnDefinition entry.1 entry.2) ++
        "\n)".toList
  | .dropTable table ifExists =>
      (if ifExists then "DROP TABLE IF EXISTS " else "DROP TABLE ").toList ++ d.identifier table
  | .alterTable table changes =>
      "ALTER TABLE ".toList ++ d.identifier table ++ ' ' :: commaJoined (changes.map d.alter)
  | .createIndex table name column unique =>
      (if unique then "CREATE UNIQUE INDEX " else "CREATE INDEX ").toList ++ d.identifier name ++
        " ON ".toList ++ d.identifier table ++ " (".toList ++ d.identifier column ++
        " ASC)".toList
  | .dropIndex table name =>
      if d.globalIndexes then "DROP INDEX IF EXISTS ".toList ++ d.identifier name
      else "DROP INDEX ".toList ++ d.identifier name ++ " ON ".toList ++ d.identifier table
  | .copyRows source target columns =>
      let names := commaJoined (columns.map d.identifier)
      "INSERT INTO ".toList ++ d.identifier target ++ " (".toList ++ names ++
        ") SELECT ".toList ++ names ++ " FROM ".toList ++ d.identifier source

end Dialect

/-- The text of a definition in a dialect. -/
def Definition.text (d : Dialect) (s : Definition) : String := String.ofList (d.definition s)

/-- The table of a model under a name of choice. -/
def Model.createTable (m : Model) (table : String) : Definition := .createTable table m.columns

def IndexChange.definition (table : String) : IndexChange → Definition
  | .create name column unique => .createIndex table name column unique
  | .drop name => .dropIndex table name

namespace TableDiff

/-- Whether a change cannot be made in place by a dialect that alters columns separately: an
altered column, or a new one that does not accept null. A table yet to be made needs no
rebuilding. -/
def needsRebuild (diff : TableDiff) : Bool :=
  !diff.createTable && diff.columns.any fun
    | .change .. => true
    | .add _ p => !p.nullable
    | .drop _ => false

/-- The name of the table that takes the place of a rebuilt one. -/
def shadowName (table : String) : String := table ++ "__rebuild"

/-- Rebuilds the table. Its indexes go away with it and are made again as declared. -/
def rebuild (m : Model) (diff : TableDiff) : List Definition :=
  let table := m.tableName
  let shadow := shadowName table
  [.dropTable shadow true, m.createTable shadow] ++
    (if diff.retained.isEmpty then [] else [.copyRows table shadow diff.retained]) ++
    [.dropTable table false, .alterTable shadow [.rename table]] ++
    m.creation.indexes.map (IndexChange.definition table)

/-- The column changes as statements. -/
def alterations (alteration : Alteration) (table : String) (changes : List ColumnChange) :
    List Definition :=
  match alteration with
  | .joined => if changes.isEmpty then [] else [.alterTable table (changes.map .column)]
  | .separate => changes.map fun change => .alterTable table [.column change]

/-- Carries out a diff without rebuilding. -/
def inPlace (d : Dialect) (m : Model) (diff : TableDiff) : List Definition :=
  let table := m.tableName
  (if diff.createTable then [m.createTable table] else []) ++
    (diff.indexes.filter IndexChange.isDrop).map (IndexChange.definition table) ++
    alterations d.alteration table diff.columns ++
    (diff.indexes.filter (!·.isDrop)).map (IndexChange.definition table)

/-- The statements that carry out a diff, in order. -/
def definitions (d : Dialect) (m : Model) (diff : TableDiff) : List Definition :=
  match d.alteration with
  | .joined => diff.inPlace d m
  | .separate => if diff.needsRebuild then diff.rebuild m else diff.inPlace d m

/-- The texts of the statements that carry out a diff. -/
def statements (d : Dialect) (m : Model) (diff : TableDiff) : List String :=
  (diff.definitions d m).map (Definition.text d)

end TableDiff

end SqlMapper
