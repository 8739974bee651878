import SqlMapper.Dialect
import SqlMapper.Schema.Diff

/-!
# Looking at tables

How a dialect asks for the columns and indexes of a table, and how it reads the rows that answer. A
row that does not name what it is about is passed over, and of several rows about one index only
the first counts.
-/

namespace SqlMapper

namespace Row

def text? (row : Row) (column : String) : Option String :=
  (Entries.get? column row).bind Stored.text?

def integer? (row : Row) (column : String) : Option Int64 :=
  (Entries.get? column row).bind Stored.integer?

/-- An integer of a row, zero if there is none. -/
def integerOrZero (row : Row) (column : String) : Int64 := (integer? row column).getD 0

end Row

namespace Dialect

/-- The query that lists the columns of a table. It has no rows if there is no table. -/
def columnQuery (d : Dialect) (table : String) : String :=
  match d.listing with
  | .showStatements => String.ofList ("SHOW FIELDS FROM ".toList ++ d.identifier table)
  | .pragmas => String.ofList ("PRAGMA table_info(".toList ++ d.string table ++ [')'])

/-- The query that lists the indexes of a table. -/
def indexQuery (d : Dialect) (table : String) : String :=
  match d.listing with
  | .showStatements => String.ofList ("SHOW INDEXES FROM ".toList ++ d.identifier table)
  | .pragmas => String.ofList ("PRAGMA index_list(".toList ++ d.string table ++ [')'])

/-- The column that a row is about. -/
def column? (d : Dialect) (row : Row) : Option LiveColumn :=
  match d.listing with
  | .showStatements => do
      let name ← Row.text? row "Field"
      let type ← Row.text? row "Type"
      let nullable := Row.text? row "Null" == some "YES"
      let primaryKey := Row.text? row "Key" == some "PRI"
      some { name, type, nullable, primaryKey }
  | .pragmas => do
      let name ← Row.text? row "name"
      let type := (Row.text? row "type").getD ""
      let nullable := Row.integerOrZero row "notnull" == 0
      let primaryKey := decide (0 < Row.integerOrZero row "pk")
      some { name, type, nullable, primaryKey }

/-- The index that a row is about. -/
def index? (d : Dialect) (row : Row) : Option LiveIndex :=
  match d.listing with
  | .showStatements => do
      let name ← Row.text? row "Key_name"
      let nonUnique ← Row.integer? row "Non_unique"
      some { name, unique := nonUnique == 0 }
  | .pragmas => do
      let name ← Row.text? row "name"
      some { name, unique := Row.integerOrZero row "unique" != 0 }

def columns (d : Dialect) (rows : List Row) : List LiveColumn := rows.filterMap d.column?

/-- Adds an index unless one of its name is there. -/
def addIndex (found : List LiveIndex) (index : LiveIndex) : List LiveIndex :=
  if (findIndex? found index.name).isSome then found else found ++ [index]

def indexes (d : Dialect) (rows : List Row) : List LiveIndex :=
  (rows.filterMap d.index?).foldl addIndex []

end Dialect

end SqlMapper
