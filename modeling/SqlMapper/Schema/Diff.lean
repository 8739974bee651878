import SqlMapper.Model.Basic

/-!
# Differences between tables and models

`LiveColumn` and `LiveIndex` are what the database reports of a table. `TableDiff` lists what has
to be done to bring the table in line with its model, and `reconcile` finds it. Types are compared
without blanks and case.
-/

namespace SqlMapper

structure LiveColumn where
  name : String
  type : String
  nullable : Bool
  primaryKey : Bool := false
  deriving DecidableEq, Repr

structure LiveIndex where
  name : String
  unique : Bool
  deriving DecidableEq, Repr

inductive ColumnChange
  | add (name : String) (property : Property)
  | change (name : String) (property : Property)
  | drop (name : String)
  deriving DecidableEq, Repr

inductive IndexChange
  | create (name column : String) (unique : Bool)
  | drop (name : String)
  deriving DecidableEq, Repr

structure TableDiff where
  createTable : Bool := false
  columns : List ColumnChange := []
  indexes : List IndexChange := []
  /-- The columns that stay, in the order of the table. -/
  retained : List String := []
  deriving DecidableEq, Repr

def ColumnChange.isChange : ColumnChange → Bool
  | .change .. => true
  | _ => false

def IndexChange.isDrop : IndexChange → Bool
  | .drop _ => true
  | _ => false

namespace TableDiff

def isEmpty (diff : TableDiff) : Bool :=
  !diff.createTable && diff.columns.isEmpty && diff.indexes.isEmpty

/-- Whether a column that stays is altered. -/
def hasChanges (diff : TableDiff) : Bool := diff.columns.any ColumnChange.isChange

end TableDiff

/-- The type of the column of a property. No dialect has types of its own: the same type stands in
the definitions of each, and columns are compared by it whatever the dialect. -/
def Property.columnType (p : Property) : String :=
  let size (standard : Nat) : String := Text.natText ((p.limit.map UInt32.toNat).getD standard)
  match p.kind with
  | .string => "VARCHAR(" ++ size 255 ++ ")"
  | .text => "TEXT"
  | .json => "TEXT"
  | .number => "INT(" ++ size 11 ++ ")"
  | .date => "DATETIME"
  | .boolean => "TINYINT(1)"

/-- The capitals of a character, where these are letters A to Z. All column types consist of such
characters, so a type with any other differs from them whatever its capitals. -/
def capitals (c : Char) : List Char :=
  let n := c.toNat
  if 97 ≤ n ∧ n ≤ 122 then [Char.ofNat (n - 32)]
  else if n = 0x131 then ['I']
  else if n = 0x17F then ['S']
  else if n = 0xDF then ['S', 'S']
  else if n = 0xFB00 then ['F', 'F']
  else if n = 0xFB01 then ['F', 'I']
  else if n = 0xFB02 then ['F', 'L']
  else if n = 0xFB03 then ['F', 'F', 'I']
  else if n = 0xFB04 then ['F', 'F', 'L']
  else if n = 0xFB05 ∨ n = 0xFB06 then ['S', 'T']
  else [c]

/-- A type without its blanks and in capitals. -/
def normalType (type : String) : List Char :=
  (type.toList.filter fun c => !Text.isBlank c).flatMap capitals

/-- Whether a column is not as its property declares it. -/
def LiveColumn.differs (column : LiveColumn) (p : Property) : Bool :=
  column.nullable != p.nullable || normalType column.type != normalType p.columnType

def findColumn? (columns : List LiveColumn) (name : String) : Option LiveColumn :=
  columns.find? (·.name == name)

def findIndex? (indexes : List LiveIndex) (name : String) : Option LiveIndex :=
  indexes.find? (·.name == name)

namespace Model

def createIndex (m : Model) (name : String) (p : Property) : IndexChange :=
  .create (m.indexName name) name p.unique

/-- What makes a missing table: the table itself and the indexes that are wanted. -/
def creation (m : Model) : TableDiff where
  createTable := true
  indexes := (m.columns.filter (·.2.wantsIndex)).map fun entry => m.createIndex entry.1 entry.2

/-- What a declared column needs: to be added, to be altered, or nothing. -/
def columnChange? (live : List LiveColumn) (name : String) (p : Property) : Option ColumnChange :=
  match findColumn? live name with
  | none => some (.add name p)
  | some column => if column.differs p then some (.change name p) else none

/-- Whether a column of the table stays: the key and the declared ones do. -/
def keeps (m : Model) (column : String) : Bool := column == idName || (m.get? column).isSome

/-- What the index of a declared column needs. An index of the other uniqueness is replaced. -/
def indexChanges (m : Model) (live : List LiveIndex) (name : String) (p : Property) :
    List IndexChange :=
  match p.wantsIndex, findIndex? live (m.indexName name) with
  | true, none => [m.createIndex name p]
  | true, some index =>
      if index.unique != p.unique then [.drop (m.indexName name), m.createIndex name p] else []
  | false, some _ => [.drop (m.indexName name)]
  | false, none => []

/-- Whether an index belongs to a column that is no longer declared. -/
def isOrphan (m : Model) (live : List LiveColumn) (index : LiveIndex) : Bool :=
  match Text.dropStart? (m.indexName "").toList index.name.toList with
  | none => false
  | some rest =>
      let property := String.ofList rest
      property != idName && (m.get? property).isNone && live.any (·.name == property)

/-- What separates a table from its model. Without columns there is no table. Column additions and
alterations come first, in declared order, and then removals, in the order of the table. -/
def reconcile (m : Model) (columns : List LiveColumn) (indexes : List LiveIndex) : TableDiff :=
  if columns.isEmpty then m.creation
  else
    let live := columns.map LiveColumn.name
    { columns :=
        m.columns.filterMap (fun entry => columnChange? columns entry.1 entry.2) ++
          (live.filter fun name => !m.keeps name).map ColumnChange.drop
      indexes :=
        m.columns.flatMap (fun entry => m.indexChanges indexes entry.1 entry.2) ++
          (indexes.filter (m.isOrphan columns)).map fun index => IndexChange.drop index.name
      retained := live.filter m.keeps }

end Model

end SqlMapper
