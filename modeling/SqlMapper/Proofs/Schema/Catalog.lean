import SqlMapper.Proofs.Entries
import SqlMapper.Proofs.Schema.Command

/-! # Databases under commands

A catalog holds the tables of a database by name, and a table its columns and its indexes. A command
changes the catalog or fails: where it adds what there is, names what there is not, or removes a
column that an index is still on. An index is named within its table or, in a dialect of global
indexes, within the catalog.
-/

namespace SqlMapper

structure TableIndex where
  name : String
  column : String
  unique : Bool
  deriving DecidableEq, Repr

structure Table where
  columns : List LiveColumn
  indexes : List TableIndex := []
  deriving DecidableEq, Repr

namespace Table

def columnNames (t : Table) : List String := t.columns.map LiveColumn.name

def indexNames (t : Table) : List String := t.indexes.map TableIndex.name

/-- What the database reports of a table. -/
def live (t : Table) : LiveTable :=
  ⟨t.columns, t.indexes.map fun index => ⟨index.name, index.unique⟩⟩

/-- Changes the columns of a table; a renaming is not one of its columns. -/
def act? (t : Table) : Action → Option Table
  | .add column =>
      if column.name ∈ t.columnNames then none
      else some { t with columns := t.columns ++ [column] }
  | .change column =>
      if column.name ∈ t.columnNames then
        some { t with columns := t.columns.map fun old =>
          if old.name = column.name then
            { old with type := column.type, nullable := column.nullable }
          else old }
      else none
  | .drop name =>
      if name ∈ t.columnNames ∧ ∀ index ∈ t.indexes, index.column ≠ name then
        some { t with columns := t.columns.filter fun column => column.name != name }
      else none
  | .rename _ => none

def addIndex? (t : Table) (index : TableIndex) : Option Table :=
  if index.name ∉ t.indexNames ∧ index.column ∈ t.columnNames then
    some { t with indexes := t.indexes ++ [index] }
  else none

/-- A table without the indexes of a name. -/
def withoutIndex (t : Table) (name : String) : Table :=
  { t with indexes := t.indexes.filter fun index => index.name != name }

def dropIndex? (t : Table) (name : String) : Option Table :=
  if name ∈ t.indexNames then some (t.withoutIndex name) else none

end Table

abbrev Catalog := Keyed Table

namespace Catalog

/-- Changes every table. -/
def map (f : Table → Table) (c : Catalog) : Catalog :=
  ⟨c.entries.map fun entry => (entry.1, f entry.2), by
    simpa [Entries.names, Function.comp_def] using c.distinct⟩

/-- Gives the table of a name what a change leaves of it. -/
def modify? (c : Catalog) (table : String) (change : Table → Option Table) : Option Catalog :=
  (c.get? table).bind fun t => (change t).map (c.put table)

/-- Whether some table has an index of that name. -/
def hasIndex (c : Catalog) (name : String) : Bool :=
  c.entries.any fun entry => decide (name ∈ entry.2.indexNames)

def act? (c : Catalog) (table : String) : Action → Option Catalog
  | .rename target =>
      (c.get? table).bind fun t =>
        if c.contains target then none else some ((c.erase table).put target t)
  | action => c.modify? table (·.act? action)

/-- A renamed table goes on under its new name. -/
def alter? (c : Catalog) (table : String) : List Action → Option Catalog
  | [] => some c
  | .rename target :: rest => (c.act? table (.rename target)).bind (·.alter? target rest)
  | action :: rest => (c.act? table action).bind (·.alter? table rest)

/-- Carries out a command, unless it fails. -/
def exec? (d : Dialect) (c : Catalog) : Command → Option Catalog
  | .createTable table columns =>
      if c.contains table ∨ ¬ (columns.map LiveColumn.name).Nodup then none
      else some (c.put table { columns })
  | .dropTable table ifExists =>
      if c.contains table ∨ ifExists then some (c.erase table) else none
  | .alterTable table actions => if c.contains table then c.alter? table actions else none
  | .createIndex table name column unique =>
      if d.globalIndexes ∧ c.hasIndex name then none
      else c.modify? table (·.addIndex? ⟨name, column, unique⟩)
  | .dropIndex (some table) name => c.modify? table (·.dropIndex? name)
  | .dropIndex none name => some (c.map (·.withoutIndex name))
  | .copyRows source target selected inserted =>
      (c.get? source).bind fun s => (c.get? target).bind fun t =>
        if selected ⊆ s.columnNames ∧ inserted ⊆ t.columnNames ∧
          selected.length = inserted.length then some c else none

/-- Carries out the commands of a script, one after the other. -/
def run? (d : Dialect) (c : Catalog) (script : List Command) : Option Catalog :=
  script.foldlM (exec? d) c

/-- Reads and carries out one text after the other. -/
def runTexts? (d : Dialect) (c : Catalog) (texts : List String) : Option Catalog :=
  texts.foldlM (fun c text => (Command.ofText? d text).bind (c.exec? d)) c

/-- The texts of definitions do what the definitions are meant to. -/
theorem runTexts?_definitions {d : Dialect} (known : d.IsKnown) {script : List Definition}
    (listed : ∀ s ∈ script, s.Listed) (c : Catalog) :
    c.runTexts? d (script.map (Definition.text d)) =
      c.run? d (script.map (Definition.command d)) := by
  induction script generalizing c with
  | nil => rfl
  | cons s script ih =>
    obtain ⟨first, rest⟩ := List.forall_mem_cons.mp listed
    have read := Command.ofText?_definition known first
    simp only [runTexts?, run?, List.map_cons, List.foldlM_cons, read, Option.bind_some] at ih ⊢
    congr 1
    funext next
    exact ih rest next

theorem run?_append (d : Dialect) (c : Catalog) (front back : List Command) :
    c.run? d (front ++ back) = (c.run? d front).bind fun next => next.run? d back :=
  List.foldlM_append

end Catalog

end SqlMapper
