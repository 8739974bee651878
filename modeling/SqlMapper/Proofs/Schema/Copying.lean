import SqlMapper.Proofs.Schema.Creation

/-! # Rows of a rebuilt table

A rebuild copies the columns that stay into a table that is made as declared. No column has a
default, so a declared column that was not there before is null in every copied row. The copied rows
therefore fit the new table exactly if no column is added that does not accept null; where one is,
a table with rows cannot be rebuilt.
-/

namespace SqlMapper

/-! ## Copied rows -/

/-- A row with a value in every column that does not accept null. -/
def Fills (columns : List LiveColumn) (row : Row) : Prop :=
  ∀ column ∈ columns, column.nullable = false → (Entries.get? column.name row).getD .null ≠ .null
  deriving Decidable

/-- What a copied row has in a column: the value that is selected for it, or null. -/
def copiedValue (selected inserted : List String) (row : Row) (column : String) : Stored :=
  ((Entries.get? column (inserted.zip selected)).bind fun name => Entries.get? name row).getD .null

def copiedRow (columns : List LiveColumn) (selected inserted : List String) (row : Row) : Row :=
  columns.map fun column => (column.name, copiedValue selected inserted row column.name)

/-- The copies of all rows, unless one of them does not fit the table. -/
def copyAll? (columns : List LiveColumn) (selected inserted : List String) (rows : List Row) :
    Option (List Row) :=
  rows.mapM fun row => some (copiedRow columns selected inserted row) |>.filter (Fills columns)

theorem get?_zip_self (names : List String) (name : String) :
    Entries.get? name (names.zip names) = if name ∈ names then some name else none := by
  induction names with
  | nil => rfl
  | cons first rest ih =>
    rw [List.zip_cons_cons, Entries.get?, ih]
    by_cases same : first = name
    · simp [same]
    · simp [same, Ne.symm same]

theorem copiedValue_self (names : List String) (row : Row) (column : String) :
    copiedValue names names row column =
      if column ∈ names then (Entries.get? column row).getD .null else .null := by
  rw [copiedValue, get?_zip_self]
  split <;> rfl

/-- A column has the same value in a row, however often it is there. -/
theorem get?_copiedRow {columns : List LiveColumn} (selected inserted : List String) (row : Row)
    {column : LiveColumn} (member : column ∈ columns) :
    Entries.get? column.name (copiedRow columns selected inserted row) =
      some (copiedValue selected inserted row column.name) := by
  induction columns with
  | nil => cases member
  | cons first rest ih =>
    rw [copiedRow, List.map_cons, Entries.get?]
    by_cases same : first.name = column.name
    · rw [if_pos same, same]
    · rw [if_neg same]
      rcases List.mem_cons.mp member with rfl | later
      · exact absurd rfl same
      · exact ih later

theorem fills_copiedRow {columns : List LiveColumn} {selected inserted : List String} {row : Row} :
    Fills columns (copiedRow columns selected inserted row) ↔
      ∀ column ∈ columns, column.nullable = false →
        copiedValue selected inserted row column.name ≠ .null := by
  refine forall₂_congr fun column member => imp_congr_right fun _ => ?_
  rw [get?_copiedRow selected inserted row member, Option.getD_some]

/-- Copied under their own names, rows that fill the copied columns fit exactly if all columns that
are to be filled are copied. -/
theorem fills_copiedRow_self {columns : List LiveColumn} {names : List String} {row : Row}
    (kept : Fills (columns.filter (·.name ∈ names)) row) :
    Fills columns (copiedRow columns names names row) ↔
      ∀ column ∈ columns, column.nullable = false → column.name ∈ names := by
  rw [fills_copiedRow]
  refine forall₂_congr fun column member => imp_congr_right fun filled => ?_
  rw [copiedValue_self]
  by_cases inside : column.name ∈ names
  · have value := kept column (List.mem_filter.mpr ⟨member, decide_eq_true inside⟩) filled
    simp [inside, value]
  · simp [inside]

theorem mapM_isSome {α β : Type} {f : α → Option β} {items : List α} :
    (items.mapM f).isSome ↔ ∀ a ∈ items, (f a).isSome := by
  induction items with
  | nil => simp
  | cons a items ih =>
    rw [List.mapM_cons, List.forall_mem_cons, ← ih]
    cases f a <;> cases items.mapM f <;> simp

theorem copyAll?_isSome {columns : List LiveColumn} {selected inserted : List String}
    {rows : List Row} : (copyAll? columns selected inserted rows).isSome ↔
      ∀ row ∈ rows, Fills columns (copiedRow columns selected inserted row) := by
  rw [copyAll?, mapM_isSome]
  simp

/-! ## Scripts that copy -/

/-- A script makes one table, and copies columns under their own names if any stay. -/
structure TableDiff.Copies (m : Model) (diff : TableDiff) (script : List Command) : Prop where
  created : ∀ table columns, .createTable table columns ∈ script ↔
    table = shadowName m.tableName ∧ columns = m.createdColumns
  copied : ∀ source target selected inserted, .copyRows source target selected inserted ∈ script ↔
    diff.retained ≠ [] ∧ source = m.tableName ∧ target = shadowName m.tableName ∧
      selected = diff.retained ∧ inserted = diff.retained

namespace TableDiff

variable {m : Model} {diff : TableDiff}

theorem statements_rebuild (rebuilt : diff.needsRebuild) :
    diff.statements .sqlite m = (diff.rebuild m).map (Definition.text .sqlite) := by
  rw [statements, definitions_sqlite, if_pos rebuilt]

/-- The texts of a rebuild are read as the commands that they are meant to be. -/
theorem rebuild_reads_back (rebuilt : diff.needsRebuild) :
    (diff.statements .sqlite m).mapM (Command.ofText? .sqlite) =
      some ((diff.rebuild m).map (Definition.command .sqlite)) := by
  rw [statements_rebuild rebuilt]
  exact Command.mapM_ofText?_definitions (.inr rfl) (diff.listed_rebuild m)

theorem copies_rebuild (d : Dialect) : diff.Copies m ((diff.rebuild m).map (Definition.command d)) := by
  have indexes {command : Command} (member : command ∈ (m.creation.indexes.map
      (IndexChange.definition m.tableName)).map (Definition.command d)) :
      ∃ name column unique, command = .createIndex m.tableName name column unique := by
    obtain ⟨s, inside, rfl⟩ := List.mem_map.mp member
    obtain ⟨change, created, rfl⟩ := List.mem_map.mp inside
    obtain ⟨entry, _, _, rfl⟩ := Model.mem_creation_indexes.mp created
    exact ⟨_, _, _, rfl⟩
  have noTable (table : String) (columns : List LiveColumn) : .createTable table columns ∉
      (m.creation.indexes.map (IndexChange.definition m.tableName)).map (Definition.command d) := by
    intro member
    obtain ⟨_, _, _, other⟩ := indexes member
    cases other
  have noCopy (source target : String) (selected inserted : List String) :
      .copyRows source target selected inserted ∉ (m.creation.indexes.map
        (IndexChange.definition m.tableName)).map (Definition.command d) := by
    intro member
    obtain ⟨_, _, _, other⟩ := indexes member
    cases other
  rw [rebuild, List.map_append]
  constructor
  · intro table columns
    rw [List.mem_append, or_iff_left (noTable table columns)]
    by_cases none_stay : diff.retained = [] <;>
      simp [Definition.command, Model.createTable, Model.createdColumns, none_stay]
  · intro source target selected inserted
    rw [List.mem_append, or_iff_left (noCopy source target selected inserted)]
    by_cases none_stay : diff.retained = [] <;>
      simp [Definition.command, Model.createTable, none_stay]

end TableDiff

namespace Model

variable {m : Model} {columns : List LiveColumn} {indexes : List LiveIndex}

theorem ne_nil_of_needsRebuild (rebuilt : (m.reconcile columns indexes).needsRebuild) :
    columns ≠ [] := by
  rintro rfl
  cases rebuilt

/-- The columns of a created table that do not accept null are declared so. -/
theorem mem_createdColumns_filled {column : LiveColumn} :
    column ∈ m.createdColumns ∧ column.nullable = false ↔
      ∃ name p, (name, p) ∈ m.columns ∧ p.nullable = false ∧ column = p.liveColumn name := by
  rw [createdColumns, List.mem_cons, List.mem_map]
  constructor
  · rintro ⟨rfl | ⟨⟨name, p⟩, declared, rfl⟩, filled⟩
    · cases filled
    · exact ⟨name, p, declared, filled, rfl⟩
  · rintro ⟨name, p, declared, filled, rfl⟩
    exact ⟨.inr ⟨_, declared, rfl⟩, filled⟩

section Rebuilt

variable (nonempty : columns ≠ [])

include nonempty

/-- A declared column stays unless it is added. -/
theorem retained_iff_not_added {name : String} {p : Property} (declared : (name, p) ∈ m.columns) :
    name ∈ (m.reconcile columns indexes).retained ↔
      ∀ q, .add name q ∉ (m.reconcile columns indexes).columns := by
  rw [mem_reconcile_retained nonempty, and_iff_left (keeps_of_declared declared)]
  simp only [add_mem_reconcile nonempty, not_and, not_not]
  exact ⟨fun present _ _ => present, fun all => all p declared⟩

theorem filled_retained_iff : (∀ column ∈ m.createdColumns, column.nullable = false →
      column.name ∈ (m.reconcile columns indexes).retained) ↔
    ∀ name p, .add name p ∈ (m.reconcile columns indexes).columns → p.nullable := by
  constructor
  · intro all name p added
    have declared := ((add_mem_reconcile nonempty).mp added).1
    by_contra filled
    rw [Bool.not_eq_true] at filled
    obtain ⟨member, _⟩ := mem_createdColumns_filled.mpr ⟨name, p, declared, filled, rfl⟩
    exact (retained_iff_not_added nonempty declared).mp (all _ member filled) p added
  · intro nullable column member filled
    obtain ⟨name, p, declared, notNull, rfl⟩ := mem_createdColumns_filled.mp ⟨member, filled⟩
    refine (retained_iff_not_added nonempty declared).mpr fun q added => ?_
    have same := declared_unique ((add_mem_reconcile nonempty).mp added).1 declared
    rw [← same, nullable name q added] at notNull
    cases notNull

end Rebuilt

/-- A rebuild copies every column that the new table is to fill, except those that the diff adds.
Rows that fill the columns that stay can be copied unless there are any and such a column is
added. -/
theorem rebuild_copies_rows (m : Model) (columns : List LiveColumn) (indexes : List LiveIndex)
    (rebuilt : (m.reconcile columns indexes).needsRebuild) :
    let diff := m.reconcile columns indexes
    ∃ script, (diff.statements .sqlite m).mapM (Command.ofText? .sqlite) = some script ∧
      diff.Copies m script ∧
      (∀ column ∈ m.createdColumns, column.nullable = false →
        (column.name ∈ diff.retained ↔ ∀ p, .add column.name p ∉ diff.columns)) ∧
      ∀ source target selected inserted created,
        .createTable target created ∈ script → .copyRows source target selected inserted ∈ script →
        ∀ rows, (∀ row ∈ rows, Fills (created.filter (·.name ∈ inserted)) row) →
          ((copyAll? created selected inserted rows).isSome ↔
            rows = [] ∨ ∀ name p, .add name p ∈ diff.columns → p.nullable) := by
  intro diff
  have nonempty := ne_nil_of_needsRebuild rebuilt
  have copies : diff.Copies m ((diff.rebuild m).map (Definition.command .sqlite)) :=
    diff.copies_rebuild .sqlite
  refine ⟨_, TableDiff.rebuild_reads_back rebuilt, copies, ?_, ?_⟩
  · intro column member filled
    obtain ⟨name, p, declared, _, rfl⟩ := mem_createdColumns_filled.mp ⟨member, filled⟩
    exact retained_iff_not_added nonempty declared
  · intro source target selected inserted created makes copied rows fills
    obtain ⟨_, rfl⟩ := (copies.created _ _).mp makes
    obtain ⟨_, _, _, rfl, rfl⟩ := (copies.copied _ _ _ _).mp copied
    have fits := fun row member => fills_copiedRow_self (fills row member)
    rw [copyAll?_isSome, forall₂_congr fits, ← filled_retained_iff nonempty]
    -- whether a row fits does not depend on the row
    cases rows with
    | nil => simp
    | cons row rows =>
      rw [or_iff_right (List.cons_ne_nil row rows)]
      exact ⟨fun all => all row List.mem_cons_self, fun all _ _ => all⟩

/-- One column is no longer to accept null, and one that accepts it is added: rows with a value in
the first can be copied. -/
theorem rebuild_copies_rows_filled :
    let m := ((Model.ofName "User").define "name" Property.string.notNull).define "age"
      Property.number
    let columns : List LiveColumn := [⟨"id", "INTEGER", true, true⟩, ⟨"name", "TEXT", true, false⟩]
    let rows : List Row := [[("id", .int 1), ("name", .text "Ada")],
      [("id", .int 2), ("name", .text "")]]
    (m.reconcile columns []).needsRebuild ∧
      (∀ row ∈ rows, Fills (m.createdColumns.filter (·.name ∈ ["id", "name"])) row) ∧
      (copyAll? m.createdColumns ["id", "name"] ["id", "name"] rows).isSome := by
  intro m columns rows
  have rebuilt : (m.reconcile columns []).needsRebuild := by decide +kernel
  have fills : ∀ row ∈ rows, Fills (m.createdColumns.filter (·.name ∈ ["id", "name"])) row := by
    decide +kernel
  obtain ⟨script, _, copies, _, fits⟩ := rebuild_copies_rows m columns [] rebuilt
  have created := (copies.created _ _).mpr ⟨rfl, rfl⟩
  have copied := (copies.copied _ _ ["id", "name"] ["id", "name"]).mpr
    ⟨by decide +kernel, rfl, rfl, by decide +kernel, by decide +kernel⟩
  refine ⟨rebuilt, fills, (fits _ _ _ _ _ created copied rows fills).mpr (.inr ?_)⟩
  have changes : (m.reconcile columns []).columns =
      [.change "name" Property.string.notNull, .add "age" Property.number] := by decide +kernel
  intro name p added
  rw [changes] at added
  obtain ⟨rfl, rfl⟩ : name = "age" ∧ p = Property.number := by simpa using added
  rfl

/-- Not every column that the new table is to fill is copied. -/
theorem rebuild_leaves_unfilled :
    ¬ ∀ (m : Model) (columns : List LiveColumn) (indexes : List LiveIndex),
      (m.reconcile columns indexes).needsRebuild →
      ∀ script, ((m.reconcile columns indexes).statements .sqlite m).mapM
        (Command.ofText? .sqlite) = some script →
      ∀ shadow created, .createTable shadow created ∈ script →
      ∀ column ∈ created, column.nullable = false →
        ∃ source selected inserted, .copyRows source shadow selected inserted ∈ script ∧
          column.name ∈ inserted := by
  intro copied
  let m := ((Model.ofName "User").define "name" Property.string).define "email"
    Property.string.notNull
  let columns : List LiveColumn :=
    [⟨"id", "INTEGER", true, true⟩, ⟨"name", "VARCHAR(255)", true, false⟩]
  let diff := m.reconcile columns []
  have rebuilt : diff.needsRebuild := by decide +kernel
  have copies : diff.Copies m ((diff.rebuild m).map (Definition.command .sqlite)) :=
    diff.copies_rebuild .sqlite
  obtain ⟨source, selected, inserted, member, inside⟩ := copied m columns [] rebuilt _
    (TableDiff.rebuild_reads_back rebuilt) _ _ ((copies.created _ _).mpr ⟨rfl, rfl⟩)
    ⟨"email", "VARCHAR(255)", false, false⟩ (by decide +kernel) rfl
  obtain ⟨_, _, _, _, rfl⟩ := (copies.copied _ _ _ _).mp member
  exact absurd inside (by decide +kernel)

end Model

end SqlMapper
