import SqlMapper.Proofs.Schema.Rebuild

/-! # Created tables read back

The texts that make a missing table are read back as a table with the key and the declared columns,
and as the indexes that are wanted. A database that reports just these has nothing to be changed,
since columns are compared by the types they are written with and indexes by the names they are
created under. Names are quoted, so nothing in a name can end its column or its table.
-/

namespace SqlMapper

namespace Command

/-- The index that a command creates. -/
def index? : Command → Option LiveIndex
  | .createIndex _ name _ unique => some ⟨name, unique⟩
  | _ => none

/-- The texts of definitions are read as the commands that they are meant to be. -/
theorem mapM_ofText?_definitions {d : Dialect} (known : d.IsKnown) {script : List Definition}
    (listed : ∀ s ∈ script, s.Listed) :
    (script.map (Definition.text d)).mapM (ofText? d) =
      some (script.map (Definition.command d)) := by
  induction script with
  | nil => rfl
  | cons s script ih =>
    obtain ⟨first, rest⟩ := List.forall_mem_cons.mp listed
    rw [List.map_cons, List.mapM_cons, ofText?_definition known first, ih rest]
    rfl

end Command

/-- Created indexes come behind those there are, and the commands that create them tell them. -/
theorem IndexChange.foldl_applyTo_creates (d : Dialect) (table : String)
    {changes : List IndexChange} (creates : ∀ change ∈ changes, change.isDrop = false)
    (indexes : List LiveIndex) :
    changes.foldl applyTo indexes =
      indexes ++ ((changes.map (definition table)).map (Definition.command d)).filterMap
        Command.index? := by
  induction changes generalizing indexes with
  | nil => exact (List.append_nil _).symm
  | cons change changes ih =>
    obtain ⟨first, rest⟩ := List.forall_mem_cons.mp creates
    cases change with
    | drop name => cases first
    | create name column unique =>
      rw [List.foldl_cons, ih rest, applyTo, List.append_assoc]
      rfl

namespace Model

variable (m : Model)

theorem creation_isDrop : ∀ change ∈ m.creation.indexes, change.isDrop = false := by
  intro change member
  obtain ⟨entry, _, _, rfl⟩ := mem_creation_indexes.mp member
  rfl

/-- A missing table is made by creating it and then its indexes, never by a rebuild. -/
theorem definitions_creation (d : Dialect) :
    m.creation.definitions d m =
      m.createTable m.tableName :: m.creation.indexes.map (IndexChange.definition m.tableName) := by
  have noDrops : m.creation.indexes.filter IndexChange.isDrop = [] := by
    rw [List.filter_eq_nil_iff]
    intro change member
    simp [m.creation_isDrop change member]
  have allCreates : m.creation.indexes.filter (!·.isDrop) = m.creation.indexes := by
    rw [List.filter_eq_self]
    intro change member
    simp [m.creation_isDrop change member]
  have noColumns : m.creation.columns = [] := rfl
  have made : m.creation.createTable = true := rfl
  have inPlace : m.creation.inPlace d m =
      m.createTable m.tableName :: m.creation.indexes.map (IndexChange.definition m.tableName) := by
    rw [TableDiff.inPlace, if_pos made, noDrops, allCreates, noColumns]
    cases d.alteration <;> rfl
  unfold TableDiff.definitions
  split
  · exact inPlace
  · exact inPlace

/-- A created table is read back with the key and then every declared column once, in order, with
its type and its nullability. Taken for what the database reports, together with the indexes that
are read back, it leaves nothing to be done. -/
theorem creation_reads_back {d : Dialect} (known : d.IsKnown) :
    ∃ columns indexing,
      Command.ofText? d ((m.createTable m.tableName).text d) =
        some (.createTable m.tableName columns) ∧
      columns = keyColumn ::
        m.columns.map (fun entry => ⟨entry.1, entry.2.columnType, entry.2.nullable, false⟩) ∧
      (columns.map LiveColumn.name).Nodup ∧
      (m.creation.statements d m).mapM (Command.ofText? d) =
        some (.createTable m.tableName columns :: indexing) ∧
      (m.reconcile columns (indexing.filterMap Command.index?)).isEmpty := by
  let indexing := (m.creation.indexes.map (IndexChange.definition m.tableName)).map
    (Definition.command d)
  refine ⟨m.createdColumns, indexing, ?_, rfl, m.created_distinct.columns, ?_, ?_⟩
  · exact Command.ofText?_definition (s := m.createTable m.tableName) known trivial
  · rw [TableDiff.statements, Command.mapM_ofText?_definitions known (m.creation.listed_definitions d m),
      definitions_creation]
    rfl
  · -- what is read back is what the diff of the missing table makes of it
    have made : LiveTable.reconciled m ⟨[], []⟩ =
        ⟨m.createdColumns, indexing.filterMap Command.index?⟩ := by
      have indexes := IndexChange.foldl_applyTo_creates d m.tableName m.creation_isDrop []
      exact congrArg (LiveTable.mk m.createdColumns) indexes
    have fits := matches_reconciled (m := m) (t := ⟨[], []⟩) fun _ => rfl
    rw [made] at fits
    exact reconcile_isEmpty_iff.mpr ⟨List.cons_ne_nil _ _, fits⟩

/-- A name with a quote, a comma, a line break and a parenthesis, and an empty one. -/
theorem creation_reads_back_hostile :
    ∃ columns indexing,
      Command.ofText? .sqlite ("CREATE TABLE `t``` (\n  `id` INTEGER PRIMARY KEY,\n" ++
          "  `a``,\n)` VARCHAR(9) NOT NULL,\n  `` TEXT NULL\n)") =
        some (.createTable "t`" columns) ∧
      columns = [keyColumn, ⟨"a`,\n)", "VARCHAR(9)", false, false⟩, ⟨"", "TEXT", true, false⟩] ∧
      ["CREATE TABLE `t``` (\n  `id` INTEGER PRIMARY KEY,\n" ++
            "  `a``,\n)` VARCHAR(9) NOT NULL,\n  `` TEXT NULL\n)",
          "CREATE UNIQUE INDEX `User_a``,\n)` ON `t``` (`a``,\n)` ASC)"].mapM
        (Command.ofText? .sqlite) = some (.createTable "t`" columns :: indexing) ∧
      (((((ofName "User").withTable "t`").define "a`,\n)"
          (Property.string.withLimit 9).notNull.withUnique).define "" .json).reconcile columns
        (indexing.filterMap Command.index?)).isEmpty := by
  let m := (((ofName "User").withTable "t`").define "a`,\n)"
    (Property.string.withLimit 9).notNull.withUnique).define "" .json
  obtain ⟨columns, indexing, created, told, _, all, empty⟩ :=
    m.creation_reads_back (d := .sqlite) (.inr rfl)
  refine ⟨columns, indexing, (congrArg (Command.ofText? .sqlite) ?_).trans created, told.trans ?_,
    (congrArg (List.mapM (Command.ofText? .sqlite)) ?_).trans all, empty⟩
  · decide +kernel
  · decide +kernel
  · decide +kernel

end Model

end SqlMapper
