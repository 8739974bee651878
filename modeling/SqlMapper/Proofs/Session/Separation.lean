import SqlMapper.Proofs.Schema.Footprint
import SqlMapper.Proofs.Session.Isolation

/-! # Migrations of different models

The statements for one model change tables and indexes that are named after it. They change
something of another model exactly where names of the two clash, as `Model.Clash` tells; SQLite has
one space of names for tables and indexes, so that homonyms matter too. Without a clash the table of
the other model is left with its columns and its declared indexes.
-/

namespace SqlMapper

namespace Migration

variable {kind : Migration} {s : Session} {db : Database} {m other : Model}

/-- The statements for a model are none, or carry out what makes its table or what it needs. -/
theorem exists_definitions (kind : Migration) (s : Session) (db : Database) (m : Model) :
    ∃ script : List Definition,
      kind.statements s db m = script.map (Definition.text s.dialect) ∧
      (∀ definition ∈ script, definition.Listed) ∧
      (script = [] ∨
        script = .dropTable m.tableName true :: m.creation.definitions s.dialect m ∨
        ∃ columns indexes, script = (m.reconcile columns indexes).definitions s.dialect m) := by
  cases kind with
  | automigrate =>
    refine ⟨_, rfl, ?_, .inr (.inl rfl)⟩
    rw [List.forall_mem_cons]
    exact ⟨trivial, m.creation.listed_definitions s.dialect m⟩
  | autoupdate =>
    rw [statements, Session.needed, Session.outcome_pending]
    cases (s.inspect db m).outcome with
    | error cause => exact ⟨[], rfl, List.forall_mem_nil _, .inl rfl⟩
    | ok found =>
      let diff := m.reconcile found.1 found.2
      change ∃ script : List Definition, s.statementsOf m diff = _ ∧ _
      rw [Session.statementsOf]
      split
      · exact ⟨[], rfl, List.forall_mem_nil _, .inl rfl⟩
      · exact ⟨diff.definitions s.dialect m, rfl, diff.listed_definitions s.dialect m,
          .inr (.inr ⟨_, _, rfl⟩)⟩

/-- The statements for a model are written for definitions that are about the model. -/
theorem exists_script (kind : Migration) (s : Session) (db : Database) (m : Model) :
    ∃ script : List Definition,
      kind.statements s db m = script.map (Definition.text s.dialect) ∧
      (∀ definition ∈ script, definition.Listed) ∧
      m.Footprint (script.map (Definition.command s.dialect)) := by
  obtain ⟨script, written, listed, cases⟩ := kind.exists_definitions s db m
  refine ⟨script, written, listed, ?_⟩
  rcases cases with rfl | rfl | ⟨columns, indexes, rfl⟩
  · exact .nil
  · have dropped : m.Footprint [(Definition.dropTable m.tableName true).command s.dialect] :=
      .table rfl rfl
    exact dropped.append (.definitions m.named_creation)
  · exact .definitions (m.named_reconcile columns indexes)

/-- What the statements for one model change is owned by another model exactly if there is a clash;
by name alone, exactly if there is a clash or a homonym. If nothing clashes, the table of the other
model keeps its columns and its declared indexes. -/
theorem statements_touch_other_iff (kind : Migration) (s : Session) (db : Database)
    (sqlite : s.dialect = .sqlite) (tables : (s.models.map Model.tableName).Nodup)
    (member : m ∈ s.models) (otherMember : other ∈ s.models) (differ : m.name ≠ other.name) :
    ∃ commands, (kind.statements s db m).mapM (Command.ofText? s.dialect) = some commands ∧
      (∀ x ∈ commands.flatMap Command.changed, (x ∈ other.owned ↔ m.Clash other x) ∧
        (x.name ∈ other.owned.map SchemaItem.name ↔ m.Clash other x ∨ m.Homonym other x)) ∧
      ((∀ x ∈ commands.flatMap Command.changed, ¬ m.Clash other x) →
        ∀ c next, Catalog.runTexts? s.dialect c (kind.statements s db m) = some next →
          ∀ t, c.get? other.tableName = some t → ∃ u, next.get? other.tableName = some u ∧
            u.columns = t.columns ∧ u.indexes.Sublist t.indexes ∧
            ∀ index ∈ t.indexes, .index index.name ∈ other.owned → index ∈ u.indexes) := by
  have known : s.dialect.IsKnown := .inr sqlite
  have tablesDiffer : m.tableName ≠ other.tableName := fun same =>
    differ (congrArg Model.name (List.inj_on_of_nodup_map tables member otherMember same))
  obtain ⟨script, written, listed, footprint⟩ := kind.exists_script s db m
  rw [written]
  refine ⟨_, Command.mapM_ofText?_definitions known listed, ?_, ?_⟩
  · intro x changed
    have touches := footprint.changed x changed
    exact ⟨touches.mem_owned differ tablesDiffer, touches.name_mem_owned differ tablesDiffer⟩
  · intro apart c next done t found
    rw [Catalog.runTexts?_definitions known listed] at done
    have notAbout : other.tableName ∉
        (script.map (Definition.command s.dialect)).flatMap Command.tables := by
      intro about
      rcases footprint.tables _ about with same | ⟨same, changed⟩
      · exact tablesDiffer same.symm
      · exact apart _ changed (.shadow (congrArg SchemaItem.table same) same)
    obtain ⟨u, last, keeps⟩ := Catalog.run?_others done notAbout found
    refine ⟨u, last, keeps.columns, keeps.indexes, fun index inside owned => ?_⟩
    apply keeps.kept index inside
    intro changed
    exact apart _ changed (((footprint.changed _ changed).mem_owned differ tablesDiffer).mp owned)

/-- Two models without a common beginning: making the table of one again leaves the other one. -/
theorem statements_touch_other_iff_apart :
    let user := (Model.ofName "User").define "name" Property.string.withIndex
    let post := (Model.ofName "Post").define "title" Property.text.withIndex
    let s : Session :=
      { dialect := .sqlite, registry := (Registry.empty.define user).define post }
    let db := Script.database []
    s.dialect = .sqlite ∧ (s.models.map Model.tableName).Nodup ∧ user ∈ s.models ∧
      post ∈ s.models ∧ user.name ≠ post.name ∧
      ∃ commands, (automigrate.statements s db user).mapM (Command.ofText? s.dialect) =
          some commands ∧
        commands.flatMap Command.changed = [.table "User", .table "User", .index "User_name"] ∧
        ∀ c next, Catalog.runTexts? s.dialect c (automigrate.statements s db user) = some next →
          ∀ t, c.get? "Post" = some t → ∃ u, next.get? "Post" = some u ∧ u.columns = t.columns := by
  intro user post s db
  have tables : (s.models.map Model.tableName).Nodup := by decide
  have member : user ∈ s.models := by decide
  have otherMember : post ∈ s.models := by decide
  have differ : user.name ≠ post.name := by decide
  obtain ⟨commands, read, shared, kept⟩ :=
    statements_touch_other_iff automigrate s db rfl tables member otherMember differ
  have changed : commands.flatMap Command.changed =
      [.table "User", .table "User", .index "User_name"] := by
    let script : List Definition :=
      [.dropTable "User" true, .createTable "User" user.columns,
        .createIndex "User" "User_name" "name" false]
    have listed : ∀ definition ∈ script, definition.Listed := by
      simp [script, Definition.Listed]
    have written := Command.mapM_ofText?_definitions (.inr rfl : s.dialect.IsKnown) listed
    rw [← Option.some.inj (written.symm.trans read)]
    rfl
  refine ⟨rfl, tables, member, otherMember, differ, commands, read, changed, ?_⟩
  have apart : ∀ x ∈ commands.flatMap Command.changed, ¬ user.Clash post x := by
    intro x inside
    rw [← (shared x inside).1]
    rw [changed] at inside
    revert x
    decide
  intro c next done t found
  obtain ⟨u, last, columns, _⟩ := kept apart c next done t found
  exact ⟨u, last, columns⟩

/-- The name of a model goes on where that of another one ends, and its table is named like the
shadow table of the other. A column of the other is altered: a table and an index are changed that
the model owns, and where its table was there is none. -/
theorem statements_touch_other_owned :
    let user := (Model.ofName "User").define "log_at" Property.date.withIndex
    let log := ((Model.ofName "User_log").withTable "User__rebuild").define "at"
      Property.date.withIndex
    let s : Session :=
      { dialect := .sqlite, registry := (Registry.empty.define user).define log }
    let rows : List Row := [[("name", .text "id"), ("type", .text "INTEGER"), ("pk", .int 1)],
      [("name", .text "log_at"), ("type", .text "TEXT"), ("pk", .int 0)]]
    let db := Script.database [{ part := "table_info('User')", rows }]
    let c : Catalog :=
      ⟨[("User", { columns := [keyColumn, ⟨"log_at", "TEXT", true, false⟩] }),
        ("User__rebuild", { columns := [keyColumn, ⟨"at", "DATETIME", true, false⟩]
                            indexes := [⟨"User_log_at", "at", false⟩] })], by decide⟩
    s.models.map Model.name = ["User", "User_log"] ∧
      s.models.map Model.tableName = ["User", "User__rebuild"] ∧
      ∃ commands, (autoupdate.statements s db user).mapM (Command.ofText? s.dialect) =
          some commands ∧
        .table "User__rebuild" ∈ commands.flatMap Command.changed ∧
        .table "User__rebuild" ∈ log.owned ∧
        .index "User_log_at" ∈ commands.flatMap Command.changed ∧
        .index "User_log_at" ∈ log.owned ∧
        c.contains "User__rebuild" ∧
        (Catalog.runTexts? s.dialect c (autoupdate.statements s db user)).map
          (·.contains "User__rebuild") = some false := by
  intro user log s rows db c
  have known : s.dialect.IsKnown := .inr rfl
  let script : List Definition :=
    [.dropTable "User__rebuild" true, .createTable "User__rebuild" user.columns,
      .copyRows "User" "User__rebuild" ["id", "log_at"], .dropTable "User" false,
      .alterTable "User__rebuild" [.rename "User"],
      .createIndex "User" "User_log_at" "log_at" false]
  have listed : ∀ definition ∈ script, definition.Listed := by
    simp [script, Definition.Listed]
  have statements : autoupdate.statements s db user =
      script.map (Definition.text s.dialect) := by decide +kernel
  have names : s.models.map Model.tableName = ["User", "User__rebuild"] := by decide
  have read := Command.mapM_ofText?_definitions known listed
  have done : (Catalog.run? s.dialect c (script.map (Definition.command s.dialect))).map
      (·.contains "User__rebuild") = some false := by
    decide +kernel
  rw [← Catalog.runTexts?_definitions known listed, ← statements] at done
  rw [← statements] at read
  exact ⟨by decide, names, _, read, by decide, by decide, by decide, by decide, by decide, done⟩

end Migration

end SqlMapper
