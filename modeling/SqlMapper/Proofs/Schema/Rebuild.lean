import SqlMapper.Proofs.Schema.Outcome

/-! # Migrations in the database

A diff is carried out in place or by rebuilding the table under another name. In place the catalog
follows the table. A rebuilt table starts as it is created, takes the old one's place once that is
gone, and gets its indexes last; what was on the old table went away with it. Either way the texts
of the migration are carried out to the end, and leave the table as it is to be and the other tables
as they were.
-/

namespace SqlMapper

/-! ## In place -/

theorem IndexChange.inPlace_definition {m : Model} {change : IndexChange}
    (named : ∃ property, change.name = m.indexName property) :
    (change.definition m.tableName).InPlace m := by
  cases change <;> exact ⟨rfl, named⟩

namespace Table.Alterable

variable {m : Model} {t : Table} (alterable : t.Alterable m)

include alterable

theorem inPlace_diff (d : Dialect) : ∀ s ∈ (t.diff m).inPlace d m, s.InPlace m := by
  have named := m.named_reconcile t.columns t.live.indexes
  intro s member
  rw [TableDiff.inPlace, if_neg (by simp [alterable.diff_present]), List.nil_append,
    List.mem_append, List.mem_append] at member
  rcases member with (dropped | altered) | created
  · obtain ⟨change, inside, rfl⟩ := List.mem_map.mp dropped
    exact IndexChange.inPlace_definition (named change (List.mem_filter.mp inside).1)
  · unfold TableDiff.alterations at altered
    split at altered
    · split at altered
      · cases altered
      · rename_i changes
        cases List.mem_singleton.mp altered
        exact ⟨rfl, by simpa using changes⟩
    · obtain ⟨change, _, rfl⟩ := List.mem_map.mp altered
      exact ⟨rfl, List.cons_ne_nil _ _⟩
  · obtain ⟨change, inside, rfl⟩ := List.mem_map.mp created
    exact IndexChange.inPlace_definition (named change (List.mem_filter.mp inside).1)

/-- In place, the catalog follows the table. -/
theorem run?_inPlace {d : Dialect} {c : Catalog} (live : c.get? m.tableName = some t)
    (reserves : c.Reserves d m) :
    ∃ next, c.run? d (((t.diff m).inPlace d m).map (Definition.command d)) = some next ∧
      c.Replaces m.tableName (t.changedBy (t.diff m)) next :=
  have start : c.Replaces m.tableName t c := ⟨live, fun _ _ => rfl⟩
  start.run? reserves (alterable.inPlace_diff d) (alterable.diff_fits.perform? d m)

end Table.Alterable

namespace Table.NamedFor

variable {m : Model} {t : Table} (named : t.NamedFor m)

include named

theorem inPlace_diff (d : Dialect) : ∀ s ∈ (t.diff m).inPlace d m, s.InPlace m :=
  named.alterable.inPlace_diff d

/-- In place, a migration leaves the table as it is to be. -/
theorem run?_inPlace {d : Dialect} {c : Catalog} (live : c.get? m.tableName = some t)
    (reserves : c.Reserves d m) :
    ∃ next u, c.run? d (((t.diff m).inPlace d m).map (Definition.command d)) = some next ∧
      c.Replaces m.tableName u next ∧ u.Migrated m (t.diff m) := by
  obtain ⟨next, ran, replaced⟩ := named.alterable.run?_inPlace live reserves
  exact ⟨next, _, ran, replaced, named.migrated_changedBy d⟩

end Table.NamedFor

/-! ## By rebuilding -/

namespace Model

/-- The table of a model before it has indexes. -/
def created (m : Model) : Table := { columns := m.createdColumns }

/-- The table of a model with the indexes that are wanted. -/
def rebuilt (m : Model) : Table :=
  { m.created with indexes := m.creation.indexes.filterMap IndexChange.index? }

theorem mem_created_columnNames {m : Model} {name : String} :
    name ∈ m.created.columnNames ↔ m.keeps name := by
  rw [keeps_iff, created, Table.columnNames, createdColumns, List.map_cons, List.mem_cons,
    List.map_map]
  refine or_congr_right ?_
  simp [Property.liveColumn]

theorem created_distinct (m : Model) : m.created.Distinct where
  columns := by
    rw [created, Table.columnNames, createdColumns, List.map_cons, List.map_map, List.nodup_cons]
    refine ⟨?_, m.columns_distinct⟩
    intro key
    obtain ⟨entry, member, same⟩ := List.mem_map.mp key
    exact (mem_columns.mp member).2 same
  indexes := List.nodup_nil

theorem inPlace_creation (m : Model) :
    ∀ s ∈ m.creation.indexes.map (IndexChange.definition m.tableName), s.InPlace m := by
  intro s member
  obtain ⟨change, inside, rfl⟩ := List.mem_map.mp member
  exact IndexChange.inPlace_definition (m.named_creation change inside)

/-- The indexes that a model wants can be created on its table. -/
theorem foldlM_creation (m : Model) :
    (m.creation.indexes.map (IndexChange.definition m.tableName)).foldlM Table.perform? m.created =
      some m.rebuilt := by
  have creates : ∀ change ∈ m.creation.indexes, !change.isDrop := by
    intro change member
    obtain ⟨entry, _, _, rfl⟩ := mem_creation_indexes.mp member
    rfl
  have distinct : (m.creation.indexes.map IndexChange.name).Nodup := by
    rw [creation, List.map_map]
    exact m.indexNames_distinct.sublist (List.filter_sublist.map _)
  apply Table.foldlM_creates m.tableName creates distinct
  intro change member
  refine ⟨List.not_mem_nil, ?_⟩
  obtain ⟨entry, declared, _, rfl⟩ := mem_creation_indexes.mp member
  intro index same
  cases same
  exact mem_created_columnNames.mpr (keeps_of_declared declared)

end Model

theorem TableDiff.shadowName_ne (table : String) : shadowName table ≠ table := by
  intro same
  have lengths := congrArg String.length same
  simp [shadowName] at lengths

namespace Catalog

variable {d : Dialect} {c : Catalog}

/-- Removing another table does not take names away from the model. -/
theorem Reserves.erase {m : Model} (reserves : c.Reserves d m) (table : String) :
    Catalog.Reserves d m (Keyed.erase c table) := by
  intro scope other t differ found
  rw [Keyed.get?_erase, Option.ite_none_left_eq_some] at found
  exact reserves scope other t differ found.2

/-- A table can be made anew, whether there was one or not. -/
theorem run?_make (table : String) {columns : List LiveColumn}
    (distinct : (columns.map LiveColumn.name).Nodup) :
    c.run? d [.dropTable table true, .createTable table columns] =
      some (Keyed.put (Keyed.erase c table) table { columns }) := by
  have absent : (Keyed.erase c table).contains table = false := by
    rw [Keyed.contains, Keyed.get?_erase, if_pos rfl]
    rfl
  simp [run?, exec?, absent, distinct]

/-- A table can take the place of another one that is removed. -/
theorem run?_move {source target : String} {s : Table} (differ : source ≠ target)
    (found : c.get? source = some s) (present : c.contains target) :
    c.run? d [.dropTable target false, .alterTable source [.rename target]] =
      some (Keyed.put (Keyed.erase (Keyed.erase c target) source) target s) := by
  have stays : (Keyed.erase c target).get? source = some s := by
    rw [Keyed.get?_erase, if_neg differ.symm, found]
  have gone : (Keyed.erase c target).contains target = false := by
    rw [Keyed.contains, Keyed.get?_erase, if_pos rfl]
    rfl
  have there : (Keyed.erase c target).contains source := by
    rw [Keyed.contains, stays]
    rfl
  simp [run?, exec?, alter?, act?, present, stays, gone, there]

end Catalog

namespace Table

variable {m : Model} {t : Table}

/-- The rows of the columns that stay can be copied into a table with the columns of the model. -/
theorem run?_copy (nonempty : t.columns ≠ []) {d : Dialect} {c : Catalog} {target : String}
    (source : c.get? m.tableName = some t) (made : c.get? target = some m.created) :
    c.run? d ((if (t.diff m).retained.isEmpty then []
      else [Definition.copyRows m.tableName target (t.diff m).retained]).map
        (Definition.command d)) = some c := by
  split
  · rfl
  · have selected : (t.diff m).retained ⊆ t.columnNames :=
      fun name member => ((Model.mem_reconcile_retained nonempty).mp member).1
    have inserted : (t.diff m).retained ⊆ m.created.columnNames :=
      fun name member => Model.mem_created_columnNames.mpr
        ((Model.mem_reconcile_retained nonempty).mp member).2
    simp [Catalog.run?, Catalog.exec?, Definition.command, source, made, selected, inserted]

/-- Before its indexes are made, a rebuilt table is as it is created. -/
theorem run?_rebuild_indexes (nonempty : t.columns ≠ []) {d : Dialect} {c : Catalog}
    (live : c.get? m.tableName = some t) :
    ∃ moved, Catalog.Replaces (Keyed.erase c (TableDiff.shadowName m.tableName)) m.tableName
        m.created moved ∧
      c.run? d (((t.diff m).rebuild m).map (Definition.command d)) =
        moved.run? d ((m.creation.indexes.map (IndexChange.definition m.tableName)).map
          (Definition.command d)) := by
  have differ := TableDiff.shadowName_ne m.tableName
  generalize shadowName : TableDiff.shadowName m.tableName = shadow at differ ⊢
  let shadowed : Catalog := Keyed.put (Keyed.erase c shadow) shadow m.created
  have own : shadowed.get? m.tableName = some t := by
    rw [Keyed.get?_put, if_neg differ, Keyed.get?_erase, if_neg differ, live]
  have shadowOwn : shadowed.get? shadow = some m.created := by
    rw [Keyed.get?_put, if_pos rfl]
  have present : shadowed.contains m.tableName := by
    rw [Keyed.contains, own]
    rfl
  have made : c.run? d ([.dropTable shadow true, m.createTable shadow].map
      (Definition.command d)) = some shadowed :=
    Catalog.run?_make shadow m.created_distinct.columns
  have copied := run?_copy nonempty (d := d) own shadowOwn
  let rebuilt : Catalog :=
    Keyed.put (Keyed.erase (Keyed.erase shadowed m.tableName) shadow) m.tableName m.created
  have moved : shadowed.run? d ([.dropTable m.tableName false,
      .alterTable shadow [.rename m.tableName]].map (Definition.command d)) = some rebuilt :=
    Catalog.run?_move differ shadowOwn present
  refine ⟨rebuilt, ⟨by rw [Keyed.get?_put, if_pos rfl], ?_⟩, ?_⟩
  · intro other others
    rw [Keyed.get?_put, if_neg others.symm, Keyed.get?_erase, Keyed.get?_erase, Keyed.get?_erase,
      if_neg others.symm, Keyed.get?_put]
    by_cases same : shadow = other
    · rw [if_pos same, if_pos same]
    · rw [if_neg same, if_neg same, if_neg same, Keyed.get?_erase, if_neg same]
  · rw [TableDiff.rebuild, shadowName]
    simp only [List.map_append, Catalog.run?_append]
    rw [made, Option.bind_some, copied, Option.bind_some, moved, Option.bind_some]

/-- Rebuilt, a table has the indexes that are wanted, and the table it was made under is gone. -/
theorem run?_rebuild (nonempty : t.columns ≠ []) {d : Dialect} {c : Catalog}
    (live : c.get? m.tableName = some t) (reserves : c.Reserves d m) :
    ∃ next, c.run? d (((t.diff m).rebuild m).map (Definition.command d)) = some next ∧
      Catalog.Replaces (Keyed.erase c (TableDiff.shadowName m.tableName)) m.tableName m.rebuilt
        next := by
  obtain ⟨moved, start, ran⟩ := run?_rebuild_indexes nonempty (d := d) live
  rw [ran]
  exact start.run? (reserves.erase _) m.inPlace_creation m.foldlM_creation

end Table

namespace Table.NamedFor

variable {m : Model} {t : Table} (named : t.NamedFor m)

include named

theorem migrated_rebuilt : Table.Migrated m (t.diff m) m.rebuilt where
  distinct := m.created_distinct.run? m.foldlM_creation
  columns name := by rw [named.mem_retained_or_added, ← Model.mem_created_columnNames]; rfl
  declared entry member :=
    ⟨_, Model.findColumn?_created member, rfl, rfl⟩
  indexes index := by
    rw [Model.rebuilt, List.mem_filterMap]
    constructor
    · rintro ⟨change, member, same⟩
      obtain ⟨entry, declared, wanted, rfl⟩ := Model.mem_creation_indexes.mp member
      cases same
      exact ⟨⟨entry.2, declared, wanted, rfl⟩, rfl⟩
    · rintro ⟨⟨p, declared, wanted, unique⟩, name⟩
      refine ⟨_, Model.mem_creation_indexes.mpr ⟨_, declared, wanted, rfl⟩, ?_⟩
      rw [Model.createIndex, IndexChange.index?, ← name, ← unique]

/-- Rebuilt, the table is as it is to be. -/
theorem run?_rebuild {d : Dialect} {c : Catalog} (live : c.get? m.tableName = some t)
    (reserves : c.Reserves d m) :
    ∃ next u, c.run? d (((t.diff m).rebuild m).map (Definition.command d)) = some next ∧
      Catalog.Replaces (Keyed.erase c (TableDiff.shadowName m.tableName)) m.tableName u next ∧
      u.Migrated m (t.diff m) := by
  obtain ⟨next, ran, replaced⟩ := Table.run?_rebuild named.columns_ne_nil live reserves
  exact ⟨next, _, ran, replaced, named.migrated_rebuilt⟩

end Table.NamedFor

/-! ## Either way -/

theorem TableDiff.listed_rebuild (m : Model) (diff : TableDiff) :
    ∀ s ∈ diff.rebuild m, s.Listed := by
  intro s member
  rw [TableDiff.rebuild, List.mem_append, List.mem_append, List.mem_append] at member
  rcases member with ((made | copied) | moved) | created
  · rcases List.mem_pair.mp made with rfl | rfl <;> trivial
  · split at copied
    · cases copied
    · rename_i retained
      cases List.mem_singleton.mp copied
      exact fun empty => retained (List.isEmpty_iff.mpr empty)
  · rcases List.mem_pair.mp moved with rfl | rfl
    · trivial
    · exact List.cons_ne_nil _ _
  · exact (m.inPlace_creation s created).listed

theorem TableDiff.definitions_cases (d : Dialect) (m : Model) (diff : TableDiff) :
    diff.definitions d m = diff.inPlace d m ∨ diff.definitions d m = diff.rebuild m := by
  unfold definitions
  split
  · exact .inl rfl
  · split
    · exact .inr rfl
    · exact .inl rfl

theorem TableDiff.definitions_sqlite (m : Model) (diff : TableDiff) : diff.definitions .sqlite m =
    if diff.needsRebuild then diff.rebuild m else diff.inPlace .sqlite m := rfl

theorem IndexChange.listed_definition (table : String) (change : IndexChange) :
    (change.definition table).Listed := by
  cases change <;> trivial

theorem TableDiff.listed_alterations (alteration : Alteration) (table : String)
    (changes : List ColumnChange) : ∀ s ∈ alterations alteration table changes, s.Listed := by
  intro s member
  cases alteration with
  | joined =>
    rw [alterations] at member
    split at member
    · cases member
    · rename_i some_change
      cases List.mem_singleton.mp member
      exact fun empty => some_change (List.isEmpty_iff.mpr (List.map_eq_nil_iff.mp empty))
  | separate =>
    obtain ⟨change, _, rfl⟩ := List.mem_map.mp member
    exact List.cons_ne_nil _ _

/-- Whatever is to be done, no definition has an empty list. -/
theorem TableDiff.listed_definitions (d : Dialect) (m : Model) (diff : TableDiff) :
    ∀ s ∈ diff.definitions d m, s.Listed := by
  intro s member
  rcases diff.definitions_cases d m with done | done
  · rw [done, inPlace, List.mem_append, List.mem_append, List.mem_append] at member
    rcases member with ((made | dropped) | altered) | created
    · split at made
      · cases List.mem_singleton.mp made
        trivial
      · cases made
    · obtain ⟨change, _, rfl⟩ := List.mem_map.mp dropped
      exact change.listed_definition m.tableName
    · exact listed_alterations d.alteration m.tableName diff.columns s altered
    · obtain ⟨change, _, rfl⟩ := List.mem_map.mp created
      exact change.listed_definition m.tableName
  · exact diff.listed_rebuild m s (done ▸ member)

/-- The texts that bring a table in line with its model are carried out to the end. They leave the
table with the columns that stay and those that are added, with declared columns as declared and
with exactly the wanted indexes, and the other tables as they were. -/
theorem Table.NamedFor.migration_succeeds {d : Dialect} (known : d.IsKnown) {m : Model} {t : Table}
    (named : t.NamedFor m) {c : Catalog} (live : c.get? m.tableName = some t)
    (reserves : c.Reserves d m) :
    ∃ next u, c.runTexts? d ((t.diff m).statements d m) = some next ∧
      next.get? m.tableName = some u ∧ u.Migrated m (t.diff m) ∧
      ∀ other, other ≠ m.tableName → other ≠ TableDiff.shadowName m.tableName →
        next.get? other = c.get? other := by
  rw [TableDiff.statements]
  rcases (t.diff m).definitions_cases d m with inPlace | rebuilt
  · obtain ⟨next, u, ran, replaced, migrated⟩ := named.run?_inPlace live reserves
    refine ⟨next, u, ?_, replaced.own, migrated, fun other differ _ => replaced.others other differ⟩
    rw [inPlace, Catalog.runTexts?_definitions known fun s member =>
      (named.inPlace_diff d s member).listed]
    exact ran
  · obtain ⟨next, u, ran, replaced, migrated⟩ := named.run?_rebuild live reserves
    refine ⟨next, u, ?_, replaced.own, migrated, fun other differ shadow => ?_⟩
    · rw [rebuilt, Catalog.runTexts?_definitions known (TableDiff.listed_rebuild m _)]
      exact ran
    · rw [replaced.others other differ, Keyed.get?_erase, if_neg shadow.symm]

/-- A column goes with its index, an index becomes unique, and a column is added that is never null,
for which the table is rebuilt. -/
theorem Table.NamedFor.migration_succeeds_rebuilt :
    ∃ next u, Catalog.runTexts? .sqlite
        (Keyed.ofList [("Post", ⟨[keyColumn], [⟨"Post_title", "title", true⟩]⟩),
          ("User", ⟨[keyColumn, ⟨"legacy", "TEXT", true, false⟩, ⟨"name", "text", true, false⟩],
            [⟨"User_legacy", "legacy", false⟩, ⟨"User_name", "name", false⟩]⟩)])
        ["DROP TABLE IF EXISTS `User__rebuild`",
          "CREATE TABLE `User__rebuild` (\n  `id` INTEGER PRIMARY KEY,\n  `name` TEXT NULL,\n" ++
            "  `born` DATETIME NOT NULL\n)",
          "INSERT INTO `User__rebuild` (`id`, `name`) SELECT `id`, `name` FROM `User`",
          "DROP TABLE `User`",
          "ALTER TABLE `User__rebuild` RENAME TO `User`",
          "CREATE UNIQUE INDEX `User_name` ON `User` (`name` ASC)"] = some next ∧
      next.get? "User" = some u ∧
      u.Migrated
        (((Model.ofName "User").define "name" Property.text.withUnique).define "born"
          Property.date.notNull)
        ⟨false, [.add "born" Property.date.notNull, .drop "legacy"],
          [.drop "User_name", .create "User_name" "name" true, .drop "User_legacy"],
          ["id", "name"]⟩ ∧
      next.get? "Post" = some ⟨[keyColumn], [⟨"Post_title", "title", true⟩]⟩ := by
  let m := ((Model.ofName "User").define "name" Property.text.withUnique).define "born"
    Property.date.notNull
  let post : Table := ⟨[keyColumn], [⟨"Post_title", "title", true⟩]⟩
  let t : Table := ⟨[keyColumn, ⟨"legacy", "TEXT", true, false⟩, ⟨"name", "text", true, false⟩],
    [⟨"User_legacy", "legacy", false⟩, ⟨"User_name", "name", false⟩]⟩
  let c : Catalog := Keyed.ofList [("Post", post), ("User", t)]
  have named : t.NamedFor m := ⟨⟨by decide, by decide⟩, by decide, by decide⟩
  have reserves : c.Reserves .sqlite m := by
    intro _ other u differ found property taken
    have member := (Keyed.get?_eq_some_iff c other).mp found
    rcases List.mem_pair.mp member with isPost | isUser
    · cases isPost
      have same : "User" ++ "_" ++ property = "Post_title" := List.mem_singleton.mp taken
      have spelled := congrArg String.toList same
      simp at spelled
    · cases isUser
      exact differ rfl
  obtain ⟨next, u, ran, own, migrated, others⟩ :=
    named.migration_succeeds (d := .sqlite) (.inr rfl) (c := c) (by decide) reserves
  have diff : t.diff m = ⟨false, [.add "born" Property.date.notNull, .drop "legacy"],
      [.drop "User_name", .create "User_name" "name" true, .drop "User_legacy"],
      ["id", "name"]⟩ := by decide
  refine ⟨next, u, ?_, own, diff ▸ migrated, (others "Post" (by decide) (by decide)).trans ?_⟩
  · refine (congrArg (c.runTexts? .sqlite) ?_).trans ran
    decide
  · decide

end SqlMapper
