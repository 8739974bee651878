import SqlMapper.Proofs.Schema.Copying
import SqlMapper.Proofs.Schema.Footprint

/-! # Indexes that survive a migration

In place, a migration drops the indexes that its diff names and no others, whatever they are named
after. A rebuilt table loses all indexes with the old table, and gets those that the model declares.
An index that the diff does not mention therefore survives a rebuild exactly if it is named like a
declared one; any other index on a column that stays is lost without being reported.
-/

namespace SqlMapper

/-! ## In place -/

/-- A command that removes and renames no table and drops no index of a name. -/
def Command.Spares (name : String) : Command → Prop
  | .dropTable .. => False
  | .alterTable _ actions => ∀ action ∈ actions, target? action = none
  | .dropIndex _ dropped => dropped ≠ name
  | _ => True

theorem Table.act?_indexes {t u : Table} {action : Action} (done : t.act? action = some u) :
    u.indexes = t.indexes := by
  cases action with
  | rename target => cases done
  | _ =>
    rw [act?] at done
    split at done <;> cases done
    rfl

/-- A table of that name has the index. -/
def Catalog.Holds (c : Catalog) (table : String) (index : TableIndex) : Prop :=
  ∃ t, c.get? table = some t ∧ index ∈ t.indexes

namespace Catalog.Holds

variable {d : Dialect} {c next : Catalog} {table other : String} {index : TableIndex}

theorem modify? (held : c.Holds table index) {change : Table → Option Table}
    (keeps : ∀ t u, change t = some u → index ∈ t.indexes → index ∈ u.indexes)
    (done : c.modify? other change = some next) : next.Holds table index := by
  obtain ⟨t, found, member⟩ := held
  by_cases same : table = other
  · subst same
    rw [Catalog.modify?, found, Option.bind_some] at done
    obtain ⟨u, changed, rfl⟩ := Option.map_eq_some_iff.mp done
    exact ⟨u, by rw [Keyed.get?_put, if_pos rfl], keeps t u changed member⟩
  · exact ⟨t, (modify?_others done same).trans found, member⟩

theorem alter? (held : c.Holds table index) {actions : List Action}
    (plain : ∀ action ∈ actions, Command.target? action = none)
    (done : c.alter? other actions = some next) : next.Holds table index := by
  induction actions generalizing c with
  | nil =>
    cases done
    exact held
  | cons action rest ih =>
    obtain ⟨first, later⟩ := List.forall_mem_cons.mp plain
    cases action with
    | rename target => cases first
    | _ =>
      obtain ⟨middle, changed, done⟩ := Option.bind_eq_some_iff.mp done
      refine ih (held.modify? ?_ changed) later done
      intro t u acted member
      exact (Table.act?_indexes acted).symm ▸ member

/-- A command keeps the indexes that it spares. -/
theorem exec? (held : c.Holds table index) {command : Command}
    (spares : command.Spares index.name) (done : c.exec? d command = some next) :
    next.Holds table index := by
  cases command with
  | createTable made columns =>
    rw [Catalog.exec?, Option.ite_none_left_eq_some] at done
    obtain ⟨absent, done⟩ := done
    cases done
    obtain ⟨t, found, member⟩ := held
    have differ : made ≠ table := by
      rintro rfl
      refine absent (.inl ?_)
      rw [Keyed.contains, found]
      rfl
    exact ⟨t, by rw [Keyed.get?_put, if_neg differ, found], member⟩
  | dropTable => exact spares.elim
  | alterTable altered actions =>
    rw [Catalog.exec?, Option.ite_none_right_eq_some] at done
    exact held.alter? spares done.2
  | createIndex on name column unique =>
    rw [Catalog.exec?, Option.ite_none_left_eq_some] at done
    refine held.modify? (fun t u added member => ?_) done.2
    rw [Table.addIndex?, Option.ite_none_right_eq_some] at added
    cases added.2
    exact List.mem_append_left _ member
  | dropIndex scope dropped =>
    have stays {t : Table} (member : index ∈ t.indexes) :
        index ∈ (t.withoutIndex dropped).indexes :=
      List.mem_filter.mpr ⟨member, bne_iff_ne.mpr (Ne.symm spares)⟩
    cases scope with
    | some on =>
      refine held.modify? (fun t u removed member => ?_) done
      rw [Table.dropIndex?, Option.ite_none_right_eq_some] at removed
      cases removed.2
      exact stays member
    | none =>
      cases done
      obtain ⟨t, found, member⟩ := held
      exact ⟨_, by rw [get?_map, found, Option.map_some], stays member⟩
  | copyRows source target selected inserted =>
    simp only [Catalog.exec?, Option.bind_eq_some_iff, Option.ite_none_right_eq_some] at done
    obtain ⟨_, _, _, _, _, same⟩ := done
    cases same
    exact held

/-- A script keeps the indexes that all its commands spare. -/
theorem run? (held : c.Holds table index) {script : List Command}
    (spares : ∀ command ∈ script, command.Spares index.name)
    (done : c.run? d script = some next) : next.Holds table index := by
  induction script generalizing c with
  | nil =>
    cases done
    exact held
  | cons command rest ih =>
    obtain ⟨first, later⟩ := List.forall_mem_cons.mp spares
    rw [Catalog.run?, List.foldlM_cons] at done
    obtain ⟨middle, stepped, done⟩ := Option.bind_eq_some_iff.mp done
    exact ih (held.exec? first stepped) later done

end Catalog.Holds

/-- In place, an index is spared unless the diff drops it. -/
theorem TableDiff.spares_inPlace (d : Dialect) {m : Model} {diff : TableDiff} {name : String}
    (kept : .drop name ∉ diff.indexes) :
    ∀ command ∈ (diff.inPlace d m).map (Definition.command d), command.Spares name := by
  intro command member
  obtain ⟨s, inside, rfl⟩ := List.mem_map.mp member
  have change {change : IndexChange} (listed : change ∈ diff.indexes) :
      ((change.definition m.tableName).command d).Spares name := by
    cases change with
    | create => trivial
    | drop dropped =>
      rintro rfl
      exact kept listed
  have plain (changes : List ColumnChange) :
      ∀ action ∈ (changes.map Alter.column).map Alter.action, Command.target? action = none := by
    intro action altered
    obtain ⟨alter, listed, rfl⟩ := List.mem_map.mp altered
    obtain ⟨change, _, rfl⟩ := List.mem_map.mp listed
    cases change <;> rfl
  rw [inPlace, List.mem_append, List.mem_append, List.mem_append] at inside
  rcases inside with ((made | dropped) | altered) | created
  · split at made
    · cases List.mem_singleton.mp made
      trivial
    · cases made
  · obtain ⟨_, listed, rfl⟩ := List.mem_map.mp dropped
    exact change (List.mem_filter.mp listed).1
  · unfold alterations at altered
    split at altered
    · split at altered
      · cases altered
      · cases List.mem_singleton.mp altered
        exact plain diff.columns
    · obtain ⟨_, _, rfl⟩ := List.mem_map.mp altered
      exact plain [_]
  · obtain ⟨_, listed, rfl⟩ := List.mem_map.mp created
    exact change (List.mem_filter.mp listed).1

/-! ## By rebuilding -/

namespace Catalog

variable {d : Dialect} {c next : Catalog} {table : String} {t : Table}

/-- Index creations that are carried out add just their indexes. -/
theorem run?_creates {creates : List IndexChange} (create : ∀ change ∈ creates, change.isDrop = false)
    (found : c.get? table = some t)
    (done : c.run? d ((creates.map (IndexChange.definition table)).map (Definition.command d)) =
      some next) :
    next.get? table = some { t with indexes := t.indexes ++ creates.filterMap IndexChange.index? } := by
  induction creates generalizing c t with
  | nil =>
    cases done
    simpa using found
  | cons change creates ih =>
    obtain ⟨first, later⟩ := List.forall_mem_cons.mp create
    cases change with
    | drop => cases first
    | create name column unique =>
      rw [List.map_cons, List.map_cons, run?, List.foldlM_cons] at done
      obtain ⟨middle, made, done⟩ := Option.bind_eq_some_iff.mp done
      obtain ⟨_, made⟩ := Option.ite_none_left_eq_some.mp made
      rw [modify?, found, Option.bind_some] at made
      obtain ⟨u, added, rfl⟩ := Option.map_eq_some_iff.mp made
      obtain ⟨_, added⟩ := Option.ite_none_right_eq_some.mp added
      cases added
      have last := ih later (by rw [Keyed.get?_put, if_pos rfl]) done
      rw [last, List.append_assoc]
      rfl

end Catalog

/-- A rebuilt table has the declared indexes. -/
theorem Model.mem_rebuilt_indexNames {m : Model} {name : String} :
    name ∈ m.rebuilt.indexNames ↔ ∃ property, m.IsIndexed property ∧ name = m.indexName property := by
  rw [Table.indexNames, List.mem_map]
  constructor
  · rintro ⟨index, member, rfl⟩
    obtain ⟨change, created, same⟩ := List.mem_filterMap.mp member
    obtain ⟨entry, declared, wanted, rfl⟩ := mem_creation_indexes.mp created
    cases same
    exact ⟨entry.1, ⟨entry.2, declared, wanted⟩, rfl⟩
  · rintro ⟨property, ⟨p, declared, wanted⟩, rfl⟩
    refine ⟨⟨m.indexName property, property, p.unique⟩, List.mem_filterMap.mpr ?_, rfl⟩
    exact ⟨_, mem_creation_indexes.mpr ⟨_, declared, wanted, rfl⟩, rfl⟩

/-! ## Either way -/

namespace Table

variable {m : Model} {t : Table} {c : Catalog}

/-- Carried out to the end or not, a migration is that of the definitions of its diff. -/
theorem runTexts?_migration : c.runTexts? .sqlite ((t.diff m).statements .sqlite m) =
    c.run? .sqlite (((t.diff m).definitions .sqlite m).map (Definition.command .sqlite)) :=
  Catalog.runTexts?_definitions (.inr rfl) ((t.diff m).listed_definitions .sqlite m) c

/-- A migration of a table can be carried out if its dropped columns lose their indexes and no other
table has index names of the model. -/
theorem Alterable.migration_isSome (alterable : t.Alterable m) (live : c.get? m.tableName = some t)
    (reserves : c.Reserves .sqlite m) :
    (c.runTexts? .sqlite ((t.diff m).statements .sqlite m)).isSome := by
  rw [runTexts?_migration]
  rcases (t.diff m).definitions_cases .sqlite m with inPlace | rebuilt
  · obtain ⟨next, ran, _⟩ := alterable.run?_inPlace live reserves
    rw [inPlace, ran]
    rfl
  · obtain ⟨next, ran, _⟩ := run?_rebuild alterable.nonempty live reserves
    rw [rebuilt, ran]
    rfl

/-- A migration that is carried out keeps an index that its diff does not drop, unless it rebuilds
the table and the index is not named like a declared one. -/
theorem indexes_survive_iff (live : c.get? m.tableName = some t) :
    (t.Alterable m → c.Reserves .sqlite m →
      (c.runTexts? .sqlite ((t.diff m).statements .sqlite m)).isSome) ∧
    ∀ next, c.runTexts? .sqlite ((t.diff m).statements .sqlite m) = some next →
      ∀ index ∈ t.indexes, .drop index.name ∉ (t.diff m).indexes →
        ((∃ u, next.get? m.tableName = some u ∧ index.name ∈ u.indexNames) ↔
          ((t.diff m).needsRebuild →
            ∃ property, m.IsIndexed property ∧ index.name = m.indexName property)) := by
  refine ⟨fun alterable => alterable.migration_isSome live, ?_⟩
  intro next done index member kept
  rw [runTexts?_migration, TableDiff.definitions_sqlite] at done
  by_cases rebuilt : (t.diff m).needsRebuild
  · rw [if_pos rebuilt] at done
    obtain ⟨moved, start, ran⟩ := run?_rebuild_indexes (Model.ne_nil_of_needsRebuild rebuilt) live
    rw [ran] at done
    have final : next.get? m.tableName = some m.rebuilt :=
      Catalog.run?_creates m.creation_isDrop start.own done
    rw [imp_iff_right rebuilt, ← Model.mem_rebuilt_indexNames, final]
    simp
  · rw [if_neg rebuilt] at done
    have held : c.Holds m.tableName index := ⟨t, live, member⟩
    obtain ⟨u, found, stays⟩ := held.run? (TableDiff.spares_inPlace .sqlite kept) done
    exact iff_of_true ⟨u, found, List.mem_map_of_mem stays⟩ (absurd · rebuilt)

/-- An index that is not named after the model survives the removal of a column and its index. -/
theorem indexes_survive_iff_inPlace :
    let c : Catalog := Keyed.ofList [("User",
      ⟨[keyColumn, ⟨"legacy", "TEXT", true, false⟩, ⟨"name", "TEXT", true, false⟩],
        [⟨"by_name", "name", true⟩, ⟨"User_legacy", "legacy", false⟩]⟩)]
    ∃ next u, c.runTexts? .sqlite
        ["DROP INDEX IF EXISTS `User_legacy`", "ALTER TABLE `User` DROP COLUMN `legacy`"] =
          some next ∧
      next.get? "User" = some u ∧ "by_name" ∈ u.indexNames := by
  intro c
  let m := (Model.ofName "User").define "name" Property.text
  let t : Table := ⟨[keyColumn, ⟨"legacy", "TEXT", true, false⟩, ⟨"name", "TEXT", true, false⟩],
    [⟨"by_name", "name", true⟩, ⟨"User_legacy", "legacy", false⟩]⟩
  have live : c.get? m.tableName = some t := by decide
  have alterable : t.Alterable m := ⟨⟨by decide, by decide⟩, List.cons_ne_nil _ _, by decide⟩
  have reserves : c.Reserves .sqlite m := by
    refine Catalog.Reserves.of_alone fun other differ => ?_
    exact if_neg (Ne.symm differ)
  obtain ⟨succeeds, survives⟩ := indexes_survive_iff live
  obtain ⟨next, done⟩ := Option.isSome_iff_exists.mp (succeeds alterable reserves)
  obtain ⟨u, found, stays⟩ := (survives next done ⟨"by_name", "name", true⟩ List.mem_cons_self
    (by decide)).mpr (fun rebuilt => absurd rebuilt (by decide))
  have texts : (t.diff m).statements .sqlite m =
      ["DROP INDEX IF EXISTS `User_legacy`", "ALTER TABLE `User` DROP COLUMN `legacy`"] := by
    decide
  exact ⟨next, u, texts ▸ done, found, stays⟩

/-- An index that the diff does not mention is lost where another change rebuilds the table. -/
theorem rebuild_loses_index :
    ¬ ∀ (m : Model) (t : Table) (c next : Catalog), t.Distinct → c.get? m.tableName = some t →
      c.runTexts? .sqlite ((t.diff m).statements .sqlite m) = some next →
      ∀ index ∈ t.indexes, .drop index.name ∉ (t.diff m).indexes →
        index.column ∈ (t.diff m).retained →
        ∃ u, next.get? m.tableName = some u ∧ index.name ∈ u.indexNames := by
  intro survives
  let m := (Model.ofName "User").define "name" Property.string
  let t : Table := ⟨[keyColumn, ⟨"name", "TEXT", true, false⟩], [⟨"by_name", "name", false⟩]⟩
  let c : Catalog := Keyed.ofList [("User", t)]
  have live : c.get? m.tableName = some t := by decide
  have reserves : c.Reserves .sqlite m := by
    refine Catalog.Reserves.of_alone fun other differ => ?_
    exact if_neg (Ne.symm differ)
  obtain ⟨next, ran, replaced⟩ := run?_rebuild (List.cons_ne_nil _ _) live reserves
  have rebuilt : (t.diff m).needsRebuild := by decide +kernel
  have done : c.runTexts? .sqlite ((t.diff m).statements .sqlite m) = some next := by
    rw [runTexts?_migration, TableDiff.definitions_sqlite, if_pos rebuilt, ran]
  obtain ⟨u, found, stays⟩ := survives m t c next ⟨by decide, by decide⟩ live done
    ⟨"by_name", "name", false⟩ List.mem_cons_self (by decide) (by decide)
  cases replaced.own.symm.trans found
  exact absurd stays (by decide)

end Table

end SqlMapper
