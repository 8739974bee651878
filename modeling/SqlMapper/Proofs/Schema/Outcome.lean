import SqlMapper.Proofs.Schema.Difference
import SqlMapper.Proofs.Schema.InPlace

/-! # What a migration ends in

The diff of a table fits it if no index is left on a column that does not stay. This is so where the
indexes of a table are named after the model and their columns: the database knows of an index no
more than its name, and `reconcile` still finds the column. There an index stays exactly if its
column is declared with such an index, and from this it follows what the table is like afterwards.
-/

namespace SqlMapper

/-- A table with a key and with distinct names, whose indexes are named after their columns. -/
structure Table.NamedFor (m : Model) (t : Table) : Prop where
  distinct : t.Distinct
  key : idName ∈ t.columnNames
  named : ∀ index ∈ t.indexes, index.column ∈ t.columnNames ∧ index.column ≠ idName ∧
    index.name = m.indexName index.column

/-- What separates a table from its model. -/
def Table.diff (m : Model) (t : Table) : TableDiff := m.reconcile t.columns t.live.indexes

/-- A table with distinct names that loses the indexes of the columns that do not stay. -/
structure Table.Alterable (m : Model) (t : Table) : Prop where
  distinct : t.Distinct
  nonempty : t.columns ≠ []
  detached : ∀ index ∈ t.indexes, m.keeps index.column ∨ .drop index.name ∈ (t.diff m).indexes

/-- An index that the model declares. -/
def Model.Wants (m : Model) (index : TableIndex) : Prop :=
  ∃ p, (index.column, p) ∈ m.columns ∧ p.wantsIndex ∧ index.unique = p.unique

/-- The columns that a diff adds. -/
def TableDiff.added (diff : TableDiff) : List String :=
  diff.columns.filterMap fun
    | .add name _ => some name
    | _ => none

/-- A table as a migration is to leave it: with the columns that stayed and those that were added,
declared ones as they are declared, and with the indexes that are wanted. -/
structure Table.Migrated (m : Model) (diff : TableDiff) (t : Table) : Prop where
  distinct : t.Distinct
  columns : ∀ name, name ∈ t.columnNames ↔ name ∈ diff.retained ∨ name ∈ diff.added
  declared : ∀ entry ∈ m.columns, ∃ column, findColumn? t.columns entry.1 = some column ∧
    column.nullable = entry.2.nullable ∧ normalType column.type = normalType entry.2.columnType
  indexes : ∀ index, index ∈ t.indexes ↔ m.Wants index ∧ index.name = m.indexName index.column

namespace Model

variable {m : Model} {p q : Property} {name : String}

/-- The model declares one index of a column at most. -/
theorem Wants.eq {index other : TableIndex} (wanted : m.Wants index) (wantedToo : m.Wants other)
    (column : index.column = other.column) (sameName : index.name = other.name) :
    index = other := by
  obtain ⟨p, declared, _, unique⟩ := wanted
  obtain ⟨q, declaredToo, _, uniqueToo⟩ := wantedToo
  have same : p = q := declared_unique (column ▸ declared) declaredToo
  have uniqueness : index.unique = other.unique := by rw [unique, uniqueToo, same]
  cases index
  cases other
  cases column
  cases sameName
  cases uniqueness
  rfl

end Model

namespace Table

variable {m : Model} {t : Table}

theorem findIndex?_live (name : String) : findIndex? t.live.indexes name =
    (t.indexes.find? (·.name == name)).map fun index => ⟨index.name, index.unique⟩ := by
  rw [findIndex?, live, List.find?_map]
  rfl

theorem live_indexNames (t : Table) : t.live.indexes.map LiveIndex.name = t.indexNames := by
  simp [live, indexNames, Function.comp_def]

theorem mem_unindexed {diff : TableDiff} {index : TableIndex} :
    index ∈ (t.unindexed diff).indexes ↔ index ∈ t.indexes ∧ .drop index.name ∉ diff.indexes := by
  rw [unindexed, List.mem_filter, decide_eq_true_iff]
  refine and_congr_right fun _ => not_congr ?_
  rw [List.mem_map]
  constructor
  · rintro ⟨change, member, same⟩
    obtain ⟨inside, isDrop⟩ := List.mem_filter.mp member
    cases change with
    | create => cases isDrop
    | drop name => exact same ▸ inside
  · intro inside
    exact ⟨_, List.mem_filter.mpr ⟨inside, rfl⟩, rfl⟩

namespace Alterable

variable (alterable : t.Alterable m)

include alterable

theorem diff_present : (t.diff m).createTable = false := by
  rw [diff, Model.reconcile_of_ne_nil alterable.nonempty]

/-- A table of a model is left with the columns that the model keeps. -/
theorem changedBy_columns :
    (t.changedBy (t.diff m)).columns = (t.live.reconciled m).columns := by
  have reconciled : t.live.reconciled m = (t.diff m).applyTo m t.live := rfl
  rw [reconciled, TableDiff.applyTo, alterable.diff_present]
  rfl

theorem matches_reconciled : (t.live.reconciled m).Matches m :=
  Model.matches_reconciled fun empty => absurd empty alterable.nonempty

theorem live_distinct : (t.live.indexes.map LiveIndex.name).Nodup := by
  rw [live_indexNames]
  exact alterable.distinct.indexes

/-- A column changes as the table allows once the dropped indexes are gone. -/
theorem column_fits {change : ColumnChange} (member : change ∈ (t.diff m).columns) :
    change.Fits (t.unindexed (t.diff m)) := by
  have nonempty := alterable.nonempty
  cases change with
  | add name p => exact ((Model.add_mem_reconcile nonempty).mp member).2
  | change name p =>
    obtain ⟨_, column, found, _⟩ := (Model.change_mem_reconcile nonempty).mp member
    exact mem_columnNames.mpr ⟨column, found⟩
  | drop name =>
    obtain ⟨present, gone⟩ := (Model.drop_mem_reconcile nonempty).mp member
    refine ⟨present, ?_⟩
    intro index inside same
    obtain ⟨inside, kept⟩ := mem_unindexed.mp inside
    rcases alterable.detached index inside with stays | dropped
    · rw [same, gone] at stays
      cases stays
    · exact kept dropped

theorem drop_present {name : String} (member : .drop name ∈ (t.diff m).indexes) :
    name ∈ t.indexNames := by
  obtain ⟨index, inside, rfl, _⟩ :=
    (Model.drop_index_mem_reconcile alterable.nonempty alterable.live_distinct).mp member
  rw [← live_indexNames]
  exact List.mem_map_of_mem inside

/-- A created index takes the name of none that stays, and its column is there by then. -/
theorem create_fits {name column : String} {unique : Bool}
    (member : IndexChange.create name column unique ∈ (t.diff m).indexes) :
    name ∉ (t.unindexed (t.diff m)).indexNames ∧
      column ∈ (t.changedBy (t.diff m)).columnNames := by
  have nonempty := alterable.nonempty
  have distinct := alterable.live_distinct
  obtain ⟨p, declared, _, named, _, other⟩ :=
    (Model.create_index_mem_reconcile nonempty distinct).mp member
  constructor
  · intro taken
    obtain ⟨index, stays, same⟩ := List.mem_map.mp taken
    obtain ⟨present, kept⟩ := mem_unindexed.mp stays
    have live : ⟨index.name, index.unique⟩ ∈ t.live.indexes := List.mem_map_of_mem present
    refine kept ((Model.drop_index_mem_reconcile nonempty distinct).mpr ⟨_, live, rfl, .inl ?_⟩)
    exact ⟨_, declared, same.trans named, .inr (other _ live same)⟩
  · obtain ⟨found, there, _⟩ := alterable.matches_reconciled.declared _ declared
    rw [← alterable.changedBy_columns] at there
    exact mem_columnNames.mpr ⟨found, there⟩

/-- What is found to be changed fits the table. -/
theorem diff_fits : (t.diff m).Fits t where
  present := alterable.diff_present
  drops_distinct := Model.reconcile_drops_once alterable.nonempty alterable.live_distinct
  drops change member := by
    obtain ⟨inside, isDrop⟩ := List.mem_filter.mp member
    cases change with
    | create => cases isDrop
    | drop name => exact alterable.drop_present inside
  columns_distinct := Model.reconcile_columns_once alterable.nonempty alterable.distinct.columns
  columns _ member := alterable.column_fits member
  creates_distinct := Model.reconcile_creates_once alterable.nonempty
  creates change member := by
    obtain ⟨inside, isCreate⟩ := List.mem_filter.mp member
    cases change with
    | drop => cases isCreate
    | create name column unique =>
      obtain ⟨free, there⟩ := alterable.create_fits inside
      refine ⟨free, ?_⟩
      intro index created
      cases created
      exact there

end Alterable

namespace NamedFor

variable (named : t.NamedFor m)

include named

theorem columns_ne_nil : t.columns ≠ [] := by
  intro empty
  have key := named.key
  rw [columnNames, empty] at key
  cases key

/-- The index of a column is the one that is found under its name. -/
theorem findIndex?_iff {column : String} {live : LiveIndex} :
    findIndex? t.live.indexes (m.indexName column) = some live ↔
      ∃ index ∈ t.indexes, index.column = column ∧ live = ⟨index.name, index.unique⟩ := by
  rw [findIndex?_live, Option.map_eq_some_iff]
  constructor
  · rintro ⟨index, found, rfl⟩
    have member := List.mem_of_find?_eq_some found
    have name : index.name = m.indexName column := by simpa using List.find?_some found
    have own := (named.named index member).2.2
    exact ⟨index, member, m.indexName_injective (own.symm.trans name), rfl⟩
  · rintro ⟨index, member, rfl, rfl⟩
    refine ⟨index, ?_, rfl⟩
    rw [← (named.named index member).2.2]
    exact find?_of_mem named.distinct.indexes member

theorem mem_diff_indexes {change : IndexChange} : change ∈ (t.diff m).indexes ↔
    (∃ entry ∈ m.columns, change ∈ m.indexChanges t.live.indexes entry.1 entry.2) ∨
    ∃ index ∈ t.indexes, m.keeps index.column = false ∧ change = .drop index.name := by
  rw [diff, Model.mem_reconcile_indexes named.columns_ne_nil]
  refine or_congr_right ⟨?_, ?_⟩
  · rintro ⟨live, present, orphan, rfl⟩
    obtain ⟨index, member, rfl⟩ := List.mem_map.mp present
    obtain ⟨column, _, name, gone⟩ := Model.isOrphan_iff.mp orphan
    have same := m.indexName_injective ((named.named index member).2.2.symm.trans name)
    exact ⟨index, member, same ▸ gone, rfl⟩
  · rintro ⟨index, member, gone, rfl⟩
    refine ⟨⟨index.name, index.unique⟩, List.mem_map_of_mem member, ?_, rfl⟩
    obtain ⟨present, _, name⟩ := named.named index member
    obtain ⟨column, inside, same⟩ := List.mem_map.mp present
    exact Model.isOrphan_iff.mpr ⟨column, inside, same ▸ name, same ▸ gone⟩

/-- An index is dropped exactly if it is not wanted. -/
theorem drop_mem_diff {name : String} : IndexChange.drop name ∈ (t.diff m).indexes ↔
    ∃ index ∈ t.indexes, index.name = name ∧ ¬ m.Wants index := by
  rw [named.mem_diff_indexes]
  constructor
  · rintro (⟨entry, declared, asked⟩ | ⟨index, member, gone, same⟩)
    · rcases Model.mem_indexChanges.mp asked with ⟨same, live, found, unwanted⟩ | ⟨same, _⟩
      · cases same
        obtain ⟨index, member, column, rfl⟩ := named.findIndex?_iff.mp found
        refine ⟨index, member, column ▸ (named.named index member).2.2, ?_⟩
        rintro ⟨p, declaredToo, wanted, unique⟩
        obtain rfl := Model.declared_unique (column ▸ declaredToo) declared
        exact unwanted ⟨wanted, unique⟩
      · cases same
    · cases same
      refine ⟨index, member, rfl, ?_⟩
      rintro ⟨p, declared, _⟩
      rw [Model.keeps_of_declared declared] at gone
      cases gone
  · rintro ⟨index, member, rfl, unwanted⟩
    obtain ⟨_, other, name⟩ := named.named index member
    cases keeps : m.keeps index.column with
    | false => exact .inr ⟨index, member, keeps, rfl⟩
    | true =>
      rcases Model.keeps_iff.mp keeps with key | ⟨p, declared⟩
      · exact absurd key other
      · refine .inl ⟨_, declared, Model.mem_indexChanges.mpr (.inl ⟨by rw [name], _,
          named.findIndex?_iff.mpr ⟨index, member, rfl, rfl⟩, ?_⟩)⟩
        rintro ⟨wanted, unique⟩
        exact unwanted ⟨p, declared, wanted, unique⟩

/-- An index is created exactly if it is wanted and not there. -/
theorem create_mem_diff {name column : String} {unique : Bool} :
    IndexChange.create name column unique ∈ (t.diff m).indexes ↔
      m.Wants ⟨name, column, unique⟩ ∧ name = m.indexName column ∧
        ⟨name, column, unique⟩ ∉ t.indexes := by
  rw [named.mem_diff_indexes]
  constructor
  · rintro (⟨entry, declared, asked⟩ | ⟨index, _, _, same⟩)
    · rcases Model.mem_indexChanges.mp asked with ⟨same, _⟩ | ⟨same, wanted, absent⟩
      · cases same
      · cases same
        refine ⟨⟨entry.2, declared, wanted, rfl⟩, rfl, fun member => ?_⟩
        exact absent _ (named.findIndex?_iff.mpr ⟨_, member, rfl, rfl⟩) rfl
    · cases same
  · rintro ⟨⟨p, declared, wanted, rfl⟩, rfl, absent⟩
    refine .inl ⟨_, declared, Model.mem_indexChanges.mpr (.inr ⟨rfl, wanted, ?_⟩)⟩
    intro live found same
    obtain ⟨index, member, rfl, rfl⟩ := named.findIndex?_iff.mp found
    have stays : m.Wants index := ⟨p, declared, wanted, same⟩
    have asked : m.Wants ⟨m.indexName index.column, index.column, p.unique⟩ :=
      ⟨p, declared, wanted, rfl⟩
    exact absent (stays.eq asked rfl (named.named index member).2.2 ▸ member)

/-- An index stays exactly if it is wanted. -/
theorem mem_unindexed_diff {index : TableIndex} :
    index ∈ (t.unindexed (t.diff m)).indexes ↔ index ∈ t.indexes ∧ m.Wants index := by
  rw [mem_unindexed]
  refine and_congr_right fun member => ?_
  rw [named.drop_mem_diff]
  constructor
  · intro kept
    by_contra unwanted
    exact kept ⟨index, member, rfl, unwanted⟩
  · rintro wanted ⟨other, otherMember, name, unwanted⟩
    have sameIndex : other = index :=
      List.inj_on_of_nodup_map named.distinct.indexes otherMember member name
    exact unwanted (sameIndex ▸ wanted)

/-- The indexes of columns that do not stay are not wanted. -/
theorem alterable : t.Alterable m where
  distinct := named.distinct
  nonempty := named.columns_ne_nil
  detached index member := by
    by_cases wanted : m.Wants index
    · obtain ⟨p, declared, _⟩ := wanted
      exact .inl (Model.keeps_of_declared declared)
    · exact .inr (named.drop_mem_diff.mpr ⟨index, member, rfl, wanted⟩)

theorem mem_retained {name : String} :
    name ∈ (t.diff m).retained ↔ name ∈ t.columnNames ∧ m.keeps name :=
  Model.mem_reconcile_retained named.columns_ne_nil

/-- A column stays or is added exactly if the model keeps it. -/
theorem mem_retained_or_added {name : String} :
    name ∈ (t.diff m).retained ∨ name ∈ (t.diff m).added ↔ m.keeps name := by
  have added : name ∈ (t.diff m).added ↔ ∃ p, (name, p) ∈ m.columns ∧ name ∉ t.columnNames := by
    rw [TableDiff.added, List.mem_filterMap]
    constructor
    · rintro ⟨change, member, same⟩
      cases change with
      | add added p =>
        cases same
        exact ⟨p, (Model.add_mem_reconcile named.columns_ne_nil).mp member⟩
      | _ => cases same
    · rintro ⟨p, declared⟩
      exact ⟨.add name p, (Model.add_mem_reconcile named.columns_ne_nil).mpr declared, rfl⟩
  rw [named.mem_retained, added]
  constructor
  · rintro (⟨_, kept⟩ | ⟨p, declared, _⟩)
    · exact kept
    · exact Model.keeps_of_declared declared
  · intro kept
    by_cases present : name ∈ t.columnNames
    · exact .inl ⟨present, kept⟩
    · rcases Model.keeps_iff.mp kept with rfl | ⟨p, declared⟩
      · exact absurd named.key present
      · exact .inr ⟨p, declared, present⟩

/-- A diff in place leaves a table as it is to be. -/
theorem migrated_changedBy (d : Dialect) : (t.changedBy (t.diff m)).Migrated m (t.diff m) := by
  have reconciled := named.alterable.matches_reconciled
  have columns := named.alterable.changedBy_columns
  constructor
  case distinct => exact named.distinct.run? (named.alterable.diff_fits.perform? d m)
  case columns =>
    intro name
    rw [named.mem_retained_or_added, mem_columnNames, columns]
    constructor
    · rintro ⟨column, found⟩
      have kept := reconciled.kept column (List.mem_of_find?_eq_some found)
      rwa [findColumn?_name found] at kept
    · intro kept
      rcases Model.keeps_iff.mp kept with rfl | ⟨p, declared⟩
      · rw [Model.findColumn?_key named.columns_ne_nil]
        exact mem_columnNames.mp named.key
      · obtain ⟨column, found, _⟩ := reconciled.declared _ declared
        exact ⟨column, found⟩
  case declared =>
    intro entry member
    obtain ⟨column, found, same⟩ := reconciled.declared entry member
    rw [← columns] at found
    exact ⟨column, found, by simpa [LiveColumn.differs] using same⟩
  case indexes =>
    intro index
    rw [changedBy, List.mem_append, named.mem_unindexed_diff, List.mem_filterMap]
    constructor
    · rintro (⟨present, wanted⟩ | ⟨change, created, same⟩)
      · exact ⟨wanted, (named.named index present).2.2⟩
      · cases change with
        | drop => cases same
        | create name column unique =>
          cases same
          have inside := (List.mem_filter.mp created).1
          obtain ⟨wanted, name, _⟩ := named.create_mem_diff.mp inside
          exact ⟨wanted, name⟩
    · rintro ⟨wanted, name⟩
      by_cases present : index ∈ t.indexes
      · exact .inl ⟨present, wanted⟩
      · have created := named.create_mem_diff.mpr ⟨wanted, name, present⟩
        exact .inr ⟨_, List.mem_filter.mpr ⟨created, rfl⟩, rfl⟩

end NamedFor

end Table

end SqlMapper
