import SqlMapper.Proofs.Schema.Execution

/-! # A diff carried out in place

First indexes are dropped, then columns are changed, then indexes are created. Each of the three
succeeds if its names are distinct and each change fits the table as it was before. What
`reconcile` finds is of that kind: a column goes only after its index, and a replaced index comes
only after the one that it replaces.
-/

namespace SqlMapper

/-! ## Phases -/

namespace Table

variable {t : Table} (table : String)

theorem mem_columnNames {name : String} :
    name ∈ t.columnNames ↔ ∃ column, findColumn? t.columns name = some column := by
  rw [← not_iff_not, ← Option.isSome_iff_exists, Option.not_isSome_iff_eq_none,
    findColumn?_eq_none]
  simp [columnNames]

/-- Indexes that there are can all be dropped, each of them once. -/
theorem foldlM_drops {drops : List IndexChange} (drop : ∀ change ∈ drops, change.isDrop)
    (distinct : (drops.map IndexChange.name).Nodup)
    (present : ∀ change ∈ drops, change.name ∈ t.indexNames) :
    (drops.map (IndexChange.definition table)).foldlM perform? t =
      some { t with indexes := t.indexes.filter fun index =>
        index.name ∉ drops.map IndexChange.name } := by
  induction drops generalizing t with
  | nil => simp
  | cons change drops ih =>
    obtain ⟨dropped, allDropped⟩ := List.forall_mem_cons.mp drop
    obtain ⟨here, others⟩ := List.forall_mem_cons.mp present
    obtain ⟨new, distinctOthers⟩ := List.nodup_cons.mp distinct
    cases change with
    | create => cases dropped
    | drop name =>
      have first : t.perform? (.dropIndex table name) = some (t.withoutIndex name) := if_pos here
      have kept : ∀ change ∈ drops, change.name ∈ (t.withoutIndex name).indexNames := by
        intro change member
        obtain ⟨index, inside, named⟩ := List.mem_map.mp (others change member)
        refine List.mem_map.mpr ⟨index, List.mem_filter.mpr ⟨inside, ?_⟩, named⟩
        rw [bne_iff_ne, named]
        rintro same
        exact new (List.mem_map.mpr ⟨change, member, same⟩)
      rw [List.map_cons, IndexChange.definition, List.foldlM_cons, first]
      refine (ih allDropped distinctOthers kept).trans ?_
      simp only [withoutIndex, List.filter_filter, List.map_cons, IndexChange.name, List.mem_cons,
        not_or, Bool.decide_and, Bool.and_comm, bne, beq_eq_decide, decide_not]

end Table

/-- A change that a table allows. -/
def ColumnChange.Fits (t : Table) : ColumnChange → Prop
  | .add name _ => name ∉ t.columnNames
  | .change name _ => name ∈ t.columnNames
  | .drop name => name ∈ t.columnNames ∧ ∀ index ∈ t.indexes, index.column ≠ name

namespace ColumnChange

variable {t : Table} {change other : ColumnChange}

theorem Fits.act? (fits : change.Fits t) :
    t.act? change.action = some { t with columns := change.applyTo t.columns } := by
  cases change with
  | add name p => exact if_neg fits
  | change name p => exact if_pos fits
  | drop name => exact if_pos fits

/-- A change fits as before after one of another column. -/
theorem Fits.after (fits : change.Fits t) (differ : other.name ≠ change.name) :
    change.Fits { t with columns := other.applyTo t.columns } := by
  have same : change.name ∈ Table.columnNames { t with columns := other.applyTo t.columns } ↔
      change.name ∈ t.columnNames := by
    rw [Table.mem_columnNames, Table.mem_columnNames, findColumn?_applyTo, if_neg differ]
  cases change with
  | add name p => exact same.not.mpr fits
  | change name p => exact same.mpr fits
  | drop name => exact ⟨same.mpr fits.1, fits.2⟩

end ColumnChange

namespace Table

variable {t : Table} (table : String)

/-- Changes of different columns that fit can all be made. -/
theorem foldlM_changes {changes : List ColumnChange}
    (distinct : (changes.map ColumnChange.name).Nodup) (fit : ∀ change ∈ changes, change.Fits t) :
    (changes.map ColumnChange.action).foldlM act? t =
      some { t with columns := changes.foldl ColumnChange.applyTo t.columns } := by
  induction changes generalizing t with
  | nil => rfl
  | cons change changes ih =>
    obtain ⟨first, fit⟩ := List.forall_mem_cons.mp fit
    obtain ⟨new, distinct⟩ := List.nodup_cons.mp distinct
    have later : ∀ next ∈ changes, next.Fits { t with columns := change.applyTo t.columns } := by
      intro next member
      apply (fit next member).after
      intro same
      exact new (same ▸ List.mem_map_of_mem member)
    rw [List.map_cons, List.foldlM_cons, first.act?]
    exact ih distinct later

/-- It is the same whether the changes are made by one statement or by one each. -/
theorem foldlM_alterations (alteration : Alteration) (changes : List ColumnChange) :
    (TableDiff.alterations alteration table changes).foldlM perform? t =
      (changes.map ColumnChange.action).foldlM act? t := by
  cases alteration with
  | joined =>
    cases changes with
    | nil => rfl
    | cons change changes =>
      simp [TableDiff.alterations, perform?, Alter.action, Function.comp_def]
  | separate =>
    rw [TableDiff.alterations]
    induction changes generalizing t with
    | nil => rfl
    | cons change changes ih =>
      have one : t.perform? (.alterTable table [.column change]) = t.act? change.action := by
        simp [perform?, Alter.action]
      rw [List.map_cons, List.map_cons, List.foldlM_cons, List.foldlM_cons, one]
      congr 1
      funext next
      exact ih

end Table

/-- The index that a change creates. -/
def IndexChange.index? : IndexChange → Option TableIndex
  | .create name column unique => some ⟨name, column, unique⟩
  | .drop _ => none

namespace Table

variable {t : Table} (table : String)

/-- Indexes of new names on columns that there are can all be created. -/
theorem foldlM_creates {creates : List IndexChange} (create : ∀ change ∈ creates, !change.isDrop)
    (distinct : (creates.map IndexChange.name).Nodup)
    (fit : ∀ change ∈ creates, change.name ∉ t.indexNames ∧
      ∀ index ∈ change.index?, index.column ∈ t.columnNames) :
    (creates.map (IndexChange.definition table)).foldlM perform? t =
      some { t with indexes := t.indexes ++ creates.filterMap IndexChange.index? } := by
  induction creates generalizing t with
  | nil => simp
  | cons change creates ih =>
    obtain ⟨created, allCreated⟩ := List.forall_mem_cons.mp create
    obtain ⟨here, others⟩ := List.forall_mem_cons.mp fit
    obtain ⟨new, distinctOthers⟩ := List.nodup_cons.mp distinct
    cases change with
    | drop => cases created
    | create name column unique =>
      let index : TableIndex := ⟨name, column, unique⟩
      have first : t.perform? (.createIndex table name column unique) =
          some { t with indexes := t.indexes ++ [index] } := if_pos ⟨here.1, here.2 index rfl⟩
      have later : ∀ change ∈ creates,
          change.name ∉ indexNames { t with indexes := t.indexes ++ [index] } ∧
            ∀ index ∈ change.index?, index.column ∈ t.columnNames := by
        intro change member
        obtain ⟨free, columns⟩ := others change member
        refine ⟨?_, columns⟩
        rw [indexNames, List.map_append, List.mem_append, List.map_singleton, List.mem_singleton]
        rintro (taken | same)
        · exact free taken
        · exact new (List.mem_map.mpr ⟨change, member, same⟩)
      rw [List.map_cons, IndexChange.definition, List.foldlM_cons, first]
      refine (ih allCreated distinctOthers later).trans ?_
      simp [IndexChange.index?, index]

/-- A table without the indexes that a diff drops. -/
def unindexed (t : Table) (diff : TableDiff) : Table :=
  { t with indexes := t.indexes.filter fun index =>
    index.name ∉ (diff.indexes.filter IndexChange.isDrop).map IndexChange.name }

/-- What a diff in place makes of a table. -/
def changedBy (t : Table) (diff : TableDiff) : Table where
  columns := diff.columns.foldl ColumnChange.applyTo t.columns
  indexes := (t.unindexed diff).indexes ++
    (diff.indexes.filter (!·.isDrop)).filterMap IndexChange.index?

end Table

/-- A diff that a table allows in place. -/
structure TableDiff.Fits (diff : TableDiff) (t : Table) : Prop where
  present : diff.createTable = false
  drops_distinct : ((diff.indexes.filter IndexChange.isDrop).map IndexChange.name).Nodup
  drops : ∀ change ∈ diff.indexes.filter IndexChange.isDrop, change.name ∈ t.indexNames
  columns_distinct : (diff.columns.map ColumnChange.name).Nodup
  columns : ∀ change ∈ diff.columns, change.Fits (t.unindexed diff)
  creates_distinct : ((diff.indexes.filter (!·.isDrop)).map IndexChange.name).Nodup
  creates : ∀ change ∈ diff.indexes.filter (!·.isDrop),
    change.name ∉ (t.unindexed diff).indexNames ∧
      ∀ index ∈ change.index?, index.column ∈ (t.changedBy diff).columnNames

/-- A diff that fits is carried out in place. -/
theorem TableDiff.Fits.perform? {diff : TableDiff} {t : Table} (fits : diff.Fits t) (d : Dialect)
    (m : Model) : (diff.inPlace d m).foldlM Table.perform? t = some (t.changedBy diff) := by
  have dropped := Table.foldlM_drops m.tableName
    (fun change member => (List.mem_filter.mp member).2) fits.drops_distinct fits.drops
  have altered := Table.foldlM_changes fits.columns_distinct fits.columns
  have created := Table.foldlM_creates m.tableName
    (t := { t.unindexed diff with columns := (t.changedBy diff).columns })
    (fun change member => (List.mem_filter.mp member).2) fits.creates_distinct fits.creates
  rw [TableDiff.inPlace, if_neg (by simp [fits.present]), List.nil_append, List.foldlM_append,
    List.foldlM_append, dropped]
  change ((List.foldlM Table.perform? (t.unindexed diff) _).bind fun next => _) = _
  rw [Table.foldlM_alterations, altered]
  exact created

end SqlMapper
