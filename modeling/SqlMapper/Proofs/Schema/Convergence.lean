import Mathlib.Data.List.Basic
import SqlMapper.Proofs.Entries
import SqlMapper.Proofs.Schema.LiveTable

/-! # A reconciled table needs nothing more

A table matches its model if its columns are the key and the declared ones, as they are declared,
and every declared column has the index that it is declared with. A diff is empty exactly if there
is a table and it matches. What `reconcile` finds makes a table match, name by name: the changes of
a declared name are those that its property asked for, and other names are dropped. One thing can go
wrong: if no column stays and none is declared, no column is left, and there is no table.
-/

namespace SqlMapper

/-! ## Declared columns -/

namespace Model

variable {m : Model}

theorem mem_columns {entry : String × Property} :
    entry ∈ m.columns ↔ m.get? entry.1 = some entry.2 ∧ entry.1 ≠ idName := by
  rw [get?, Keyed.get?, Entries.get?_eq_some_iff m.properties.distinct]
  simp [columns]

theorem columns_distinct (m : Model) : (m.columns.map Prod.fst).Nodup :=
  m.properties.distinct.sublist (List.filter_sublist.map Prod.fst)

theorem keeps_iff {name : String} :
    m.keeps name ↔ name = idName ∨ ∃ p, (name, p) ∈ m.columns := by
  by_cases key : name = idName
  · simp [keeps, key]
  · simp [keeps, key, mem_columns, Option.isSome_iff_exists]

theorem indexName_injective (m : Model) : Function.Injective m.indexName := by
  intro one other same
  have text := congrArg String.toList same
  simp only [indexName, String.toList_append] at text
  exact String.toList_injective (List.append_cancel_left text)

end Model

/-- A text that begins with another one, and what is left of it. -/
theorem Text.dropStart?_eq_some {start cs rest : List Char} :
    dropStart? start cs = some rest ↔ cs = start ++ rest := by
  fun_induction dropStart? start cs <;> simp_all [eq_comm]

/-- Among the parts of distinct entries, those with the name of one are the parts of that one. -/
theorem filter_parts {β : Type} {entries : Entries Property} {parts : String × Property → List β}
    (key : β → String) {naming : String → String} (injective : Function.Injective naming)
    (named : ∀ entry, ∀ part ∈ parts entry, key part = naming entry.1)
    (distinct : (entries.map Prod.fst).Nodup) {entry : String × Property}
    (member : entry ∈ entries) :
    (entries.flatMap parts).filter (fun part => key part = naming entry.1) = parts entry := by
  have absent (rest : Entries Property) (new : entry.1 ∉ rest.map Prod.fst) :
      (rest.flatMap parts).filter (fun part => key part = naming entry.1) = [] := by
    rw [List.filter_eq_nil_iff]
    intro part found same
    obtain ⟨other, inside, part_of⟩ := List.mem_flatMap.mp found
    have agree := named other part part_of
    rw [of_decide_eq_true same] at agree
    exact new (injective agree ▸ List.mem_map_of_mem inside)
  have own : (parts entry).filter (fun part => key part = naming entry.1) = parts entry :=
    List.filter_eq_self.mpr fun part found => decide_eq_true (named entry part found)
  obtain ⟨front, back, rfl⟩ := List.append_of_mem member
  simp only [List.map_append, List.map_cons, List.nodup_append, List.nodup_cons] at distinct
  obtain ⟨_, ⟨later, _⟩, apart⟩ := distinct
  have earlier : entry.1 ∉ front.map Prod.fst := by
    intro inside
    exact apart _ inside _ List.mem_cons_self rfl
  rw [List.flatMap_append, List.flatMap_cons, List.filter_append, List.filter_append,
    absent front earlier, absent back later, own, List.nil_append, List.append_nil]

/-! ## What a table needs -/

/-- A table that is as its model declares it. -/
structure LiveTable.Matches (m : Model) (t : LiveTable) : Prop where
  declared : ∀ entry ∈ m.columns, ∃ column,
    findColumn? t.columns entry.1 = some column ∧ column.differs entry.2 = false
  kept : ∀ column ∈ t.columns, m.keeps column.name
  indexed : ∀ entry ∈ m.columns, (findIndex? t.indexes (m.indexName entry.1)).map LiveIndex.unique =
    if entry.2.wantsIndex then some entry.2.unique else none

namespace Model

variable {m : Model}

theorem columnChange?_eq_none {columns : List LiveColumn} {name : String} {p : Property} :
    columnChange? columns name p = none ↔
      ∃ column, findColumn? columns name = some column ∧ column.differs p = false := by
  unfold columnChange?
  cases findColumn? columns name <;> simp

theorem indexChanges_eq_nil {indexes : List LiveIndex} {name : String} {p : Property} :
    m.indexChanges indexes name p = [] ↔
      (findIndex? indexes (m.indexName name)).map LiveIndex.unique =
        if p.wantsIndex then some p.unique else none := by
  unfold indexChanges
  cases p.wantsIndex <;> cases findIndex? indexes (m.indexName name) <;> simp [createIndex]

/-- An index is dropped unless it is the wanted one, and created unless there is that one. -/
theorem mem_indexChanges {indexes : List LiveIndex} {name : String} {p : Property}
    {change : IndexChange} : change ∈ m.indexChanges indexes name p ↔
      (change = .drop (m.indexName name) ∧
        ∃ index, findIndex? indexes (m.indexName name) = some index ∧
          ¬ (p.wantsIndex ∧ index.unique = p.unique)) ∨
      (change = m.createIndex name p ∧ p.wantsIndex ∧
        ∀ index, findIndex? indexes (m.indexName name) = some index → index.unique ≠ p.unique) := by
  unfold indexChanges
  cases p.wantsIndex <;> cases findIndex? indexes (m.indexName name) with
  | none => simp
  | some index => by_cases same : index.unique = p.unique <;> simp [same]

/-- An orphaned index is one of a column that does not stay. -/
theorem isOrphan_iff {columns : List LiveColumn} {index : LiveIndex} :
    m.isOrphan columns index ↔ ∃ column ∈ columns,
      index.name = m.indexName column.name ∧ m.keeps column.name = false := by
  unfold isOrphan
  cases cut : Text.dropStart? (m.indexName "").toList index.name.toList with
  | none =>
    simp only [Bool.false_eq_true, false_iff]
    rintro ⟨column, _, name, _⟩
    have text : index.name.toList = (m.indexName "").toList ++ column.name.toList := by
      simp [name, indexName]
    rw [Text.dropStart?_eq_some.mpr text] at cut
    cases cut
  | some rest =>
    have text := Text.dropStart?_eq_some.mp cut
    have named (name : String) : index.name = m.indexName name ↔ String.ofList rest = name := by
      rw [← String.toList_inj, text]
      simp [indexName, ← String.toList_inj]
    simp only [named, keeps]
    constructor
    · intro orphan
      simp only [Bool.and_eq_true, List.any_eq_true, beq_iff_eq] at orphan
      obtain ⟨⟨key, undeclared⟩, column, member, same⟩ := orphan
      refine ⟨column, member, same.symm, ?_⟩
      simp_all
    · rintro ⟨column, member, same, gone⟩
      simp_all
      exact ⟨column, member, rfl⟩

theorem reconcile_nil (indexes : List LiveIndex) : m.reconcile [] indexes = m.creation := rfl

theorem reconcile_of_ne_nil {columns : List LiveColumn} (nonempty : columns ≠ [])
    (indexes : List LiveIndex) : m.reconcile columns indexes =
      { columns :=
          m.columns.flatMap (fun entry => (columnChange? columns entry.1 entry.2).toList) ++
          ((columns.map LiveColumn.name).filter fun name => !m.keeps name).map ColumnChange.drop
        indexes := m.columns.flatMap (fun entry => m.indexChanges indexes entry.1 entry.2) ++
          (indexes.filter (m.isOrphan columns)).map fun index => IndexChange.drop index.name
        retained := (columns.map LiveColumn.name).filter m.keeps } := by
  rw [reconcile, if_neg (by simpa using nonempty), List.filterMap_eq_flatMap_toList]

/-- A diff is empty exactly if there is a table and it matches. -/
theorem reconcile_isEmpty_iff {t : LiveTable} :
    (m.reconcile t.columns t.indexes).isEmpty ↔ t.columns ≠ [] ∧ t.Matches m := by
  by_cases empty : t.columns = []
  · simp [empty, reconcile, TableDiff.isEmpty, creation]
  rw [reconcile_of_ne_nil empty]
  simp only [TableDiff.isEmpty, Bool.not_false, Bool.true_and, Bool.and_eq_true, List.isEmpty_iff,
    List.append_eq_nil_iff, List.flatMap_eq_nil_iff, List.map_eq_nil_iff, List.filter_eq_nil_iff,
    Option.toList_eq_nil_iff, columnChange?_eq_none, indexChanges_eq_nil]
  constructor
  · rintro ⟨⟨declared, kept⟩, indexed, _⟩
    refine ⟨empty, declared, fun column member => ?_, indexed⟩
    simpa using kept column.name (List.mem_map_of_mem member)
  · rintro ⟨_, declared, kept, indexed⟩
    refine ⟨⟨declared, ?_⟩, indexed, ?_⟩
    · intro name member
      obtain ⟨column, inside, rfl⟩ := List.mem_map.mp member
      simp [kept column inside]
    · intro index _ orphan
      obtain ⟨column, inside, _, gone⟩ := isOrphan_iff.mp orphan
      simp [kept column inside] at gone

/-! ## What a diff achieves -/

theorem creation_indexes (m : Model) :
    m.creation.indexes = m.columns.flatMap fun entry => m.indexChanges [] entry.1 entry.2 := by
  have wanted (entry : String × Property) : m.indexChanges [] entry.1 entry.2 =
      if entry.2.wantsIndex then [m.createIndex entry.1 entry.2] else [] := by
    unfold indexChanges
    cases entry.2.wantsIndex <;> rfl
  simp only [wanted, creation]
  induction m.columns with
  | nil => rfl
  | cons entry rest ih => by_cases indexed : entry.2.wantsIndex <;> simp [indexed, ih]

/-- The changes of an index that its property asks for bring it about. -/
theorem indexChanges_outcome (indexes : List LiveIndex) (name : String) (p : Property) :
    ((m.indexChanges indexes name p).foldl IndexChange.outcome
      (findIndex? indexes (m.indexName name))).map LiveIndex.unique =
        if p.wantsIndex then some p.unique else none := by
  unfold indexChanges
  cases wanted : p.wantsIndex <;> cases found : findIndex? indexes (m.indexName name) with
  | none => simp [createIndex, IndexChange.outcome]
  | some index =>
    by_cases same : index.unique = p.unique <;> simp [createIndex, IndexChange.outcome, same]

theorem columnChange?_outcome {columns : List LiveColumn} {name : String} {p : Property} :
    ∃ column, (columnChange? columns name p).toList.foldl ColumnChange.outcome
      (findColumn? columns name) = some column ∧ column.differs p = false := by
  unfold columnChange?
  cases findColumn? columns name with
  | none => exact ⟨p.liveColumn name, rfl, by simp⟩
  | some column =>
    cases differs : column.differs p with
    | true => exact ⟨column.declaredAs p, by simp [differs, ColumnChange.outcome], by simp⟩
    | false => exact ⟨column, by simp [differs], differs⟩

theorem indexChanges_name (indexes : List LiveIndex) (entry : String × Property) :
    ∀ change ∈ m.indexChanges indexes entry.1 entry.2, change.name = m.indexName entry.1 := by
  unfold indexChanges
  cases entry.2.wantsIndex <;> cases findIndex? indexes (m.indexName entry.1) with
  | none => simp [createIndex, IndexChange.name]
  | some index =>
    by_cases same : index.unique = entry.2.unique <;> simp [createIndex, IndexChange.name, same]

theorem columnChange?_name (columns : List LiveColumn) (entry : String × Property) :
    ∀ change ∈ (columnChange? columns entry.1 entry.2).toList, change.name = entry.1 := by
  unfold columnChange?
  cases findColumn? columns entry.1 with
  | none => simp [ColumnChange.name]
  | some column => cases column.differs entry.2 <;> simp [ColumnChange.name]

section Reconciled

variable {columns : List LiveColumn} (nonempty : columns ≠ []) (indexes : List LiveIndex)

include nonempty

/-- A diff has the column changes that a declared property asks for, and no others of its name. -/
theorem reconcile_columns_declared {entry : String × Property} (member : entry ∈ m.columns) :
    (m.reconcile columns indexes).columns.filter (·.name = entry.1) =
      (columnChange? columns entry.1 entry.2).toList := by
  have kept : m.keeps entry.1 := keeps_iff.mpr (.inr ⟨entry.2, member⟩)
  have own := filter_parts ColumnChange.name Function.injective_id (columnChange?_name columns)
    m.columns_distinct member
  simp only [id] at own
  rw [reconcile_of_ne_nil nonempty, List.filter_append, own, List.filter_eq_nil_iff.mpr,
    List.append_nil]
  intro change dropped same
  obtain ⟨name, gone, rfl⟩ := List.mem_map.mp dropped
  have name_eq : name = entry.1 := of_decide_eq_true same
  simp [name_eq, kept] at gone

/-- A column change is one that a declared property asks for, or drops a column that does not
stay. -/
theorem mem_reconcile_columns {change : ColumnChange} :
    change ∈ (m.reconcile columns indexes).columns ↔
      (∃ entry ∈ m.columns, columnChange? columns entry.1 entry.2 = some change) ∨
      ∃ column ∈ columns, m.keeps column.name = false ∧ change = .drop column.name := by
  rw [reconcile_of_ne_nil nonempty, List.mem_append, List.mem_flatMap, List.mem_map]
  simp only [Option.mem_toList]
  refine or_congr_right ⟨?_, ?_⟩
  · rintro ⟨name, gone, rfl⟩
    obtain ⟨present, gone⟩ := List.mem_filter.mp gone
    obtain ⟨column, member, rfl⟩ := List.mem_map.mp present
    exact ⟨column, member, by simpa using gone, rfl⟩
  · rintro ⟨column, member, gone, rfl⟩
    exact ⟨column.name, List.mem_filter.mpr ⟨List.mem_map_of_mem member, by simp [gone]⟩, rfl⟩

end Reconciled

/-- A diff has the index changes that a declared property asks for, and no others of its name. -/
theorem reconcile_indexes_declared {t : LiveTable} (fresh : t.columns = [] → t.indexes = [])
    {entry : String × Property} (member : entry ∈ m.columns) :
    (m.reconcile t.columns t.indexes).indexes.filter (·.name = m.indexName entry.1) =
      m.indexChanges t.indexes entry.1 entry.2 := by
  have own := filter_parts IndexChange.name m.indexName_injective (m.indexChanges_name t.indexes)
    m.columns_distinct member
  by_cases empty : t.columns = []
  · rw [fresh empty] at own ⊢
    rw [empty, reconcile_nil, creation_indexes, own]
  · rw [reconcile_of_ne_nil empty, List.filter_append, own, List.filter_eq_nil_iff.mpr,
      List.append_nil]
    intro change dropped same
    obtain ⟨index, orphaned, rfl⟩ := List.mem_map.mp dropped
    obtain ⟨column, _, name, gone⟩ := isOrphan_iff.mp (List.mem_filter.mp orphaned).2
    have name_eq : m.indexName column.name = m.indexName entry.1 :=
      name.symm.trans (of_decide_eq_true same)
    rw [m.indexName_injective name_eq, ← Bool.not_eq_true, keeps_iff] at gone
    exact gone (.inr ⟨entry.2, member⟩)

/-- The columns of a table that there is, after a diff. -/
theorem findColumn?_reconciled {t : LiveTable} (nonempty : t.columns ≠ []) (name : String) :
    findColumn? (t.reconciled m).columns name =
      ((m.reconcile t.columns t.indexes).columns.filter (·.name = name)).foldl ColumnChange.outcome
        (findColumn? t.columns name) := by
  have present : (m.reconcile t.columns t.indexes).createTable = false := by
    rw [reconcile_of_ne_nil nonempty]
  rw [LiveTable.reconciled, TableDiff.applyTo, present]
  exact ColumnChange.findColumn?_foldl _ _ _

/-- A column that does not stay is gone. -/
theorem findColumn?_undeclared {t : LiveTable} (nonempty : t.columns ≠ []) {name : String}
    (gone : m.keeps name = false) :
    findColumn? (t.reconciled m).columns name = none := by
  rw [findColumn?_reconciled nonempty]
  apply ColumnChange.foldl_outcome_drop
  · intro change inside
    obtain ⟨inside, same⟩ := List.mem_filter.mp inside
    have same : change.name = name := of_decide_eq_true same
    rcases (mem_reconcile_columns nonempty t.indexes).mp inside with
      ⟨entry, member, asked⟩ | ⟨column, _, _, rfl⟩
    · have named := columnChange?_name t.columns entry change (Option.mem_toList.mpr asked)
      rw [← same, named, ← Bool.not_eq_true, keeps_iff] at gone
      exact absurd (.inr ⟨entry.2, member⟩) gone
    · rw [ColumnChange.name] at same
      rw [same]
  · intro none_dropped
    rw [findColumn?_eq_none]
    rintro column member rfl
    have dropped := (mem_reconcile_columns (m := m) nonempty t.indexes).mpr
      (.inr ⟨column, member, gone, rfl⟩)
    exact List.filter_eq_nil_iff.mp none_dropped _ dropped (decide_eq_true rfl)

/-- The key column is left alone. -/
theorem findColumn?_key {t : LiveTable} (nonempty : t.columns ≠ []) :
    findColumn? (t.reconciled m).columns idName =
      findColumn? t.columns idName := by
  rw [findColumn?_reconciled nonempty, List.filter_eq_nil_iff.mpr, List.foldl_nil]
  intro change inside same
  have same : change.name = idName := of_decide_eq_true same
  rcases (mem_reconcile_columns nonempty t.indexes).mp inside with
    ⟨entry, member, asked⟩ | ⟨column, _, gone, rfl⟩
  · have named := columnChange?_name t.columns entry change (Option.mem_toList.mpr asked)
    exact (mem_columns.mp member).2 (named.symm.trans same)
  · rw [ColumnChange.name] at same
    simp [same, keeps] at gone

theorem findColumn?_created {entry : String × Property} (member : entry ∈ m.columns) :
    findColumn? m.createdColumns entry.1 = some (entry.2.liveColumn entry.1) := by
  have found (entries : Entries Property) (name : String) :
      findColumn? (entries.map fun entry => entry.2.liveColumn entry.1) name =
        (Entries.get? name entries).map (·.liveColumn name) := by
    induction entries with
    | nil => rfl
    | cons first rest ih =>
      rw [List.map_cons, findColumn?, List.find?_cons, ← findColumn?, ih, Entries.get?]
      by_cases same : first.1 = name
      · simp [Property.liveColumn, same]
      · have other : ((first.2.liveColumn first.1).name == name) = false := beq_false_of_ne same
        rw [other, if_neg same]
  have other : (keyColumn.name == entry.1) = false :=
    beq_false_of_ne (mem_columns.mp member).2.symm
  rw [createdColumns, findColumn?, List.find?_cons, other, ← findColumn?, found,
    Entries.get?_of_mem m.columns_distinct member, Option.map_some]

/-- A diff makes a table match its model. -/
theorem matches_reconciled {t : LiveTable} (fresh : t.columns = [] → t.indexes = []) :
    (t.reconciled m).Matches m where
  declared entry member := by
    by_cases empty : t.columns = []
    · rw [LiveTable.reconciled, empty, reconcile_nil]
      exact ⟨_, findColumn?_created member, by simp⟩
    · rw [findColumn?_reconciled empty, reconcile_columns_declared empty t.indexes member]
      exact columnChange?_outcome
  kept column member := by
    by_cases empty : t.columns = []
    · rw [LiveTable.reconciled, empty, reconcile_nil] at member
      rcases List.mem_cons.mp member with rfl | declared
      · rfl
      · obtain ⟨entry, inside, rfl⟩ := List.mem_map.mp declared
        exact keeps_iff.mpr (.inr ⟨entry.2, inside⟩)
    · rw [← Bool.not_eq_false]
      intro gone
      exact findColumn?_eq_none.mp (findColumn?_undeclared empty gone) column member rfl
  indexed entry member := by
    rw [LiveTable.reconciled, TableDiff.applyTo, IndexChange.findIndex?_foldl,
      reconcile_indexes_declared fresh member]
    exact indexChanges_outcome t.indexes entry.1 entry.2

/-- No column is left exactly if none is declared and the table had others but no key. -/
theorem reconciled_columns_eq_nil {t : LiveTable} :
    (t.reconciled m).columns = [] ↔
      t.columns ≠ [] ∧ m.columns = [] ∧ findColumn? t.columns idName = none := by
  constructor
  · intro empty
    have nonempty : t.columns ≠ [] := by
      intro missing
      rw [LiveTable.reconciled, missing, reconcile_nil] at empty
      cases empty
    have reconciled := matches_reconciled (m := m) fun missing => absurd missing nonempty
    refine ⟨nonempty, ?_, ?_⟩
    · rw [List.eq_nil_iff_forall_not_mem]
      intro entry member
      obtain ⟨column, found, _⟩ := reconciled.declared entry member
      rw [empty] at found
      cases found
    · rw [← findColumn?_key (m := m) nonempty, empty]
      rfl
  · rintro ⟨nonempty, none_declared, no_key⟩
    have reconciled := matches_reconciled (m := m) fun missing => absurd missing nonempty
    rw [← findColumn?_key (m := m) nonempty, findColumn?_eq_none] at no_key
    rw [List.eq_nil_iff_forall_not_mem]
    intro column member
    rcases keeps_iff.mp (reconciled.kept column member) with key | ⟨p, declared⟩
    · exact no_key column member key
    · rw [none_declared] at declared
      cases declared

/-- Reconciling again finds nothing to do, unless there was a table, nothing of it was to stay and
no column is declared. -/
theorem reconcile_converges {t : LiveTable} (fresh : t.columns = [] → t.indexes = []) :
    (m.reconcile (t.reconciled m).columns (t.reconciled m).indexes).isEmpty ↔
      ¬ (t.columns ≠ [] ∧ m.columns = [] ∧ ∀ column ∈ t.columns, column.name ≠ idName) := by
  rw [reconcile_isEmpty_iff, ← findColumn?_eq_none, ← reconciled_columns_eq_nil]
  exact and_iff_left (matches_reconciled fresh)

/-- A table without its key, a column and an index to be dropped and another one to be replaced. -/
theorem reconcile_converges_replaced :
    (((Model.ofName "User").define "name" Property.text.withUnique).reconcile
      (LiveTable.reconciled ((Model.ofName "User").define "name" Property.text.withUnique)
        ⟨[⟨"legacy", "TEXT", true, false⟩], [⟨"User_legacy", false⟩, ⟨"User_name", false⟩]⟩).columns
      (LiveTable.reconciled ((Model.ofName "User").define "name" Property.text.withUnique)
        ⟨[⟨"legacy", "TEXT", true, false⟩], [⟨"User_legacy", false⟩, ⟨"User_name", false⟩]⟩).indexes
    ).isEmpty :=
  (reconcile_converges fun empty => absurd empty (List.cons_ne_nil _ _)).mpr (by decide)

/-- If nothing stays and nothing is declared, all columns are dropped, and the next diff creates the
table. -/
theorem reconcile_diverges :
    ¬ ∀ (m : Model) (t : LiveTable), (t.columns.map LiveColumn.name).Nodup →
      (t.indexes.map LiveIndex.name).Nodup → (t.columns = [] → t.indexes = []) →
        (m.reconcile (t.reconciled m).columns (t.reconciled m).indexes).isEmpty := by
  intro converges
  have emptied := converges (Model.ofName "Log") ⟨[⟨"legacy", "TEXT", true, false⟩], []⟩
    (by decide) (by decide) nofun
  exact absurd emptied (by decide)

end Model

end SqlMapper
