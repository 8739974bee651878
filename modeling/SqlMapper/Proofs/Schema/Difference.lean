import Mathlib.Data.List.Nodup
import SqlMapper.Proofs.Lexis.Numeral
import SqlMapper.Proofs.Schema.Convergence

/-! # What a diff reports

A diff of a table that there is reports how the table differs from its model, all of it and nothing
else. Every change comes from a declared property, which asks for one column change at most and for
one removal and one creation of an index at most, or it removes what belongs to a column that does
not stay. Names are distinct on both sides, so no name is reported twice.
-/

namespace SqlMapper

open Text

/-! ## Types -/

/-- The characters that the types of columns are written in: capitals, digits and parentheses. -/
def IsTypeChar (c : Char) : Prop :=
  40 ≤ c.toNat ∧ c.toNat ≤ 41 ∨ 48 ≤ c.toNat ∧ c.toNat ≤ 57 ∨ 65 ≤ c.toNat ∧ c.toNat ≤ 90
  deriving Decidable

/-- Puts characters into capitals, in the known way wherever the capitals occur in types. -/
def Capitalizes (upper : Char → List Char) : Prop :=
  ∀ c, (∀ x ∈ upper c, IsTypeChar x) ∨ (∀ x ∈ capitals c, IsTypeChar x) → upper c = capitals c

theorem capitalizes_capitals : Capitalizes capitals := fun _ _ => rfl

/-- A type without its blanks, in capitals of some kind. -/
def upperType (upper : Char → List Char) (type : String) : List Char :=
  (type.toList.filter fun c => !isBlank c).flatMap upper

theorem IsTypeChar.capitals_eq {c : Char} (typed : IsTypeChar c) : capitals c = [c] := by
  have bound : c.toNat ≤ 90 := by
    unfold IsTypeChar at typed
    omega
  rw [capitals]
  repeat rw [if_neg (by omega)]

theorem IsTypeChar.isBlank_eq {c : Char} (typed : IsTypeChar c) : isBlank c = false := by
  have bounds : 40 ≤ c.toNat ∧ c.toNat ≤ 90 := by
    unfold IsTypeChar at typed
    omega
  rw [← Bool.not_eq_true]
  simp only [isBlank, Bool.or_eq_true, Bool.and_eq_true, decide_eq_true_eq, beq_iff_eq]
  omega

theorem isTypeChar_of_isDigit {c : Char} (digit : c.isDigit = true) : IsTypeChar c := by
  simp only [Char.isDigit, Bool.and_eq_true, decide_eq_true_eq] at digit
  exact .inr (.inl ⟨digit.1, digit.2⟩)

namespace Property

theorem isTypeChar_columnType (p : Property) : ∀ c ∈ p.columnType.toList, IsTypeChar c := by
  have sized {opening : String} (typed : ∀ c ∈ opening.toList, IsTypeChar c) (n : Nat) :
      ∀ c ∈ (opening ++ natText n ++ ")").toList, IsTypeChar c := by
    intro c member
    rw [String.toList_append, String.toList_append, natText, String.toList_ofList,
      List.mem_append, List.mem_append] at member
    obtain (opened | digit) | closed := member
    · exact typed c opened
    · exact isTypeChar_of_isDigit (allDigits_natDigits n c digit)
    · cases List.mem_singleton.mp closed
      decide
  unfold columnType
  cases p.kind with
  | string => exact sized (by simp [IsTypeChar]) _
  | number => exact sized (by simp [IsTypeChar]) _
  | text | json | date | boolean => simp [IsTypeChar]

end Property

namespace Capitalizes

variable {upper : Char → List Char} (capitalizes : Capitalizes upper)

include capitalizes

/-- Texts in characters of types have the same originals, however capitals are formed. -/
theorem flatMap_eq_iff {cs type : List Char} (typed : ∀ c ∈ type, IsTypeChar c) :
    cs.flatMap upper = type ↔ cs.flatMap capitals = type := by
  constructor
  · rintro rfl
    refine List.flatMap_congr fun c member => (capitalizes c (.inl fun x inside => ?_)).symm
    exact typed x (List.mem_flatMap.mpr ⟨c, member, inside⟩)
  · rintro rfl
    refine List.flatMap_congr fun c member => capitalizes c (.inr fun x inside => ?_)
    exact typed x (List.mem_flatMap.mpr ⟨c, member, inside⟩)

/-- The type of a property is in capitals as it is. -/
theorem upperType_columnType (p : Property) : upperType upper p.columnType = p.columnType.toList := by
  have typed := p.isTypeChar_columnType
  have plain : p.columnType.toList.flatMap capitals = p.columnType.toList := by
    rw [List.flatMap_congr fun c member => (typed c member).capitals_eq, List.flatMap_singleton']
  rw [upperType, List.filter_eq_self.mpr fun c member => by simp [(typed c member).isBlank_eq]]
  exact (capitalizes.flatMap_eq_iff typed).mpr plain

/-- A type is that of a property in all capitals or in none. -/
theorem upperType_eq_iff {type : String} {p : Property} :
    upperType upper type = upperType upper p.columnType ↔
      normalType type = normalType p.columnType := by
  have known := capitalizes_capitals.upperType_columnType p
  change _ ↔ _ = upperType capitals p.columnType
  rw [capitalizes.upperType_columnType, known]
  exact capitalizes.flatMap_eq_iff p.isTypeChar_columnType

end Capitalizes

/-! ## Distinct names -/

/-- The parts of the elements of a list, where each has at most the one that it may have. -/
theorem sublist_flatMap_map {α β : Type} {f : α → List β} {g : α → β}
    (each : ∀ a, (f a).Sublist [g a]) (items : List α) :
    (items.flatMap f).Sublist (items.map g) := by
  induction items with
  | nil => exact List.Sublist.refl _
  | cons a items ih => exact (each a).append ih

/-- Where names are distinct, an element is found by its own. -/
theorem find?_of_mem {α : Type} {key : α → String} {items : List α}
    (distinct : (items.map key).Nodup) {a : α} (member : a ∈ items) :
    items.find? (fun b => key b == key a) = some a := by
  induction items with
  | nil => cases member
  | cons b items ih =>
    obtain ⟨new, distinct⟩ := List.nodup_cons.mp distinct
    rcases List.mem_cons.mp member with rfl | later
    · simp
    · have differ : key b ≠ key a := fun same => new (same ▸ List.mem_map_of_mem later)
      rw [List.find?_cons_of_neg (by simpa using differ), ih distinct later]

theorem find?_eq_some_iff {α : Type} {key : α → String} {items : List α}
    (distinct : (items.map key).Nodup) {a : α} {name : String} :
    items.find? (fun b => key b == name) = some a ↔ a ∈ items ∧ key a = name := by
  constructor
  · intro found
    exact ⟨List.mem_of_find?_eq_some found, by simpa using List.find?_some found⟩
  · rintro ⟨member, rfl⟩
    exact find?_of_mem distinct member

namespace Model

variable {m : Model} {p q : Property} {name : String}

theorem declared_unique (one : (name, p) ∈ m.columns) (other : (name, q) ∈ m.columns) : p = q :=
  Option.some.inj ((mem_columns.mp one).1.symm.trans (mem_columns.mp other).1)

theorem indexNames_distinct (m : Model) :
    (m.columns.map fun entry => m.indexName entry.1).Nodup := by
  have names := m.columns_distinct.map m.indexName_injective
  rwa [List.map_map] at names

theorem keeps_of_declared (declared : (name, p) ∈ m.columns) : m.keeps name :=
  keeps_iff.mpr (.inr ⟨p, declared⟩)

/-- The columns that do not stay are neither the key nor declared. -/
theorem keeps_eq_false : m.keeps name = false ↔ name ≠ idName ∧ m.get? name = none := by
  simp [keeps]

/-! ## What a property asks for -/

/-- Each declared index is dropped once at most, and created once at most. -/
theorem indexChanges_sublist (indexes : List LiveIndex) (isDrop : Bool)
    (entry : String × Property) :
    (((m.indexChanges indexes entry.1 entry.2).filter (·.isDrop == isDrop)).map
      IndexChange.name).Sublist [m.indexName entry.1] := by
  unfold indexChanges
  cases isDrop <;> cases entry.2.wantsIndex <;>
    cases findIndex? indexes (m.indexName entry.1) with
  | none => simp [createIndex, IndexChange.isDrop, IndexChange.name]
  | some index =>
    by_cases same : index.unique = entry.2.unique <;>
      simp [createIndex, IndexChange.isDrop, IndexChange.name, same]

theorem columnChange?_sublist (columns : List LiveColumn) (entry : String × Property) :
    ((columnChange? columns entry.1 entry.2).toList.map ColumnChange.name).Sublist [entry.1] := by
  unfold columnChange?
  cases findColumn? columns entry.1 with
  | none => simp [ColumnChange.name]
  | some column => cases column.differs entry.2 <;> simp [ColumnChange.name]

/-- A declared column is added if it is missing, and altered if it differs. -/
theorem columnChange?_eq_some {columns : List LiveColumn} {change : ColumnChange} :
    columnChange? columns name p = some change ↔
      (change = .add name p ∧ name ∉ columns.map LiveColumn.name) ∨
      (change = .change name p ∧
        ∃ column, findColumn? columns name = some column ∧ column.differs p) := by
  unfold columnChange?
  cases found : findColumn? columns name with
  | none =>
    have absent : name ∉ columns.map LiveColumn.name := by
      simpa [eq_comm] using findColumn?_eq_none.mp found
    rw [Option.some.injEq, eq_comm]
    simp [absent]
  | some column =>
    have present : name ∈ columns.map LiveColumn.name :=
      List.mem_map.mpr ⟨column, List.mem_of_find?_eq_some found, findColumn?_name found⟩
    simp only [present, not_true_eq_false, and_false, false_or, Option.some.injEq,
      Option.ite_none_right_eq_some, exists_eq_left']
    rw [and_comm, eq_comm]

theorem mem_creation_indexes {change : IndexChange} : change ∈ m.creation.indexes ↔
    ∃ entry ∈ m.columns, entry.2.wantsIndex ∧ change = m.createIndex entry.1 entry.2 := by
  rw [creation, List.mem_map]
  simp only [List.mem_filter, and_assoc, eq_comm]

theorem named_creation (m : Model) :
    ∀ change ∈ m.creation.indexes, ∃ property, change.name = m.indexName property := by
  intro change member
  obtain ⟨entry, _, _, rfl⟩ := mem_creation_indexes.mp member
  exact ⟨entry.1, rfl⟩

/-- All indexes of a diff are named after the model. -/
theorem named_reconcile (m : Model) (columns : List LiveColumn) (indexes : List LiveIndex) :
    ∀ change ∈ (m.reconcile columns indexes).indexes,
      ∃ property, change.name = m.indexName property := by
  by_cases empty : columns = []
  · rw [empty, reconcile_nil]
    exact named_creation m
  · intro change member
    rw [reconcile_of_ne_nil empty, List.mem_append] at member
    rcases member with declared | dropped
    · obtain ⟨entry, _, own⟩ := List.mem_flatMap.mp declared
      exact ⟨entry.1, indexChanges_name indexes entry change own⟩
    · obtain ⟨index, orphaned, rfl⟩ := List.mem_map.mp dropped
      obtain ⟨column, _, name, _⟩ := isOrphan_iff.mp (List.mem_filter.mp orphaned).2
      exact ⟨column.name, name⟩

/-! ## What is reported -/

section Reconciled

variable {columns : List LiveColumn} (nonempty : columns ≠ []) {indexes : List LiveIndex}

include nonempty

theorem add_mem_reconcile : .add name p ∈ (m.reconcile columns indexes).columns ↔
    (name, p) ∈ m.columns ∧ name ∉ columns.map LiveColumn.name := by
  rw [mem_reconcile_columns nonempty]
  simp only [columnChange?_eq_some, Prod.exists]
  grind

theorem change_mem_reconcile : .change name p ∈ (m.reconcile columns indexes).columns ↔
    (name, p) ∈ m.columns ∧
      ∃ column, findColumn? columns name = some column ∧ column.differs p := by
  rw [mem_reconcile_columns nonempty]
  simp only [columnChange?_eq_some, Prod.exists]
  grind

theorem drop_mem_reconcile : .drop name ∈ (m.reconcile columns indexes).columns ↔
    name ∈ columns.map LiveColumn.name ∧ m.keeps name = false := by
  rw [mem_reconcile_columns nonempty]
  simp only [columnChange?_eq_some, Prod.exists]
  grind

theorem mem_reconcile_retained : name ∈ (m.reconcile columns indexes).retained ↔
    name ∈ columns.map LiveColumn.name ∧ m.keeps name := by
  rw [reconcile_of_ne_nil nonempty, List.mem_filter]

/-- An index change is one that a declared property asks for, or drops the index of a column that
does not stay. -/
theorem mem_reconcile_indexes {change : IndexChange} :
    change ∈ (m.reconcile columns indexes).indexes ↔
      (∃ entry ∈ m.columns, change ∈ m.indexChanges indexes entry.1 entry.2) ∨
      ∃ index ∈ indexes, m.isOrphan columns index ∧ change = .drop index.name := by
  rw [reconcile_of_ne_nil nonempty, List.mem_append, List.mem_flatMap, List.mem_map]
  simp only [List.mem_filter, and_assoc, eq_comm]

/-- No column is changed twice. -/
theorem reconcile_columns_once (distinct : (columns.map LiveColumn.name).Nodup) :
    ((m.reconcile columns indexes).columns.map ColumnChange.name).Nodup := by
  rw [reconcile_of_ne_nil nonempty, List.map_append, List.map_flatMap]
  have declared := sublist_flatMap_map (columnChange?_sublist columns) m.columns
  have dropped : (((columns.map LiveColumn.name).filter fun name => !m.keeps name).map
      ColumnChange.drop).map ColumnChange.name =
        (columns.map LiveColumn.name).filter fun name => !m.keeps name := by
    rw [List.map_map]
    exact List.map_id _
  rw [dropped]
  apply (m.columns_distinct.sublist declared).append (distinct.filter _)
  intro name first second
  obtain ⟨entry, inside, rfl⟩ := List.mem_map.mp (declared.subset first)
  have gone := (List.mem_filter.mp second).2
  rw [keeps_of_declared inside] at gone
  cases gone

/-- No index is dropped twice. -/
theorem reconcile_drops_once (distinct : (indexes.map LiveIndex.name).Nodup) :
    (((m.reconcile columns indexes).indexes.filter IndexChange.isDrop).map
      IndexChange.name).Nodup := by
  rw [reconcile_of_ne_nil nonempty, List.filter_append, List.map_append, List.filter_flatMap,
    List.map_flatMap]
  have declared := sublist_flatMap_map (m.indexChanges_sublist indexes true) m.columns
  simp only [beq_true] at declared
  have orphaned : (((indexes.filter (m.isOrphan columns)).map
      fun index => IndexChange.drop index.name).filter IndexChange.isDrop).map IndexChange.name =
        (indexes.filter (m.isOrphan columns)).map LiveIndex.name := by
    rw [List.filter_eq_self.mpr, List.map_map]
    · rfl
    · intro change member
      obtain ⟨index, _, rfl⟩ := List.mem_map.mp member
      rfl
  rw [orphaned]
  apply (m.indexNames_distinct.sublist declared).append
    (distinct.sublist (List.filter_sublist.map _))
  intro name first second
  obtain ⟨entry, inside, rfl⟩ := List.mem_map.mp (declared.subset first)
  obtain ⟨index, orphan, same⟩ := List.mem_map.mp second
  obtain ⟨column, _, sameName, gone⟩ := isOrphan_iff.mp (List.mem_filter.mp orphan).2
  rw [← m.indexName_injective (same.symm.trans sameName), keeps_of_declared inside] at gone
  cases gone

/-- No index is created twice. -/
theorem reconcile_creates_once :
    (((m.reconcile columns indexes).indexes.filter (!·.isDrop)).map IndexChange.name).Nodup := by
  rw [reconcile_of_ne_nil nonempty, List.filter_append, List.map_append, List.filter_flatMap,
    List.map_flatMap]
  have declared := sublist_flatMap_map (m.indexChanges_sublist indexes false) m.columns
  simp only [beq_false] at declared
  have none_orphaned : ((indexes.filter (m.isOrphan columns)).map
      fun index => IndexChange.drop index.name).filter (!·.isDrop) = [] := by
    rw [List.filter_eq_nil_iff]
    intro change member
    obtain ⟨index, _, rfl⟩ := List.mem_map.mp member
    simp [IndexChange.isDrop]
  rw [none_orphaned, List.map_nil, List.append_nil]
  exact m.indexNames_distinct.sublist declared

end Reconciled

end Model

/-! ## Exact reports -/

/-- What is said of columns: which declared ones there are not, which are there but differ, and which
of those there are do not stay. Types are compared in capitals and without blanks. -/
structure TableDiff.ReportsColumns (upper : Char → List Char) (m : Model)
    (columns : List LiveColumn) (diff : TableDiff) : Prop where
  present : diff.createTable = false
  added : ∀ name p, .add name p ∈ diff.columns ↔
    (name, p) ∈ m.columns ∧ name ∉ columns.map LiveColumn.name
  changed : ∀ name p, .change name p ∈ diff.columns ↔ (name, p) ∈ m.columns ∧
    ∃ column ∈ columns, column.name = name ∧ (column.nullable ≠ p.nullable ∨
      upperType upper column.type ≠ upperType upper p.columnType)
  dropped : ∀ name, .drop name ∈ diff.columns ↔
    name ∈ columns.map LiveColumn.name ∧ name ≠ idName ∧ m.get? name = none
  /-- A declared column is not changed in any other way. -/
  declared : ∀ name p, (name, p) ∈ m.columns → ∀ change ∈ diff.columns, change.name = name →
    change = .add name p ∨ change = .change name p
  parted : ∀ column ∈ columns,
    Xor (column.name ∈ diff.retained) (.drop column.name ∈ diff.columns)
  kept : ∀ name p, .change name p ∈ diff.columns → name ∈ diff.retained
  retained_ordered : diff.retained.Sublist (columns.map LiveColumn.name)
  /-- Declared columns come first, in their order, and then those that do not stay, in theirs. -/
  ordered : ∃ (asked : List ColumnChange) (gone : List String),
    diff.columns = asked ++ gone.map ColumnChange.drop ∧ (∀ name, .drop name ∉ asked) ∧
      (asked.map ColumnChange.name).Sublist (m.columns.map Prod.fst) ∧
      gone.Sublist (columns.map LiveColumn.name)
  once : (diff.columns.map ColumnChange.name).Nodup

/-- What is said of indexes: which belong to a declared column that does not want them as they are or
to a column that does not stay, and which are wanted but not there. -/
structure TableDiff.ReportsIndexes (m : Model) (columns : List LiveColumn)
    (indexes : List LiveIndex) (diff : TableDiff) : Prop where
  dropped : ∀ name, .drop name ∈ diff.indexes ↔ ∃ index ∈ indexes, index.name = name ∧
    ((∃ entry ∈ m.columns, name = m.indexName entry.1 ∧
        (entry.2.wantsIndex = false ∨ index.unique ≠ entry.2.unique)) ∨
      ∃ column ∈ columns, name = m.indexName column.name ∧
        column.name ≠ idName ∧ m.get? column.name = none)
  created : ∀ name column unique, .create name column unique ∈ diff.indexes ↔
    ∃ p, (column, p) ∈ m.columns ∧ p.wantsIndex ∧ name = m.indexName column ∧ unique = p.unique ∧
      ∀ index ∈ indexes, index.name = name → index.unique ≠ p.unique
  /-- An index that is replaced is dropped before it is created. -/
  replaced : ∀ name column unique, .drop name ∈ diff.indexes →
    .create name column unique ∈ diff.indexes →
      [.drop name, .create name column unique].Sublist diff.indexes
  drops_once : ((diff.indexes.filter IndexChange.isDrop).map IndexChange.name).Nodup
  creates_once : ((diff.indexes.filter (!·.isDrop)).map IndexChange.name).Nodup

namespace Model

variable {m : Model} {columns : List LiveColumn} {indexes : List LiveIndex}

theorem differs_iff {upper : Char → List Char} (capitalizes : Capitalizes upper)
    {column : LiveColumn} {p : Property} : column.differs p ↔
      column.nullable ≠ p.nullable ∨
        upperType upper column.type ≠ upperType upper p.columnType := by
  simp [LiveColumn.differs, capitalizes.upperType_eq_iff]

theorem reconcile_reports_columns {upper : Char → List Char} (capitalizes : Capitalizes upper)
    (nonempty : columns ≠ []) (distinct : (columns.map LiveColumn.name).Nodup) :
    (m.reconcile columns indexes).ReportsColumns upper m columns where
  present := by rw [reconcile_of_ne_nil nonempty]
  added name p := add_mem_reconcile nonempty
  changed name p := by
    rw [change_mem_reconcile nonempty]
    simp only [findColumn?, find?_eq_some_iff distinct, differs_iff capitalizes, and_assoc]
  dropped name := by rw [drop_mem_reconcile nonempty, keeps_eq_false]
  declared name p declared change member same := by
    rcases (mem_reconcile_columns nonempty indexes).mp member with
      ⟨entry, inside, asked⟩ | ⟨column, _, gone, rfl⟩
    · have named := columnChange?_name columns entry change (Option.mem_toList.mpr asked)
      obtain ⟨other, q⟩ := entry
      obtain rfl : other = name := named.symm.trans same
      obtain rfl := declared_unique declared inside
      exact (columnChange?_eq_some.mp asked).imp And.left And.left
    · rw [← same, ColumnChange.name] at declared
      rw [keeps_of_declared declared] at gone
      cases gone
  parted column member := by
    have present : column.name ∈ columns.map LiveColumn.name := List.mem_map_of_mem member
    rw [mem_reconcile_retained nonempty, drop_mem_reconcile nonempty]
    cases m.keeps column.name <;> simp [present, Xor]
  kept name p member := by
    obtain ⟨declared, column, found, _⟩ := (change_mem_reconcile nonempty).mp member
    have present := List.mem_map_of_mem (f := LiveColumn.name) (List.mem_of_find?_eq_some found)
    rw [findColumn?_name found] at present
    exact (mem_reconcile_retained nonempty).mpr ⟨present, keeps_of_declared declared⟩
  retained_ordered := by
    rw [reconcile_of_ne_nil nonempty]
    exact List.filter_sublist
  ordered := by
    rw [reconcile_of_ne_nil nonempty]
    refine ⟨_, _, rfl, ?_, ?_, List.filter_sublist⟩
    · intro name dropped
      obtain ⟨entry, _, asked⟩ := List.mem_flatMap.mp dropped
      obtain ⟨other, _⟩ | ⟨other, _⟩ := columnChange?_eq_some.mp (Option.mem_toList.mp asked) <;>
        cases other
    · rw [List.map_flatMap]
      exact sublist_flatMap_map (columnChange?_sublist columns) m.columns
  once := reconcile_columns_once nonempty distinct

section Indexes

variable (nonempty : columns ≠ []) (distinct : (indexes.map LiveIndex.name).Nodup)

include nonempty distinct

theorem drop_index_mem_reconcile {name : String} :
    .drop name ∈ (m.reconcile columns indexes).indexes ↔ ∃ index ∈ indexes, index.name = name ∧
      ((∃ entry ∈ m.columns, name = m.indexName entry.1 ∧
          (entry.2.wantsIndex = false ∨ index.unique ≠ entry.2.unique)) ∨
        ∃ column ∈ columns, name = m.indexName column.name ∧
          column.name ≠ idName ∧ m.get? column.name = none) := by
  have unwanted {p : Property} {index : LiveIndex} : ¬ (p.wantsIndex ∧ index.unique = p.unique) ↔
      p.wantsIndex = false ∨ index.unique ≠ p.unique := by
    rw [Classical.not_and_iff_not_or_not, Bool.not_eq_true]
  rw [mem_reconcile_indexes nonempty]
  simp only [mem_indexChanges, unwanted, findIndex?, find?_eq_some_iff distinct, isOrphan_iff,
    keeps_eq_false]
  constructor
  · rintro (⟨entry, declared, ⟨same, index, ⟨member, named⟩, other⟩ | ⟨created, _⟩⟩ |
      ⟨index, member, orphan, same⟩)
    · cases same
      exact ⟨index, member, named, .inl ⟨entry, declared, rfl, other⟩⟩
    · cases created
    · cases same
      exact ⟨index, member, rfl, .inr orphan⟩
  · rintro ⟨index, member, rfl, ⟨entry, declared, named, other⟩ | orphan⟩
    · exact .inl ⟨entry, declared, .inl ⟨by rw [named], index, ⟨member, named⟩, other⟩⟩
    · exact .inr ⟨index, member, orphan, rfl⟩

theorem create_index_mem_reconcile {name column : String} {unique : Bool} :
    .create name column unique ∈ (m.reconcile columns indexes).indexes ↔
      ∃ p, (column, p) ∈ m.columns ∧ p.wantsIndex ∧ name = m.indexName column ∧
        unique = p.unique ∧ ∀ index ∈ indexes, index.name = name → index.unique ≠ p.unique := by
  rw [mem_reconcile_indexes nonempty]
  simp only [mem_indexChanges, findIndex?, find?_eq_some_iff distinct, and_imp]
  constructor
  · rintro (⟨⟨column, p⟩, declared, ⟨dropped, _⟩ | ⟨same, wanted, absent⟩⟩ | ⟨_, _, _, dropped⟩)
    · cases dropped
    · cases same
      exact ⟨p, declared, wanted, rfl, rfl, absent⟩
    · cases dropped
  · rintro ⟨p, declared, wanted, rfl, rfl, absent⟩
    exact .inl ⟨(column, p), declared, .inr ⟨rfl, wanted, absent⟩⟩

/-- An index that is dropped and created is a declared one, and it is dropped first. -/
theorem replaced_reconcile {name column : String} {unique : Bool}
    (dropped : .drop name ∈ (m.reconcile columns indexes).indexes)
    (created : .create name column unique ∈ (m.reconcile columns indexes).indexes) :
    [.drop name, .create name column unique].Sublist (m.reconcile columns indexes).indexes := by
  obtain ⟨p, declared, _, rfl, _⟩ := (create_index_mem_reconcile nonempty distinct).mp created
  have own := reconcile_indexes_declared (t := ⟨columns, indexes⟩) (absurd · nonempty) declared
  dsimp only at own
  have both (change : IndexChange) (member : change ∈ (m.reconcile columns indexes).indexes)
      (named : change.name = m.indexName column) : change ∈ m.indexChanges indexes column p :=
    own ▸ List.mem_filter.mpr ⟨member, decide_eq_true named⟩
  have drop := both _ dropped rfl
  have create := both _ created rfl
  have pair : m.indexChanges indexes column p =
      [.drop (m.indexName column), .create (m.indexName column) column unique] := by
    unfold indexChanges at drop create ⊢
    grind [createIndex]
  rw [← pair, ← own]
  exact List.filter_sublist

theorem reconcile_reports_indexes :
    (m.reconcile columns indexes).ReportsIndexes m columns indexes where
  dropped _ := drop_index_mem_reconcile nonempty distinct
  created _ _ _ := create_index_mem_reconcile nonempty distinct
  replaced _ _ _ := replaced_reconcile nonempty distinct
  drops_once := reconcile_drops_once nonempty distinct
  creates_once := reconcile_creates_once nonempty

end Indexes

/-- A diff of a table that there is reports exactly what separates it from the model. -/
theorem reconcile_reports_exactly {upper : Char → List Char} (capitalizes : Capitalizes upper)
    (m : Model) (columns : List LiveColumn) (indexes : List LiveIndex) (nonempty : columns ≠ [])
    (columnsDistinct : (columns.map LiveColumn.name).Nodup)
    (indexesDistinct : (indexes.map LiveIndex.name).Nodup) :
    (m.reconcile columns indexes).ReportsColumns upper m columns ∧
      (m.reconcile columns indexes).ReportsIndexes m columns indexes :=
  ⟨reconcile_reports_columns capitalizes nonempty columnsDistinct,
    reconcile_reports_indexes nonempty indexesDistinct⟩

/-- A column of each kind, with indexes that are replaced, no longer wanted, orphaned and not named
after the model, and a type that differs in blanks and case only. -/
theorem reconcile_reports_exactly_mixed :
    let m := (((Model.ofName "User").define "name" Property.string.withUnique).define "age"
      Property.number).define "email" Property.text.notNull
    let columns : List LiveColumn :=
      [⟨"id", "INTEGER", false, true⟩, ⟨"legacy", "TEXT", true, false⟩,
        ⟨"name", " varchar( 255 )", true, false⟩, ⟨"age", "TEXT", true, false⟩]
    let indexes : List LiveIndex :=
      [⟨"by_name", true⟩, ⟨"User_name", false⟩, ⟨"User_legacy", false⟩, ⟨"User_age", true⟩,
        ⟨"User_id", true⟩]
    let diff := m.reconcile columns indexes
    .add "email" Property.text.notNull ∈ diff.columns ∧
      .change "age" Property.number ∈ diff.columns ∧
      .change "name" Property.string.withUnique ∉ diff.columns ∧ .drop "legacy" ∈ diff.columns ∧
      .drop "id" ∉ diff.columns ∧ .drop "User_age" ∈ diff.indexes ∧
      .drop "User_legacy" ∈ diff.indexes ∧ .drop "by_name" ∉ diff.indexes ∧
      .drop "User_id" ∉ diff.indexes ∧
      [.drop "User_name", .create "User_name" "name" true].Sublist diff.indexes := by
  intro m columns indexes diff
  obtain ⟨ofColumns, ofIndexes⟩ := reconcile_reports_exactly capitalizes_capitals m columns indexes
    (List.cons_ne_nil _ _) (by decide) (by decide)
  refine ⟨(ofColumns.added _ _).mpr (by decide), (ofColumns.changed _ _).mpr (by decide +kernel),
    mt (ofColumns.changed _ _).mp (by decide +kernel), (ofColumns.dropped _).mpr (by decide),
    mt (ofColumns.dropped _).mp (by decide), (ofIndexes.dropped _).mpr (by decide +kernel),
    (ofIndexes.dropped _).mpr (by decide +kernel), mt (ofIndexes.dropped _).mp (by decide +kernel),
    mt (ofIndexes.dropped _).mp (by decide +kernel),
    ofIndexes.replaced _ _ _ ((ofIndexes.dropped _).mpr (by decide +kernel)) ?_⟩
  exact (ofIndexes.created _ _ _).mpr ⟨Property.string.withUnique, by decide +kernel⟩

end Model

end SqlMapper
