import SqlMapper.Proofs.Schema.Creation
import SqlMapper.Proofs.Schema.Rebuild

/-! # What is changed for a model

The definitions of a diff create, drop and rename the table of the model, the shadow table that
takes its place, and indexes that are named after the model. These names are put together from the
names of the model, of its table and of its properties, so another model can have one of them.
`Model.Clash` lists the ways: two index names of different models are the same exactly if the name
of one model goes on where that of the other ends. A script keeps the tables that it is not about,
with all indexes but those whose names it changes.
-/

namespace SqlMapper

/-! ## Names put together -/

/-- Texts with a separator are the same from different starts exactly if one start goes on with the
separator. -/
theorem Text.append_cons_eq_append_cons {a b p q : List Char} {c : Char} (differ : a ≠ b) :
    a ++ c :: p = b ++ c :: q ↔
      (∃ rest, b = a ++ c :: rest ∧ p = rest ++ c :: q) ∨
        ∃ rest, a = b ++ c :: rest ∧ q = rest ++ c :: p := by
  rw [List.append_eq_append_iff]
  constructor
  · rintro (⟨more, longer, same⟩ | ⟨more, longer, same⟩)
    · cases more with
      | nil => exact absurd (longer.trans (List.append_nil a)).symm differ
      | cons first rest =>
        obtain ⟨rfl, rfl⟩ := List.cons.inj same
        exact .inl ⟨rest, longer, rfl⟩
    · cases more with
      | nil => exact absurd (longer.trans (List.append_nil b)) differ
      | cons first rest =>
        obtain ⟨rfl, rfl⟩ := List.cons.inj same
        exact .inr ⟨rest, longer, rfl⟩
  · rintro (⟨rest, longer, rfl⟩ | ⟨rest, longer, rfl⟩)
    · exact .inl ⟨c :: rest, longer, rfl⟩
    · exact .inr ⟨c :: rest, longer, rfl⟩

theorem Model.toList_indexName (m : Model) (property : String) :
    (m.indexName property).toList = m.name.toList ++ '_' :: property.toList := by
  simp [indexName]

/-- Index names of different models are the same exactly if the name of one model goes on like an
index name of the other one, and the properties make up for it. -/
theorem Model.indexName_eq_iff {m other : Model} (differ : m.name ≠ other.name) {p q : String} :
    m.indexName p = other.indexName q ↔
      (∃ rest, other.name = m.indexName rest ∧ p = rest ++ "_" ++ q) ∨
        ∃ rest, m.name = other.indexName rest ∧ q = rest ++ "_" ++ p := by
  have starts : m.name.toList ≠ other.name.toList := fun same => differ (String.toList_inj.mp same)
  have split {a b : Model} {p q : String} :
      (∃ rest, b.name.toList = a.name.toList ++ '_' :: rest ∧ p.toList = rest ++ '_' :: q.toList) ↔
        ∃ rest, b.name = a.indexName rest ∧ p = rest ++ "_" ++ q := by
    constructor
    · rintro ⟨rest, longer, text⟩
      refine ⟨String.ofList rest, ?_, ?_⟩
      · rw [← String.toList_inj, toList_indexName, String.toList_ofList, longer]
      · rw [← String.toList_inj, text]
        simp
    · rintro ⟨rest, longer, rfl⟩
      refine ⟨rest.toList, ?_, ?_⟩
      · rw [longer, toList_indexName]
      · simp
  rw [← String.toList_inj, toList_indexName, toList_indexName,
    Text.append_cons_eq_append_cons starts, split, split]

/-! ## Tables and indexes -/

/-- A table or an index, by its name. -/
inductive SchemaItem
  | table (name : String)
  | index (name : String)
  deriving DecidableEq, Repr

def SchemaItem.name : SchemaItem → String
  | .table name => name
  | .index name => name

namespace Command

/-- What a renaming takes from one name to another. -/
def renamed (table : String) : Action → List SchemaItem
  | .rename target => [.table table, .table target]
  | _ => []

/-- What a renaming takes the table to. -/
def target? : Action → Option String
  | .rename target => some target
  | _ => none

/-- What a command creates, drops or renames. -/
def changed : Command → List SchemaItem
  | .createTable table _ => [.table table]
  | .dropTable table _ => [.table table]
  | .alterTable table actions => actions.flatMap (renamed table)
  | .createIndex _ name _ _ => [.index name]
  | .dropIndex _ name => [.index name]
  | .copyRows .. => []

/-- The tables that a command makes, removes, alters or fills, or that it names for an index. -/
def tables : Command → List String
  | .createTable table _ => [table]
  | .dropTable table _ => [table]
  | .alterTable table actions => table :: actions.filterMap target?
  | .createIndex table _ _ _ => [table]
  | .dropIndex table _ => table.toList
  | .copyRows _ target _ _ => [target]

end Command

namespace Model

/-- Whether a property is declared with an index. -/
def IsIndexed (m : Model) (property : String) : Prop :=
  ∃ p, (property, p) ∈ m.columns ∧ p.wantsIndex

/-- The table of a model and its declared indexes. -/
def owned (m : Model) : List SchemaItem :=
  .table m.tableName ::
    (m.columns.filter (·.2.wantsIndex)).map fun entry => .index (m.indexName entry.1)

/-- What may be changed for a model. -/
inductive Touches (m : Model) : SchemaItem → Prop
  | table : Touches m (.table m.tableName)
  | shadow : Touches m (.table (TableDiff.shadowName m.tableName))
  | index (property : String) : Touches m (.index (m.indexName property))

/-- The ways in which what is changed for one model is something that another one owns. -/
inductive Clash (m other : Model) (x : SchemaItem) : Prop
  /-- The other table is named like the shadow table. -/
  | shadow (item : x = .table (TableDiff.shadowName m.tableName))
      (same : other.tableName = TableDiff.shadowName m.tableName)
  /-- The name of the other model goes on like an index name of this one. -/
  | longer {rest q : String} (item : x = .index (m.indexName (rest ++ "_" ++ q)))
      (indexed : other.IsIndexed q) (longer : other.name = m.indexName rest)
  /-- The name of this model goes on like an index name of the other one. -/
  | shorter {rest p : String} (item : x = .index (m.indexName p))
      (indexed : other.IsIndexed (rest ++ "_" ++ p)) (longer : m.name = other.indexName rest)

/-- The ways in which a table and an index have the same name, one of them changed for one model and
the other one owned by another model. -/
inductive Homonym (m other : Model) (x : SchemaItem) : Prop
  | table {q : String} (item : x = .table m.tableName) (indexed : other.IsIndexed q)
      (same : other.indexName q = m.tableName)
  | shadow {q : String} (item : x = .table (TableDiff.shadowName m.tableName))
      (indexed : other.IsIndexed q) (same : other.indexName q = TableDiff.shadowName m.tableName)
  | index {p : String} (item : x = .index (m.indexName p)) (same : other.tableName = m.indexName p)

variable {m other : Model} {x : SchemaItem}

theorem mem_owned : x ∈ m.owned ↔
    x = .table m.tableName ∨
      ∃ property, m.IsIndexed property ∧ x = .index (m.indexName property) := by
  rw [owned, List.mem_cons, List.mem_map]
  refine or_congr Iff.rfl ?_
  constructor
  · rintro ⟨entry, declared, rfl⟩
    obtain ⟨declared, wanted⟩ := List.mem_filter.mp declared
    exact ⟨entry.1, ⟨entry.2, declared, wanted⟩, rfl⟩
  · rintro ⟨property, ⟨p, declared, wanted⟩, rfl⟩
    exact ⟨(property, p), List.mem_filter.mpr ⟨declared, wanted⟩, rfl⟩

theorem name_mem_owned {name : String} : name ∈ m.owned.map SchemaItem.name ↔
    name = m.tableName ∨ ∃ property, m.IsIndexed property ∧ name = m.indexName property := by
  rw [List.mem_map]
  constructor
  · rintro ⟨x, own, rfl⟩
    rcases mem_owned.mp own with rfl | ⟨property, indexed, rfl⟩
    · exact .inl rfl
    · exact .inr ⟨property, indexed, rfl⟩
  · rintro (rfl | ⟨property, indexed, rfl⟩)
    · exact ⟨_, mem_owned.mpr (.inl rfl), rfl⟩
    · exact ⟨_, mem_owned.mpr (.inr ⟨property, indexed, rfl⟩), rfl⟩

section Other

variable (touches : m.Touches x) (names : m.name ≠ other.name)
  (tables : m.tableName ≠ other.tableName)

include names

theorem Clash.mem_owned (clash : m.Clash other x) : x ∈ other.owned := by
  cases clash with
  | shadow item same => exact Model.mem_owned.mpr (.inl (by rw [item, same]))
  | @longer rest q item indexed longer =>
    have same : m.indexName (rest ++ "_" ++ q) = other.indexName q :=
      (indexName_eq_iff names).mpr (.inl ⟨rest, longer, rfl⟩)
    exact Model.mem_owned.mpr (.inr ⟨q, indexed, by rw [item, same]⟩)
  | @shorter rest p item indexed longer =>
    have same : m.indexName p = other.indexName (rest ++ "_" ++ p) :=
      (indexName_eq_iff names).mpr (.inr ⟨rest, longer, rfl⟩)
    exact Model.mem_owned.mpr (.inr ⟨_, indexed, by rw [item, same]⟩)

/-- Index names of different models are the same only by a clash. -/
theorem clash_of_index {p q : String} (indexed : other.IsIndexed q)
    (same : m.indexName p = other.indexName q) : m.Clash other (.index (m.indexName p)) := by
  rcases (indexName_eq_iff names).mp same with ⟨rest, longer, rfl⟩ | ⟨rest, longer, rfl⟩
  · exact .longer rfl indexed longer
  · exact .shorter rfl indexed longer

include touches tables

/-- What is changed for one model is owned by another one exactly if there is a clash. -/
theorem Touches.mem_owned : x ∈ other.owned ↔ m.Clash other x := by
  refine ⟨fun owned => ?_, Clash.mem_owned names⟩
  cases touches with
  | table =>
    rcases Model.mem_owned.mp owned with same | ⟨q, _, same⟩
    · exact absurd (SchemaItem.table.inj same) tables
    · cases same
  | shadow =>
    rcases Model.mem_owned.mp owned with same | ⟨q, _, same⟩
    · exact .shadow rfl (SchemaItem.table.inj same).symm
    · cases same
  | index p =>
    rcases Model.mem_owned.mp owned with same | ⟨q, indexed, same⟩
    · cases same
    · exact clash_of_index names indexed (SchemaItem.index.inj same)

/-- The names alone are the same where there is a clash or a homonym. -/
theorem Touches.name_mem_owned :
    x.name ∈ other.owned.map SchemaItem.name ↔ m.Clash other x ∨ m.Homonym other x := by
  constructor
  · intro owned
    rw [Model.name_mem_owned] at owned
    cases touches with
    | table =>
      rcases owned with same | ⟨q, indexed, same⟩
      · exact absurd same tables
      · exact .inr (.table rfl indexed same.symm)
    | shadow =>
      rcases owned with same | ⟨q, indexed, same⟩
      · exact .inl (.shadow rfl same.symm)
      · exact .inr (.shadow rfl indexed same.symm)
    | index p =>
      rcases owned with same | ⟨q, indexed, same⟩
      · exact .inr (.index rfl same.symm)
      · exact .inl (clash_of_index names indexed same)
  · rintro (clash | homonym)
    · exact List.mem_map_of_mem (clash.mem_owned names)
    · rw [Model.name_mem_owned]
      cases homonym with
      | table item indexed same => exact .inr ⟨_, indexed, by rw [item, same]; rfl⟩
      | shadow item indexed same => exact .inr ⟨_, indexed, by rw [item, same]; rfl⟩
      | index item same => exact .inl (by rw [item, same]; rfl)

end Other

end Model

/-! ## Scripts for a model -/

/-- A script for a model is about its table and, if it makes one, about the shadow table, and
changes nothing but what may be changed for the model. -/
structure Model.Footprint (m : Model) (script : List Command) : Prop where
  changed : ∀ x ∈ script.flatMap Command.changed, m.Touches x
  tables : ∀ table ∈ script.flatMap Command.tables, table = m.tableName ∨
    table = TableDiff.shadowName m.tableName ∧ .table table ∈ script.flatMap Command.changed

namespace Model.Footprint

variable {d : Dialect} {m : Model} {diff : TableDiff} {front back script : List Command}

theorem nil : m.Footprint [] where
  changed := List.forall_mem_nil _
  tables := List.forall_mem_nil _

theorem append (first : m.Footprint front) (second : m.Footprint back) :
    m.Footprint (front ++ back) where
  changed := by
    rw [List.flatMap_append, List.forall_mem_append]
    exact ⟨first.changed, second.changed⟩
  tables := by
    simp only [List.flatMap_append, List.mem_append]
    rintro table (member | member)
    · exact (first.tables table member).imp_right (And.imp_right .inl)
    · exact (second.tables table member).imp_right (And.imp_right .inr)

/-- What is only about the table of the model. -/
theorem of_own (changed : ∀ command ∈ script, ∀ x ∈ command.changed, m.Touches x)
    (tables : ∀ command ∈ script, ∀ table ∈ command.tables, table = m.tableName) :
    m.Footprint script where
  changed x member := by
    obtain ⟨command, inside, own⟩ := List.mem_flatMap.mp member
    exact changed command inside x own
  tables table member := by
    obtain ⟨command, inside, own⟩ := List.mem_flatMap.mp member
    exact .inl (tables command inside table own)

/-- An index that is named after the model. -/
theorem index {change : IndexChange} {property : String}
    (named : change.name = m.indexName property) :
    (∀ x ∈ ((change.definition m.tableName).command d).changed, m.Touches x) ∧
      ∀ table ∈ ((change.definition m.tableName).command d).tables, table = m.tableName := by
  constructor
  · intro x changed
    have item : x = .index change.name := by
      cases change <;> exact List.mem_singleton.mp changed
    rw [item, named]
    exact .index property
  · intro table about
    cases change with
    | create name column unique => exact List.mem_singleton.mp about
    | drop name =>
      rw [IndexChange.definition, Definition.command, Command.tables] at about
      split at about
      · cases about
      · exact List.mem_singleton.mp about

theorem indexes {changes : List IndexChange}
    (named : ∀ change ∈ changes, ∃ property, change.name = m.indexName property) :
    m.Footprint
      ((changes.map (IndexChange.definition m.tableName)).map (Definition.command d)) := by
  rw [List.map_map]
  apply of_own
  · intro command member
    obtain ⟨change, inside, rfl⟩ := List.mem_map.mp member
    obtain ⟨property, name⟩ := named change inside
    exact (index name).1
  · intro command member
    obtain ⟨change, inside, rfl⟩ := List.mem_map.mp member
    obtain ⟨property, name⟩ := named change inside
    exact (index name).2

/-- A change of columns keeps the name of the table. -/
theorem alterTable_columns (d : Dialect) (table : String) (changes : List ColumnChange) :
    ((Definition.alterTable table (changes.map .column)).command d).changed = [] ∧
      ((Definition.alterTable table (changes.map .column)).command d).tables = [table] := by
  have kept : ∀ action ∈ (changes.map Alter.column).map Alter.action,
      Command.renamed table action = [] ∧ Command.target? action = none := by
    intro action member
    obtain ⟨alter, inside, rfl⟩ := List.mem_map.mp member
    obtain ⟨change, _, rfl⟩ := List.mem_map.mp inside
    cases change <;> exact ⟨rfl, rfl⟩
  constructor
  · exact List.flatMap_eq_nil_iff.mpr fun action member => (kept action member).1
  · rw [Definition.command, Command.tables,
      List.filterMap_eq_nil_iff.mpr fun action member => (kept action member).2]

theorem alterations (alteration : Alteration) (changes : List ColumnChange) :
    m.Footprint ((TableDiff.alterations alteration m.tableName changes).map
      (Definition.command d)) := by
  have columns : ∀ s ∈ TableDiff.alterations alteration m.tableName changes,
      ∃ some : List ColumnChange, s = .alterTable m.tableName (some.map .column) := by
    intro s member
    cases alteration with
    | joined =>
      rw [TableDiff.alterations] at member
      split at member
      · cases member
      · exact ⟨changes, List.mem_singleton.mp member⟩
    | separate =>
      obtain ⟨change, _, rfl⟩ := List.mem_map.mp member
      exact ⟨[change], rfl⟩
  apply of_own
  · intro command member x changed
    obtain ⟨s, inside, rfl⟩ := List.mem_map.mp member
    obtain ⟨some, rfl⟩ := columns s inside
    rw [(alterTable_columns d m.tableName some).1] at changed
    cases changed
  · intro command member table about
    obtain ⟨s, inside, rfl⟩ := List.mem_map.mp member
    obtain ⟨some, rfl⟩ := columns s inside
    rw [(alterTable_columns d m.tableName some).2] at about
    exact List.mem_singleton.mp about

/-- A table that is made or removed under its own name. -/
theorem table {command : Command} (changed : command.changed = [.table m.tableName])
    (tables : command.tables = [m.tableName]) : m.Footprint [command] := by
  apply of_own
  · intro other member x item
    cases List.mem_singleton.mp member
    rw [changed] at item
    cases List.mem_singleton.mp item
    exact .table
  · intro other member name about
    cases List.mem_singleton.mp member
    rw [tables] at about
    exact List.mem_singleton.mp about

theorem inPlace (named : ∀ change ∈ diff.indexes, ∃ property, change.name = m.indexName property) :
    m.Footprint ((diff.inPlace d m).map (Definition.command d)) := by
  have some_named (keep : IndexChange → Bool) :
      ∀ change ∈ diff.indexes.filter keep, ∃ property, change.name = m.indexName property :=
    fun change member => named change (List.mem_filter.mp member).1
  simp only [TableDiff.inPlace, List.map_append]
  apply append
  · apply append
    · apply append
      · cases diff.createTable with
        | false => exact nil
        | true => exact table rfl rfl
      · exact indexes (some_named _)
    · exact alterations d.alteration diff.columns
  · exact indexes (some_named _)

/-- A rebuilding makes the shadow table, and then is about both tables. -/
theorem rebuild (d : Dialect) (m : Model) (diff : TableDiff) :
    m.Footprint ((diff.rebuild m).map (Definition.command d)) := by
  let shadow := TableDiff.shadowName m.tableName
  have made : .table shadow ∈
      ((diff.rebuild m).map (Definition.command d)).flatMap Command.changed := by
    refine List.mem_flatMap.mpr ⟨.dropTable shadow true, ?_, List.mem_singleton_self _⟩
    exact List.mem_cons_self
  have each : ∀ s ∈ diff.rebuild m, (∀ x ∈ (s.command d).changed, m.Touches x) ∧
      ∀ table ∈ (s.command d).tables, table = m.tableName ∨ table = shadow := by
    intro s member
    rw [TableDiff.rebuild, List.mem_append, List.mem_append, List.mem_append] at member
    rcases member with ((made | copied) | moved) | created
    · rcases List.mem_pair.mp made with rfl | rfl
      · exact ⟨List.forall_mem_singleton.mpr .shadow, List.forall_mem_singleton.mpr (.inr rfl)⟩
      · exact ⟨List.forall_mem_singleton.mpr .shadow, List.forall_mem_singleton.mpr (.inr rfl)⟩
    · split at copied
      · cases copied
      · cases List.mem_singleton.mp copied
        exact ⟨List.forall_mem_nil _, List.forall_mem_singleton.mpr (.inr rfl)⟩
    · rcases List.mem_pair.mp moved with rfl | rfl
      · exact ⟨List.forall_mem_singleton.mpr .table, List.forall_mem_singleton.mpr (.inl rfl)⟩
      · exact ⟨List.forall_mem_cons.mpr ⟨.shadow, List.forall_mem_singleton.mpr .table⟩,
          List.forall_mem_cons.mpr ⟨.inr rfl, List.forall_mem_singleton.mpr (.inl rfl)⟩⟩
    · obtain ⟨change, inside, rfl⟩ := List.mem_map.mp created
      obtain ⟨property, name⟩ := m.named_creation change inside
      obtain ⟨changed, tables⟩ := index name
      exact ⟨changed, fun table about => .inl (tables table about)⟩
  constructor
  · intro x member
    obtain ⟨command, inside, own⟩ := List.mem_flatMap.mp member
    obtain ⟨s, listed, rfl⟩ := List.mem_map.mp inside
    exact (each s listed).1 x own
  · intro table member
    obtain ⟨command, inside, own⟩ := List.mem_flatMap.mp member
    obtain ⟨s, listed, rfl⟩ := List.mem_map.mp inside
    exact ((each s listed).2 table own).imp_right fun name => ⟨name, name ▸ made⟩

theorem definitions
    (named : ∀ change ∈ diff.indexes, ∃ property, change.name = m.indexName property) :
    m.Footprint ((diff.definitions d m).map (Definition.command d)) := by
  rcases diff.definitions_cases d m with done | done
  · rw [done]
    exact inPlace named
  · rw [done]
    exact rebuild d m diff

end Model.Footprint

/-! ## Other tables -/

/-- What becomes of a table that nothing is done to: its columns stay, and so do its indexes, but
for those of changed names. -/
structure Table.Keeps (t : Table) (changed : List SchemaItem) (u : Table) : Prop where
  columns : u.columns = t.columns
  indexes : u.indexes.Sublist t.indexes
  kept : ∀ index ∈ t.indexes, .index index.name ∉ changed → index ∈ u.indexes

namespace Table.Keeps

variable {t u v : Table} {front back : List SchemaItem}

theorem refl (t : Table) (changed : List SchemaItem) : t.Keeps changed t :=
  ⟨rfl, List.Sublist.refl _, fun _ member _ => member⟩

theorem append (first : t.Keeps front u) (second : u.Keeps back v) : t.Keeps (front ++ back) v where
  columns := second.columns.trans first.columns
  indexes := second.indexes.trans first.indexes
  kept index member unchanged := by
    rw [List.mem_append, not_or] at unchanged
    exact second.kept index (first.kept index member unchanged.1) unchanged.2

theorem withoutIndex (t : Table) (name : String) : t.Keeps [.index name] (t.withoutIndex name) where
  columns := rfl
  indexes := List.filter_sublist
  kept index member unchanged := by
    refine List.mem_filter.mpr ⟨member, bne_iff_ne.mpr fun same => unchanged ?_⟩
    exact List.mem_singleton.mpr (congrArg SchemaItem.index same)

end Table.Keeps

namespace Catalog

variable {d : Dialect} {c next : Catalog} {table other : String} {t : Table}

theorem modify?_others {change : Table → Option Table} (done : c.modify? table change = some next)
    (differ : other ≠ table) : next.get? other = c.get? other := by
  rw [modify?, Option.bind_eq_some_iff] at done
  obtain ⟨t, _, done⟩ := done
  obtain ⟨u, _, rfl⟩ := Option.map_eq_some_iff.mp done
  rw [Keyed.get?_put, if_neg differ.symm]

theorem act?_others {action : Action} (done : c.act? table action = some next)
    (differ : other ≠ table) (target : Command.target? action ≠ some other) :
    next.get? other = c.get? other := by
  cases action with
  | rename name =>
    rw [act?, Option.bind_eq_some_iff] at done
    obtain ⟨t, _, done⟩ := done
    split at done
    · cases done
    · cases done
      have elsewhere : name ≠ other := fun same => target (congrArg some same)
      rw [Keyed.get?_put, if_neg elsewhere, Keyed.get?_erase, if_neg differ.symm]
  | _ => exact modify?_others done differ

/-- The table that is altered may take other names on the way. -/
theorem alter?_others {actions : List Action} (done : c.alter? table actions = some next)
    (differ : other ≠ table) (targets : ∀ action ∈ actions, Command.target? action ≠ some other) :
    next.get? other = c.get? other := by
  induction actions generalizing c table with
  | nil =>
    cases done
    rfl
  | cons action rest ih =>
    obtain ⟨target, later⟩ := List.forall_mem_cons.mp targets
    cases action with
    | rename name =>
      obtain ⟨middle, first, done⟩ := Option.bind_eq_some_iff.mp done
      have elsewhere : other ≠ name := fun same => target (congrArg some same.symm)
      rw [ih done elsewhere later, act?_others first differ target]
    | _ =>
      obtain ⟨middle, first, done⟩ := Option.bind_eq_some_iff.mp done
      rw [ih done differ later, act?_others first differ target]

/-- A command keeps the tables that it is not about. -/
theorem exec?_others {command : Command} (done : c.exec? d command = some next)
    (apart : other ∉ command.tables) (found : c.get? other = some t) :
    ∃ u, next.get? other = some u ∧ t.Keeps command.changed u := by
  have same (unchanged : next.get? other = c.get? other) :
      ∃ u, next.get? other = some u ∧ t.Keeps command.changed u :=
    ⟨t, unchanged.trans found, .refl t _⟩
  cases command with
  | createTable table columns =>
    have differ : other ≠ table := List.ne_of_not_mem_cons apart
    apply same
    rw [exec?, Option.ite_none_left_eq_some] at done
    obtain ⟨_, done⟩ := done
    cases done
    rw [Keyed.get?_put, if_neg differ.symm]
  | dropTable table ifExists =>
    have differ : other ≠ table := List.ne_of_not_mem_cons apart
    apply same
    rw [exec?, Option.ite_none_right_eq_some] at done
    obtain ⟨_, done⟩ := done
    cases done
    rw [Keyed.get?_erase, if_neg differ.symm]
  | alterTable table actions =>
    rw [Command.tables, List.mem_cons, not_or] at apart
    apply same
    rw [exec?, Option.ite_none_right_eq_some] at done
    refine alter?_others done.2 apart.1 fun action member target => apart.2 ?_
    exact List.mem_filterMap.mpr ⟨action, member, target⟩
  | createIndex table name column unique =>
    have differ : other ≠ table := List.ne_of_not_mem_cons apart
    rw [exec?, Option.ite_none_left_eq_some] at done
    exact same (modify?_others done.2 differ)
  | dropIndex scope name =>
    cases scope with
    | some table =>
      have differ : other ≠ table := List.ne_of_not_mem_cons apart
      exact same (modify?_others done differ)
    | none =>
      cases done
      refine ⟨t.withoutIndex name, ?_, .withoutIndex t name⟩
      rw [get?_map, found, Option.map_some]
  | copyRows source target selected inserted =>
    apply same
    rw [exec?, Option.bind_eq_some_iff] at done
    obtain ⟨s, _, done⟩ := done
    obtain ⟨u, _, done⟩ := Option.bind_eq_some_iff.mp done
    obtain ⟨_, done⟩ := Option.ite_none_right_eq_some.mp done
    cases done
    rfl

/-- A script keeps the tables that none of its commands is about. -/
theorem run?_others {script : List Command} (done : c.run? d script = some next)
    (apart : other ∉ script.flatMap Command.tables) (found : c.get? other = some t) :
    ∃ u, next.get? other = some u ∧ t.Keeps (script.flatMap Command.changed) u := by
  induction script generalizing c t with
  | nil =>
    cases done
    exact ⟨t, found, .refl t _⟩
  | cons command rest ih =>
    rw [List.flatMap_cons, List.mem_append, not_or] at apart
    rw [run?, List.foldlM_cons] at done
    obtain ⟨middle, first, later⟩ := Option.bind_eq_some_iff.mp done
    obtain ⟨u, there, kept⟩ := exec?_others first apart.1 found
    obtain ⟨v, last, keptLater⟩ := ih later apart.2 there
    exact ⟨v, last, kept.append keptLater⟩

end Catalog

end SqlMapper
