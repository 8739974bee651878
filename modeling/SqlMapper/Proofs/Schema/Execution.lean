import Mathlib.Data.List.Nodup
import SqlMapper.Proofs.Schema.Catalog
import SqlMapper.Proofs.Schema.Convergence

/-! # Definitions in place

Most definitions of a diff change the table of the model and leave the others alone. What they do is
told by the table itself: if they succeed on the table, they succeed on a catalog that has it, and
leave a catalog that has what they made of it. Index names are the exception, where the dialect
keeps them within the catalog; there the names of a model must not be taken by another table.
-/

namespace SqlMapper

/-- A catalog that has a table of a name and agrees with another catalog on all other names. -/
structure Catalog.Replaces (c : Catalog) (table : String) (t : Table) (next : Catalog) : Prop where
  own : next.get? table = some t
  others : ∀ other, other ≠ table → next.get? other = c.get? other

/-- Where indexes are named within the catalog, only the table of a model has indexes named after
it. -/
def Catalog.Reserves (d : Dialect) (m : Model) (c : Catalog) : Prop :=
  d.globalIndexes → ∀ other t, other ≠ m.tableName → c.get? other = some t →
    ∀ property, m.indexName property ∉ t.indexNames

/-- Where there are no other tables, no name is taken. -/
theorem Catalog.Reserves.of_alone {d : Dialect} {m : Model} {c : Catalog}
    (alone : ∀ other, other ≠ m.tableName → c.get? other = none) : c.Reserves d m := by
  intro _ other t differ found
  rw [alone other differ] at found
  cases found

/-- What a definition in place makes of its table. -/
def Table.perform? (t : Table) : Definition → Option Table
  | .alterTable _ changes => (changes.map Alter.action).foldlM Table.act? t
  | .createIndex _ name column unique => t.addIndex? ⟨name, column, unique⟩
  | .dropIndex _ name => t.dropIndex? name
  | _ => none

/-- What every step preserves, a run preserves. -/
theorem foldlM_preserves {α β : Type} {P : α → Prop} {step : α → β → Option α}
    (preserves : ∀ a b next, P a → step a b = some next → P next) {items : List β} {a last : α}
    (holds : P a) (run : items.foldlM step a = some last) : P last := by
  induction items generalizing a with
  | nil =>
    cases run
    exact holds
  | cons b items ih =>
    rw [List.foldlM_cons] at run
    obtain ⟨next, first, rest⟩ := Option.bind_eq_some_iff.mp run
    exact ih (preserves a b next holds first) rest

/-- A table of which no two columns and no two indexes have the same name. -/
structure Table.Distinct (t : Table) : Prop where
  columns : t.columnNames.Nodup
  indexes : t.indexNames.Nodup

namespace Table.Distinct

variable {t u : Table}

theorem act? (distinct : t.Distinct) {action : Action} (changed : t.act? action = some u) :
    u.Distinct := by
  cases action with
  | add column =>
    rw [Table.act?, Option.ite_none_left_eq_some] at changed
    obtain ⟨new, changed⟩ := changed
    cases changed
    refine ⟨?_, distinct.indexes⟩
    rw [columnNames, List.map_append, List.map_singleton]
    exact distinct.columns.append (List.nodup_singleton _) (List.disjoint_singleton.mpr new)
  | change column =>
    rw [Table.act?, Option.ite_none_right_eq_some] at changed
    obtain ⟨_, changed⟩ := changed
    cases changed
    refine ⟨?_, distinct.indexes⟩
    have names : columnNames { t with columns := t.columns.map fun old =>
        if old.name = column.name then { old with type := column.type, nullable := column.nullable }
        else old } = t.columnNames := by
      rw [columnNames, columnNames, List.map_map]
      apply List.map_congr_left
      intro old _
      rw [Function.comp_apply]
      split <;> rfl
    rw [names]
    exact distinct.columns
  | drop name =>
    rw [Table.act?, Option.ite_none_right_eq_some] at changed
    obtain ⟨_, changed⟩ := changed
    cases changed
    exact ⟨distinct.columns.sublist (List.filter_sublist.map _), distinct.indexes⟩
  | rename => cases changed

theorem perform? (distinct : t.Distinct) {s : Definition} (applied : t.perform? s = some u) :
    u.Distinct := by
  cases s with
  | alterTable table changes =>
    exact foldlM_preserves (fun _ _ _ holds changed => act? holds changed) distinct applied
  | createIndex table name column unique =>
    rw [Table.perform?, addIndex?, Option.ite_none_right_eq_some] at applied
    obtain ⟨⟨new, _⟩, applied⟩ := applied
    cases applied
    refine ⟨distinct.columns, ?_⟩
    rw [indexNames, List.map_append, List.map_singleton]
    exact distinct.indexes.append (List.nodup_singleton _) (List.disjoint_singleton.mpr new)
  | dropIndex table name =>
    rw [Table.perform?, dropIndex?, Option.ite_none_right_eq_some] at applied
    obtain ⟨_, applied⟩ := applied
    cases applied
    exact ⟨distinct.columns, distinct.indexes.sublist (List.filter_sublist.map _)⟩
  | _ => cases applied

/-- Distinct names stay distinct whatever is done in place. -/
theorem run? (distinct : t.Distinct) {script : List Definition}
    (applied : script.foldlM Table.perform? t = some u) : u.Distinct :=
  foldlM_preserves (fun _ _ _ holds applied => perform? holds applied) distinct applied

end Table.Distinct

/-- A definition of the table of a model and of indexes that are named after it. -/
def Definition.InPlace (m : Model) : Definition → Prop
  | .alterTable table changes => table = m.tableName ∧ changes ≠ []
  | .createIndex table name _ _ => table = m.tableName ∧ ∃ property, name = m.indexName property
  | .dropIndex table name => table = m.tableName ∧ ∃ property, name = m.indexName property
  | _ => False

theorem Definition.InPlace.listed {m : Model} {s : Definition} (inPlace : s.InPlace m) :
    s.Listed := by
  cases s with
  | alterTable table changes => exact inPlace.2
  | copyRows source target columns => exact inPlace.elim
  | _ => trivial

namespace Catalog

variable {d : Dialect} {m : Model} {c now : Catalog} {table : String} {t u : Table}

theorem Replaces.contains (replaces : c.Replaces table t now) : now.contains table := by
  rw [Keyed.contains, replaces.own]
  rfl

theorem Replaces.put (replaces : c.Replaces table t now) (u : Table) :
    c.Replaces table u (Keyed.put now table u) where
  own := by rw [Keyed.get?_put, if_pos rfl]
  others other differ := by rw [Keyed.get?_put, if_neg differ.symm, replaces.others other differ]

/-- A change that the table allows is a change of the catalog. -/
theorem Replaces.modify? (replaces : c.Replaces table t now) (change : Table → Option Table)
    (changed : change t = some u) :
    ∃ next, now.modify? table change = some next ∧ c.Replaces table u next := by
  refine ⟨_, ?_, replaces.put u⟩
  rw [Catalog.modify?, replaces.own, Option.bind_some, changed, Option.map_some]

theorem Replaces.alter? (replaces : c.Replaces table t now) {actions : List Action}
    (changed : actions.foldlM Table.act? t = some u) :
    ∃ next, now.alter? table actions = some next ∧ c.Replaces table u next := by
  induction actions generalizing t now with
  | nil =>
    cases changed
    exact ⟨now, rfl, replaces⟩
  | cons action actions ih =>
    rw [List.foldlM_cons] at changed
    obtain ⟨middle, first, rest⟩ := Option.bind_eq_some_iff.mp changed
    obtain ⟨next, stepped, replaced⟩ := replaces.modify? (·.act? action) first
    obtain ⟨last, run, replaced⟩ := ih replaced rest
    refine ⟨last, ?_, replaced⟩
    cases action with
    | rename target => cases first
    | _ => simp only [Catalog.alter?, Catalog.act?, stepped, Option.bind_some, run]

theorem get?_map (f : Table → Table) (c : Catalog) (name : String) :
    (c.map f).get? name = (c.get? name).map f := by
  rw [map, Keyed.get?, Keyed.get?]
  dsimp only
  induction c.entries with
  | nil => rfl
  | cons entry rest ih =>
    rw [List.map_cons, Entries.get?, Entries.get?, ih]
    split <;> rfl

/-- Dropping an index of the model from the whole catalog is dropping it from the table. -/
theorem Replaces.map_withoutIndex (replaces : c.Replaces m.tableName t now)
    (reserves : c.Reserves d m) (scope : d.globalIndexes) (property : String) :
    c.Replaces m.tableName (t.withoutIndex (m.indexName property))
      (now.map (·.withoutIndex (m.indexName property))) where
  own := by rw [get?_map, replaces.own, Option.map_some]
  others other differ := by
    rw [get?_map, replaces.others other differ]
    cases found : c.get? other with
    | none => rfl
    | some s =>
      have absent := reserves scope other s differ found property
      rw [Option.map_some, Table.withoutIndex, List.filter_eq_self.mpr]
      intro index member
      rw [bne_iff_ne]
      rintro same
      exact absent (same ▸ List.mem_map_of_mem member)

/-- A name of the model that its table has no index of is free in the catalog. -/
theorem Replaces.hasIndex_eq_false (replaces : c.Replaces m.tableName t now)
    (reserves : c.Reserves d m) (scope : d.globalIndexes) {property : String}
    (absent : m.indexName property ∉ t.indexNames) :
    now.hasIndex (m.indexName property) = false := by
  rw [hasIndex, List.any_eq_false]
  intro entry member taken
  have taken := of_decide_eq_true taken
  have found := (Keyed.get?_eq_some_iff now entry.1).mpr member
  by_cases own : entry.1 = m.tableName
  · rw [own, replaces.own, Option.some.injEq] at found
    exact absent (found ▸ taken)
  · rw [replaces.others _ own] at found
    exact reserves scope entry.1 entry.2 own found property taken

/-- A definition in place does to the catalog what it does to the table. -/
theorem Replaces.exec? (replaces : c.Replaces m.tableName t now) (reserves : c.Reserves d m)
    {s : Definition} (inPlace : s.InPlace m) (applied : t.perform? s = some u) :
    ∃ next, now.exec? d (s.command d) = some next ∧ c.Replaces m.tableName u next := by
  cases s with
  | alterTable table changes =>
    obtain ⟨rfl, _⟩ := inPlace
    obtain ⟨next, altered, replaced⟩ := replaces.alter? applied
    refine ⟨next, ?_, replaced⟩
    rw [Definition.command, Catalog.exec?, if_pos replaces.contains, altered]
  | createIndex table name column unique =>
    obtain ⟨rfl, property, rfl⟩ := inPlace
    obtain ⟨next, modified, replaced⟩ :=
      replaces.modify? (·.addIndex? ⟨m.indexName property, column, unique⟩) applied
    refine ⟨next, ?_, replaced⟩
    have absent : m.indexName property ∉ t.indexNames := by
      intro taken
      rw [Table.perform?, Table.addIndex?, if_neg (fun free => free.1 taken)] at applied
      cases applied
    rw [Definition.command, Catalog.exec?, if_neg, modified]
    rintro ⟨scope, taken⟩
    rw [replaces.hasIndex_eq_false reserves scope absent] at taken
    cases taken
  | dropIndex table name =>
    obtain ⟨rfl, property, rfl⟩ := inPlace
    rw [Definition.command]
    cases scope : d.globalIndexes with
    | false => exact replaces.modify? (·.dropIndex? (m.indexName property)) applied
    | true =>
      refine ⟨_, rfl, ?_⟩
      rw [Table.perform?, Table.dropIndex?] at applied
      split at applied
      · cases applied
        exact replaces.map_withoutIndex reserves scope property
      · cases applied
  | _ => cases applied

/-- A script in place does to the catalog what it does to the table. -/
theorem Replaces.run? (replaces : c.Replaces m.tableName t now) (reserves : c.Reserves d m)
    {script : List Definition} (inPlace : ∀ s ∈ script, s.InPlace m)
    (applied : script.foldlM Table.perform? t = some u) :
    ∃ next, now.run? d (script.map (Definition.command d)) = some next ∧
      c.Replaces m.tableName u next := by
  induction script generalizing t now with
  | nil =>
    cases applied
    exact ⟨now, rfl, replaces⟩
  | cons s script ih =>
    obtain ⟨first, rest⟩ := List.forall_mem_cons.mp inPlace
    rw [List.foldlM_cons] at applied
    obtain ⟨middle, head, tail⟩ := Option.bind_eq_some_iff.mp applied
    obtain ⟨next, stepped, replaced⟩ := replaces.exec? reserves first head
    obtain ⟨last, ran, replaced⟩ := ih replaced rest tail
    refine ⟨last, ?_, replaced⟩
    rw [List.map_cons, Catalog.run?, List.foldlM_cons, stepped]
    exact ran

end Catalog

end SqlMapper
