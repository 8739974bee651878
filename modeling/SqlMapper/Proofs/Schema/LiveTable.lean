import SqlMapper.Schema.Diff

/-! # Tables under a diff

A diff changes what the database reports of a table. Every change names one column or one index and
leaves the others as they are, so what becomes of a name is found from the changes of that name
alone, in their order.
-/

namespace SqlMapper

/-- What the database reports of a table. -/
structure LiveTable where
  columns : List LiveColumn
  indexes : List LiveIndex
  deriving DecidableEq, Repr

/-- The key column of a table that is created. -/
def keyColumn : LiveColumn := ⟨idName, "INTEGER", true, true⟩

/-- A column with the type and the nullability that a property declares. -/
def LiveColumn.declaredAs (p : Property) (column : LiveColumn) : LiveColumn :=
  { column with type := p.columnType, nullable := p.nullable }

/-- The column that is created for a property. -/
def Property.liveColumn (p : Property) (name : String) : LiveColumn :=
  ⟨name, p.columnType, p.nullable, false⟩

@[simp] theorem Property.differs_liveColumn (p : Property) (name : String) :
    (p.liveColumn name).differs p = false := by simp [liveColumn, LiveColumn.differs]

@[simp] theorem LiveColumn.differs_declaredAs (p : Property) (column : LiveColumn) :
    (column.declaredAs p).differs p = false := by simp [declaredAs, differs]

/-- Nothing of a name is left where all of that name is removed, and the rest is as before. -/
theorem find?_filter_ne {α : Type} (key : α → String) (items : List α) {removed name : String} :
    (items.filter fun a => key a != removed).find? (fun a => key a == name) =
      if removed = name then none else items.find? fun a => key a == name := by
  rw [List.find?_filter]
  by_cases same : removed = name
  · simp [same]
  · rw [if_neg same]
    congr 1
    funext a
    by_cases here : key a = name
    · simp [here, Ne.symm same]
    · simp [here]

/-! ## Columns -/

theorem findColumn?_eq_none {columns : List LiveColumn} {name : String} :
    findColumn? columns name = none ↔ ∀ column ∈ columns, column.name ≠ name := by
  simp [findColumn?]

theorem findColumn?_name {columns : List LiveColumn} {name : String} {column : LiveColumn}
    (found : findColumn? columns name = some column) : column.name = name := by
  simpa using List.find?_some found

namespace ColumnChange

/-- The column that a change is about. -/
def name : ColumnChange → String
  | .add name _ => name
  | .change name _ => name
  | .drop name => name

/-- The columns after a change. -/
def applyTo (columns : List LiveColumn) : ColumnChange → List LiveColumn
  | .add name p => columns ++ [p.liveColumn name]
  | .change name p =>
      columns.map fun column => if column.name = name then column.declaredAs p else column
  | .drop name => columns.filter fun column => column.name != name

/-- What becomes of the column that a change is about. -/
def outcome (found : Option LiveColumn) : ColumnChange → Option LiveColumn
  | .add name p => found.or (some (p.liveColumn name))
  | .change _ p => found.map (·.declaredAs p)
  | .drop _ => none

theorem findColumn?_applyTo (columns : List LiveColumn) (change : ColumnChange) (name : String) :
    findColumn? (change.applyTo columns) name =
      if change.name = name then change.outcome (findColumn? columns name)
      else findColumn? columns name := by
  cases change with
  | add added p =>
    by_cases same : added = name <;>
      simp [applyTo, ColumnChange.name, outcome, findColumn?, List.find?_append,
        Property.liveColumn, same]
  | change changed p =>
    have found : findColumn? ((ColumnChange.change changed p).applyTo columns) name =
        (findColumn? columns name).map fun column =>
          if column.name = changed then column.declaredAs p else column := by
      simp only [applyTo, findColumn?, List.find?_map]
      congr 2
      funext column
      simp only [Function.comp_apply]
      split <;> rfl
    rw [found]
    cases old : findColumn? columns name with
    | none => simp [outcome]
    | some column =>
      by_cases same : changed = name
      · simp [ColumnChange.name, outcome, findColumn?_name old, same]
      · simp [ColumnChange.name, findColumn?_name old, same, Ne.symm same]
  | drop dropped =>
    exact find?_filter_ne LiveColumn.name columns

/-- What becomes of a column is found from the changes of its name. -/
theorem findColumn?_foldl (columns : List LiveColumn) (changes : List ColumnChange)
    (name : String) :
    findColumn? (changes.foldl applyTo columns) name =
      (changes.filter (·.name = name)).foldl outcome (findColumn? columns name) := by
  induction changes generalizing columns with
  | nil => rfl
  | cons change changes ih =>
    rw [List.foldl_cons, ih, findColumn?_applyTo]
    by_cases same : change.name = name <;> simp [same]

/-- A column that is only ever dropped is gone, unless it is never dropped. -/
theorem foldl_outcome_drop {changes : List ColumnChange} {name : String}
    {found : Option LiveColumn} (drops : ∀ change ∈ changes, change = .drop name)
    (absent : changes = [] → found = none) : changes.foldl outcome found = none := by
  induction changes generalizing found with
  | nil => exact absent rfl
  | cons change changes ih =>
    obtain ⟨rfl, more⟩ := List.forall_mem_cons.mp drops
    exact ih more fun _ => rfl

end ColumnChange

/-! ## Indexes -/

namespace IndexChange

/-- The index that a change is about. -/
def name : IndexChange → String
  | .create name _ _ => name
  | .drop name => name

/-- The indexes after a change. -/
def applyTo (indexes : List LiveIndex) : IndexChange → List LiveIndex
  | .create name _ unique => indexes ++ [⟨name, unique⟩]
  | .drop name => indexes.filter fun index => index.name != name

/-- What becomes of the index that a change is about. -/
def outcome (found : Option LiveIndex) : IndexChange → Option LiveIndex
  | .create name _ unique => found.or (some ⟨name, unique⟩)
  | .drop _ => none

theorem findIndex?_applyTo (indexes : List LiveIndex) (change : IndexChange) (name : String) :
    findIndex? (change.applyTo indexes) name =
      if change.name = name then change.outcome (findIndex? indexes name)
      else findIndex? indexes name := by
  cases change with
  | create created column unique =>
    by_cases same : created = name <;>
      simp [applyTo, IndexChange.name, outcome, findIndex?, List.find?_append, same]
  | drop dropped =>
    exact find?_filter_ne LiveIndex.name indexes

/-- What becomes of an index is found from the changes of its name. -/
theorem findIndex?_foldl (indexes : List LiveIndex) (changes : List IndexChange) (name : String) :
    findIndex? (changes.foldl applyTo indexes) name =
      (changes.filter (·.name = name)).foldl outcome (findIndex? indexes name) := by
  induction changes generalizing indexes with
  | nil => rfl
  | cons change changes ih =>
    rw [List.foldl_cons, ih, findIndex?_applyTo]
    by_cases same : change.name = name <;> simp [same]

end IndexChange

/-! ## Diffs -/

/-- The columns of a table that is created for a model. -/
def Model.createdColumns (m : Model) : List LiveColumn :=
  keyColumn :: m.columns.map fun entry => entry.2.liveColumn entry.1

/-- A table after a diff to a model, which may have to create it first. -/
def TableDiff.applyTo (m : Model) (diff : TableDiff) (t : LiveTable) : LiveTable where
  columns := diff.columns.foldl ColumnChange.applyTo <|
    if diff.createTable then m.createdColumns else t.columns
  indexes := diff.indexes.foldl IndexChange.applyTo t.indexes

/-- A table after it is reconciled with a model. -/
def LiveTable.reconciled (m : Model) (t : LiveTable) : LiveTable :=
  (m.reconcile t.columns t.indexes).applyTo m t

end SqlMapper
