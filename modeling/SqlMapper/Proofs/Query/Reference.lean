import SqlMapper.Query.Mapper
import SqlMapper.Proofs.Condition.Clause
import SqlMapper.Proofs.Condition.Parts
import SqlMapper.Proofs.Lexis.Reference
import SqlMapper.Proofs.Query.Written
import SqlMapper.Proofs.Schema.Rebuild

/-! # What statements refer to

A reference is a row of names with points between them. What defines a table writes every name as a
reference of one name. What is said of rows writes a column as the reference that its path is, so it
is the reference of the definitions exactly if the name has no point; a name with points refers to
what is qualified by its first parts.
-/

namespace SqlMapper

open Text

/-! ## What a statement names -/

/-- A name in a statement, by what it is the name of. -/
inductive Mention
  | table (name : String)
  | index (name : String)
  | column (name : String)
  deriving DecidableEq, Repr

namespace Mention

def name : Mention → String
  | .table name => name
  | .index name => name
  | .column name => name

/-- The reference of one name. -/
def whole (x : Mention) : List String := [x.name]

/-- The reference by the path of a column. -/
def qualified : Mention → List String
  | .column name => path name
  | x => x.whole

end Mention

namespace ColumnChange

def mentions : ColumnChange → List Mention
  | .add name _ => [.column name]
  | .change name _ => [.column name, .column name]
  | .drop name => [.column name]

end ColumnChange

def Alter.mentions : Alter → List Mention
  | .column change => change.mentions
  | .rename table => [.table table]

namespace Definition

/-- What a definition names, in order. -/
def mentions (d : Dialect) : Definition → List Mention
  | .createTable table columns =>
      .table table :: .column idName :: columns.map fun entry => .column entry.1
  | .dropTable table _ => [.table table]
  | .alterTable table changes => .table table :: changes.flatMap Alter.mentions
  | .createIndex table name column _ => [.index name, .table table, .column column]
  | .dropIndex table name => if d.globalIndexes then [.index name] else [.index name, .table table]
  | .copyRows source target columns =>
      .table target :: columns.map .column ++ columns.map .column ++ [.table source]

end Definition

theorem Property.separates_settings (p : Property) : ∀ t ∈ p.settingTokens, t.separates := by
  unfold settingTokens typeTokens
  cases p.kind <;> cases p.nullable <;> simp [sizedType, Token.separates]

namespace Token.Refers

theorem column (name : String) (p : Property) :
    Refers (.name name :: p.settingTokens) [[name]] :=
  (Refers.name name).append (of_separates p.separates_settings)

theorem alter (change : Alter) :
    Refers change.tokens (change.mentions.map Mention.whole) := by
  have words {w v : String} : Refers [.word w, .word v] [] := of_separates (by simp [separates])
  rcases change with (⟨name, p⟩ | ⟨name, p⟩ | name) | table
  · exact words.append (column name p)
  · exact words.append ((Refers.name name).append (column name p))
  · exact words.append (Refers.name name)
  · exact words.append (Refers.name table)

theorem columnList (columns : List String) :
    Refers (separated "," columns) (columns.map fun name => [name]) := by
  have each : ∀ name ∈ columns, Refers [.name name] [[name]] := fun name _ => Refers.name name
  have all := Refers.commas each
  rwa [commas_names, ← List.map_eq_flatMap] at all

/-- A definition refers by single names. -/
theorem definition (d : Dialect) (s : Definition) :
    Refers (s.tokens d) ((s.mentions d).map Mention.whole) := by
  have plain {ts : List Token} (all : ts.all separates = true) : Refers ts [] :=
    of_separates (List.all_eq_true.mp all)
  have opened : Refers [.symbol "("] [] := plain rfl
  have closed : Refers [.symbol ")"] [] := plain rfl
  cases s with
  | createTable table columns =>
    have each : ∀ c ∈ none :: columns.map some,
        Refers (columnTokens c) [[(c.map Prod.fst).getD idName]] := by
      intro c _
      cases c with
      | none => exact (Refers.name idName).append (plain rfl)
      | some entry => exact column entry.1 entry.2
    have front : Refers [.word "CREATE", .word "TABLE"] [] := plain rfl
    have whole := front.append ((Refers.name table).append
      (opened.append ((Refers.commas each).append closed)))
    have named : ((none :: columns.map some).flatMap fun c => [[(c.map Prod.fst).getD idName]]) =
        [idName] :: columns.map fun entry => [entry.1] := by
      simp [List.flatMap_map, ← List.map_eq_flatMap]
    rw [named] at whole
    simpa [Definition.tokens, Definition.mentions, Mention.whole, Mention.name,
      Function.comp_def] using whole
  | dropTable table ifExists =>
    cases ifExists with
    | true =>
      have front : Refers [.word "DROP", .word "TABLE", .word "IF", .word "EXISTS"] [] := plain rfl
      exact front.append (Refers.name table)
    | false =>
      have front : Refers [.word "DROP", .word "TABLE"] [] := plain rfl
      exact front.append (Refers.name table)
  | alterTable table changes =>
    have front : Refers [.word "ALTER", .word "TABLE"] [] := plain rfl
    have whole := front.append ((Refers.name table).append
      (Refers.commas fun change (_ : change ∈ changes) => alter change))
    simpa [Definition.tokens, Definition.mentions, Mention.whole, Mention.name,
      List.map_flatMap] using whole
  | createIndex table name column unique =>
    have front : Refers (.word "CREATE" ::
        ((if unique then [.word "UNIQUE"] else []) ++ [.word "INDEX"])) [] := by
      cases unique <;> exact plain rfl
    have on : Refers [.word "ON"] [] := plain rfl
    have last : Refers [.word "ASC", .symbol ")"] [] := plain rfl
    have whole := front.append ((Refers.name name).append (on.append ((Refers.name table).append
      (opened.append ((Refers.name column).append last)))))
    simpa [Definition.tokens, Definition.mentions, Mention.whole, Mention.name] using whole
  | dropIndex table name =>
    have front : Refers [.word "DROP", .word "INDEX"] [] := plain rfl
    have exist : Refers [.word "IF", .word "EXISTS"] [] := plain rfl
    have on : Refers [.word "ON"] [] := plain rfl
    rw [Definition.tokens, Definition.mentions]
    split
    · exact front.append (exist.append (Refers.name name))
    · exact front.append ((Refers.name name).append (on.append (Refers.name table)))
  | copyRows source target columns =>
    have front : Refers [.word "INSERT", .word "INTO"] [] := plain rfl
    have select : Refers [.symbol ")", .word "SELECT"] [] := plain rfl
    have fromTable : Refers [.word "FROM"] [] := plain rfl
    have selection := select.append ((columnList columns).append
      (fromTable.append (Refers.name source)))
    have whole := front.append ((Refers.name target).append
      (opened.append ((columnList columns).append selection)))
    simpa [Definition.tokens, Definition.mentions, Mention.whole, Mention.name,
      Function.comp_def] using whole

theorem field (field : String) : Refers (fieldTokens field) [path field] :=
  names (path_ne_nil field)

theorem stored (stored : Stored) : Refers [stored.token] [] := by
  apply of_separates
  cases stored with
  | float x => cases finite : x.isFinite <;> simp [Stored.token, finite, separates]
  | _ => simp [Stored.token, separates]

theorem insertion {d : Dialect} (known : d.IsKnown) (replacing : Bool) (table : String)
    (columns : List String) :
    Refers (insertionTokens d replacing table columns) ([table] :: columns.map path) := by
  have front : Refers (d.insertWords replacing) [] := by
    rcases known with rfl | rfl <;> cases replacing <;> exact of_separates (by decide)
  have opened : Refers [.symbol "("] [] := of_separates (by decide)
  have closed : Refers [.symbol ")"] [] := of_separates (by decide)
  have values : Refers [.symbol ")", .word "VALUES", .symbol "("] [] := of_separates (by decide)
  have one : Refers [.symbol "?"] [] := of_separates (by decide)
  have fields : Refers (fieldListTokens columns) (columns.map path) := by
    have each := Refers.commas fun column (_ : column ∈ columns) => field column
    rwa [← List.map_eq_flatMap] at each
  have placeholders : Refers (placeholderTokens columns) [] :=
    commas_of_separate fun _ _ => one
  have whole := front.append ((Refers.name table).append (opened.append
    (fields.append (values.append (placeholders.append closed)))))
  simpa [insertionTokens] using whole

theorem update (table : String) (assignments : List (String × Literal)) (id : Int64) :
    Refers (updateTokens table assignments id)
      ([table] :: assignments.map (fun a => path a.1) ++ [[idName]]) := by
  have front : Refers [.word "UPDATE"] [] := of_separates (by decide)
  have sets : Refers [.word "SET"] [] := of_separates (by decide)
  have equals : Refers [.symbol "="] [] := of_separates (by decide)
  have row : Refers [.word "WHERE"] [] := of_separates (by decide)
  have key : Refers [.symbol "=", .number (intText id.toInt)] [] :=
    of_separates (by simp [separates])
  have each : ∀ a ∈ assignments, Refers (assignmentTokens a) [path a.1] := fun a _ =>
    (field a.1).append (equals.append (stored a.2.stored))
  have whole := front.append ((Refers.name table).append (sets.append ((Refers.commas each).append
    (row.append ((Refers.name idName).append key)))))
  simpa [updateTokens, ← List.map_eq_flatMap] using whole

theorem order (terms : List OrderTerm) :
    Refers (orderTokens terms) (terms.map fun t => path t.field) := by
  have front : Refers [.word "ORDER", .word "BY"] [] := of_separates (by decide)
  have falling : Refers [.word "DESC"] [] := of_separates (by decide)
  have each : ∀ t ∈ terms, Refers t.tokens [path t.field] := by
    rintro ⟨name, direction⟩ _
    cases direction with
    | ascending => exact field name
    | descending => exact (field name).append falling
  have whole := front.append (Refers.commas each)
  rwa [List.nil_append, ← List.map_eq_flatMap] at whole

theorem operator (token : String) : Refers (operatorTokens token) [] := by
  apply of_separates
  unfold operatorTokens
  split
  · rename_i listed
    have symbols : ∀ s ∈ symbolOperators, (Token.symbol s).separates := by decide
    simpa using symbols token listed
  · simp [separates]

theorem argument (function : Option String) (value : Stored) :
    Refers (argumentTokens function value) [] := by
  cases function with
  | none => exact stored value
  | some f =>
    have front : Refers [.word f, .symbol "("] [] := of_separates (by simp [separates])
    have closed : Refers [.symbol ")"] [] := of_separates (by decide)
    exact front.append ((stored value).append closed)

/-- An atom refers to its field. -/
theorem atom (a : Atom) : Refers a.tokens (a.field?.toList.map path) := by
  cases a with
  | isNull name => exact (field name).append (of_separates (by decide))
  | compare name token value =>
    exact ((field name).append (operator token)).append (stored value.stored)
  | member name negated values =>
    have words : Refers (if negated then [.word "NOT", .word "IN"] else [.word "IN"]) [] := by
      cases negated <;> exact of_separates (by decide)
    have opened : Refers [.symbol "("] [] := of_separates (by decide)
    have closed : Refers [.symbol ")"] [] := of_separates (by decide)
    have each := commas_of_separate fun v (_ : v ∈ values.map Literal.stored) => stored v
    have whole := ((field name).append words).append (opened.append (each.append closed))
    simpa [Atom.tokens, memberTokens, Atom.field?, fieldTokens] using whole
  | range name function low high =>
    have between : Refers [.word "BETWEEN"] [] := of_separates (by decide)
    have joined : Refers [.word "AND"] [] := of_separates (by decide)
    have whole := ((field name).append (between.append (argument function low.stored))).append
      (joined.append (argument function high.stored))
    simpa [Atom.tokens, Atom.field?, fieldTokens] using whole
  | constant holds => exact of_separates (by simp [Atom.tokens, separates])

end Token.Refers

/-! ## Texts -/

namespace Dialect

variable {d : Dialect}

/-- A definition refers to everything that it names by single names. -/
theorem references?_definition (known : d.IsKnown) {s : Definition} (listed : s.Listed) :
    d.references? (s.text d) = some ((s.mentions d).map Mention.whole) :=
  references?_eq (tokens?_definition known listed) (.definition d s)

end Dialect

namespace Mapper

/-- The texts that are said of rows, with what they name in order: insertions and updates, the
clauses of a condition that are on declared fields, and orders. -/
inductive Writes (b : Mapper) : String → List Mention → Prop
  | insert {r : Record} (nonempty : r.names ≠ []) :
      Writes b (b.insert r).1 (.table b.model.tableName :: r.names.map .column)
  | upsert {r : Record} (nonempty : r.names ≠ []) :
      Writes b (b.upsert r).1 (.table b.model.tableName :: r.names.map .column)
  | update {r : Record} {text : String} (written : b.update r = .ok text) :
      Writes b text (.table b.model.tableName ::
        (b.assignments r).map (fun a => .column a.1) ++ [.column idName])
  | clause {c : Criteria} {p : Predicate} {a : Atom} (written : b.predicate c = .ok (some p))
      (part : a ∈ p.atoms) (declared : ∀ name ∈ a.field?, (b.model.declaration? name).isSome) :
      Writes b (String.ofList (b.dialect.atom a)) (a.field?.toList.map .column)
  | order {terms : List OrderTerm} {clause : List Char}
      (written : b.dialect.orderClause? terms = some clause) :
      Writes b (String.ofList clause) (terms.map fun t => .column t.field)

variable {b : Mapper}

theorem assignments_cells (r : Record) : ∀ a ∈ b.assignments r, a.2.IsCell := by
  intro a member
  obtain ⟨entry, _, assigned⟩ := List.mem_filterMap.mp member
  split at assigned
  · cases assigned
  · obtain ⟨p, _, rfl⟩ := Option.map_eq_some_iff.mp assigned
    have quoted : some p = none → entry.2.text? = none := nofun
    exact (literal_cell quoted).1

theorem update_eq_ok {r : Record} {text : String} (written : b.update r = .ok text) :
    b.assignments r ≠ [] ∧ ∃ id, Record.id? r = some id ∧
      text = b.write (.update b.model.tableName (b.assignments r) id) := by
  rw [update] at written
  split at written
  · cases written
  · next id identity =>
    split at written
    · cases written
    · next nonempty =>
      cases written
      exact ⟨nonempty, id, identity, rfl⟩

/-- A clause on a declared field can be read, whatever the others are. -/
theorem readable_of_declared {c : Criteria} {p : Predicate} {a : Atom}
    (written : b.predicate c = .ok (some p)) (part : a ∈ p.atoms)
    (declared : ∀ name ∈ a.field?, (b.model.declaration? name).isSome) : a.Readable b.dialect := by
  obtain ⟨t, _, atoms, own, inside⟩ := (Criteria.predicate_of written).mp part
  cases on : a.field? with
  | none =>
    cases a with
    | constant holds => trivial
    | _ => cases on
  | some name =>
    obtain rfl := Test.atoms_field own a inside name on
    have quoted (undeclared : b.model.declaration? t.1 = none) : t.2.comparesText = false := by
      have found := declared t.1 on
      rw [undeclared] at found
      cases found
    have means := atoms_means (fun _ => .yes) quoted own
    have readable :=
      ((List.forall₂_and_left _ _).mp (means.imp fun _ _ said => ⟨said.readable, said⟩)).1
    exact readable (.atom a) (List.mem_map_of_mem inside) a (List.mem_singleton_self a)

/-- What is said of rows refers to columns by their paths. -/
theorem Writes.references? (known : b.dialect.IsKnown) {text : String} {mentions : List Mention}
    (writes : b.Writes text mentions) :
    b.dialect.references? text = some (mentions.map Mention.qualified) := by
  have inserted (replacing : Bool) {r : Record} (nonempty : r.names ≠ []) :
      b.dialect.references? (b.insertion replacing r).1 =
        some ([b.model.tableName] :: r.names.map path) :=
    Dialect.references?_eq
      (Dialect.tokens?_insertion known replacing b.model.tableName nonempty)
      (.insertion known replacing b.model.tableName r.names)
  cases writes with
  | insert nonempty =>
    refine (inserted false nonempty).trans ?_
    simp [Mention.qualified, Mention.whole, Mention.name, Function.comp_def]
  | upsert nonempty =>
    refine (inserted true nonempty).trans ?_
    simp [Mention.qualified, Mention.whole, Mention.name, Function.comp_def]
  | @update r text written =>
    obtain ⟨nonempty, id, _, rfl⟩ := update_eq_ok written
    have key : path idName = [idName] := by decide
    have read := Dialect.tokens?_update known b.model.tableName nonempty (assignments_cells r) id
    refine (Dialect.references?_eq read (.update _ _ _)).trans ?_
    simp [Mention.qualified, Mention.whole, Mention.name, Function.comp_def, key]
  | clause written part declared =>
    have readable := readable_of_declared written part declared
    rw [Dialect.references?_eq (Dialect.tokens?_atom known readable) (.atom _)]
    simp [Mention.qualified, Function.comp_def]
  | @order terms clause written =>
    have nonempty : terms ≠ [] := by
      rintro rfl
      cases written
    rw [Dialect.references?_eq (Dialect.tokens?_orderClause known nonempty written) (.order terms)]
    simp [Mention.qualified, Function.comp_def]

end Mapper

/-! ## Columns -/

/-- The column of the table of a model that a reference is to. The table may stand before it. -/
def Model.column? (m : Model) : List String → Option String
  | [column] => some column
  | [table, column] => if table = m.tableName then some column else none
  | _ => none

/-- The path of a field refers to the column of this name exactly if there is no point in it. -/
theorem Model.column?_path (m : Model) (field : String) :
    m.column? (path field) = some field ↔ '.' ∉ field.toList := by
  rw [← path_eq_singleton]
  have back := ofPath_path field
  constructor
  · intro found
    match shape : path field with
    | [] => exact absurd shape (path_ne_nil field)
    | [name] =>
      rw [shape] at found
      rw [Option.some.inj found]
    | [table, name] =>
      -- the column would be shorter than the field that it is
      rw [shape, column?, Option.ite_none_right_eq_some, Option.some.injEq] at found
      obtain ⟨_, rfl⟩ := found
      have length := congrArg (fun s => s.toList.length) back
      simp [shape, ofPath, joinWith] at length
      omega
    | _ :: _ :: _ :: _ =>
      rw [shape] at found
      cases found
  · intro single
    rw [single]
    rfl

/-- Where a text names a column, its reference has some property. -/
def Dialect.RefersBy (d : Dialect) (text : String) (mentions : List Mention) (column : String)
    (holds : List String → Prop) : Prop :=
  ∃ refs, d.references? text = some refs ∧
    List.Forall₂ (fun x ref => x = .column column → holds ref) mentions refs

theorem Dialect.RefersBy.of_map {d : Dialect} {text : String} {mentions : List Mention}
    {column : String} {holds : List String → Prop} {refer : Mention → List String}
    (read : d.references? text = some (mentions.map refer)) (own : holds (refer (.column column))) :
    d.RefersBy text mentions column holds := by
  refine ⟨_, read, ?_⟩
  rw [List.forall₂_map_right_iff, List.forall₂_same]
  rintro _ _ rfl
  exact own

namespace Mapper

/-- Whatever defines the table refers to a property as the column of its name. What is said of
rows refers to this column exactly if there is no point in the name. -/
theorem columns_named_alike {b : Mapper} (known : b.dialect.IsKnown) (property : String) :
    (∀ text mentions, b.Writes text mentions →
      b.dialect.RefersBy text mentions property fun ref =>
        b.model.column? ref = some property ↔ '.' ∉ property.toList) ∧
    ∀ diff, ∀ s ∈ TableDiff.definitions b.dialect b.model diff,
      b.dialect.RefersBy (s.text b.dialect) (s.mentions b.dialect) property fun ref =>
        b.model.column? ref = some property := by
  constructor
  · intro text mentions writes
    exact .of_map (writes.references? known) (b.model.column?_path property)
  · intro diff s member
    have listed := diff.listed_definitions b.dialect b.model s member
    exact .of_map (Dialect.references?_definition known listed) rfl

/-- A name without points is one column everywhere. -/
theorem columns_named_alike_plain :
    let m := (Model.ofName "User").define "a`b" .number
    let column (ref : List String) : Prop := m.column? ref = some "a`b"
    Dialect.sqlite.RefersBy "UPDATE `User` SET `a``b` = 1 WHERE `id` = 7"
        [.table "User", .column "a`b", .column "id"] "a`b" column ∧
      Dialect.sqlite.RefersBy "ALTER TABLE `User` ADD COLUMN `a``b` INT(11) NULL"
        [.table "User", .column "a`b"] "a`b" column := by
  intro m column
  let b : Mapper := ⟨.sqlite, m, .grouped⟩
  let r : Record := ⟨[("id", .int 7), ("a`b", .int 1)], by decide⟩
  let diff : TableDiff := m.reconcile [keyColumn] []
  obtain ⟨rows, definitions⟩ := columns_named_alike (b := b) (.inr rfl) "a`b"
  have text : b.write (.update "User" [("a`b", .cell (.int 1))] 7) =
      "UPDATE `User` SET `a``b` = 1 WHERE `id` = 7" := by decide +kernel
  have updated : b.update r = .ok (b.write (.update "User" [("a`b", .cell (.int 1))] 7)) := rfl
  rw [text] at updated
  have altered : diff.definitions .sqlite m =
      [.alterTable "User" [.column (.add "a`b" .number)]] := by decide +kernel
  have added : (Definition.alterTable "User" [.column (.add "a`b" .number)]).text .sqlite =
      "ALTER TABLE `User` ADD COLUMN `a``b` INT(11) NULL" := by decide +kernel
  constructor
  · obtain ⟨refs, read, each⟩ := rows _ _ (.update updated)
    exact ⟨refs, read, each.imp fun x ref holds named => (holds named).mpr (by decide)⟩
  · have named := definitions diff _ (altered ▸ List.mem_singleton_self _)
    rwa [added] at named

/-- A property with a point is a column of the table that is created, and what is written to it
goes to something else. -/
theorem columns_named_apart :
    let m := (Model.ofName "User").define "meta.tag" .number
    let column (ref : List String) : Prop := m.column? ref = some "meta.tag"
    m.columns.names = ["meta.tag"] ∧
      (insert ⟨.sqlite, m, .grouped⟩ ⟨[("meta.tag", .int 1)], by decide⟩).1 =
        "INSERT INTO `User` (`meta`.`tag`) VALUES (?)" ∧
      ¬ Dialect.sqlite.RefersBy "INSERT INTO `User` (`meta`.`tag`) VALUES (?)"
        [.table "User", .column "meta.tag"] "meta.tag" column ∧
      Dialect.sqlite.RefersBy ((m.createTable m.tableName).text .sqlite)
        [.table "User", .column "id", .column "meta.tag"] "meta.tag" column := by
  intro m column
  have inserted : Dialect.sqlite.references? "INSERT INTO `User` (`meta`.`tag`) VALUES (?)" =
      some [["User"], ["meta", "tag"]] := by decide +kernel
  refine ⟨by decide, by decide +kernel, ?_, ?_⟩
  · rintro ⟨refs, read, each⟩
    rw [inserted] at read
    cases read
    obtain _ | ⟨_, _ | ⟨wrong, _⟩⟩ := each
    exact absurd (wrong rfl) (by decide)
  · have created : Dialect.sqlite.references? ((m.createTable m.tableName).text .sqlite) =
        some [["User"], ["id"], ["meta.tag"]] :=
      Dialect.references?_definition (s := m.createTable m.tableName) (.inr rfl) trivial
    refine ⟨_, created, .cons nofun (.cons nofun (.cons (fun _ => rfl) .nil))⟩

end Mapper

end SqlMapper
