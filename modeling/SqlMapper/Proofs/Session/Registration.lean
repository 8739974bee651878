import SqlMapper.Proofs.Model.Reading
import SqlMapper.Proofs.Schema.Creation
import SqlMapper.Proofs.Session.Registry
import SqlMapper.Proofs.Session.Request
import SqlMapper.Proofs.Session.Separation

/-! # The course of the registered models

Definitions come in any order, and some of them fail. What is registered under a name is followed on
its own: only a definition under the name replaces it, only a declaration under the name changes it,
and a declaration fails only where there is nothing yet. So what counts is the last definition and
the declarations since. Declarations fill the properties of a model one after the other, before it
is registered and after, so that the properties are those of all declarations together.
-/

namespace SqlMapper

open Json

/-! ## Declarations -/

namespace Model

/-- Declares properties one after the other. -/
def defineAll (m : Model) (declared : Entries Property) : Model :=
  declared.foldl (fun m entry => m.define entry.1 entry.2) m

/-- The ways in which models are made, with the declarations that they are made of. -/
inductive IsMade : Model → Entries Property → Prop
  | new (name : String) : IsMade (ofName name) []
  | withTable {m declared} (made : IsMade m declared) (table : String) :
      IsMade (m.withTable table) declared
  | define {m declared} (made : IsMade m declared) (name : String) (p : Property) :
      IsMade (m.define name p) (declared ++ [(name, p)])
  | read {origin doc m declared} (decoded : decode origin doc = .ok m)
      (spelled : SpellsProperties origin (declaring doc) declared) : IsMade m declared

variable {m : Model} {declared : Entries Property}

theorem entries_defineAll (m : Model) (declared : Entries Property) :
    (m.defineAll declared).properties.entries = Entries.putAll m.properties.entries declared := by
  induction declared generalizing m with
  | nil => rfl
  | cons first rest ih => exact ih (m.define first.1 first.2)

theorem IsMade.entries_eq (made : m.IsMade declared) :
    m.properties.entries = Entries.putAll [] declared := by
  induction made with
  | new name => rfl
  | withTable made table ih => exact ih
  | @define m declared made name p ih =>
    rw [Entries.putAll_append, ← ih]
    rfl
  | @read _ _ m declared decoded spelled =>
    have same : declared = m.properties.entries :=
      spelled.eq (decode_eq_ok_iff.mp decoded).spellsProperties
    have distinct : (Entries.names ([] ++ m.properties.entries)).Nodup := m.properties.distinct
    rw [same]
    exact (Entries.putAll_of_distinct distinct).symm

/-- A declaration is in its place by its first occurrence and says what its last one says. -/
theorem IsMade.properties_defineAll (made : m.IsMade declared) (later : Entries Property) :
    (m.defineAll later).properties.names = (declared ++ later).names.eraseDups ∧
      ∀ property, (m.defineAll later).get? property =
        Entries.get? property (declared ++ later).reverse := by
  have entries : (m.defineAll later).properties.entries =
      Entries.putAll [] (declared ++ later) := by
    rw [entries_defineAll, made.entries_eq, Entries.putAll_append]
  refine ⟨?_, fun property => ?_⟩
  · rw [Keyed.names, entries, Entries.names_putAll]
    simp [Entries.names, List.removeAll]
  · rw [Model.get?, Keyed.get?, entries, Entries.get?_putAll]
    exact Option.or_none

/-- The properties other than the key, each of them once. -/
def ListsColumns (m : Model) (names : List String) : Prop :=
  names.Nodup ∧ ∀ property, property ∈ names ↔ property ∈ m.properties.names ∧ property ≠ idName

theorem listsColumns (m : Model) : m.ListsColumns m.columns.names := by
  have names : m.columns.names = m.properties.names.filter (· != idName) := by
    rw [Keyed.names, Entries.names, Entries.names, List.filter_map]
    rfl
  rw [names]
  exact ⟨m.properties.distinct.filter _, fun property => by simp⟩

end Model

/-! ## Definitions -/

namespace Session

namespace Act

/-- What is declared under a name. -/
def declaration? (name : String) : Act → Option (String × Property)
  | .defineProperty other property p => if other = name then some (property, p) else none
  | .define _ | .request _ => none

/-- What is registered under a name after an act. -/
def modelAfter (name : String) (before : Option Model) : Act → Option Model
  | .define m => if m.name = name then some m else before
  | .defineProperty other property p =>
      if other = name then before.map (·.define property p) else before
  | .request _ => before

end Act

/-- The last model that is defined under a name, and the acts since. -/
structure LastDefined (name : String) (acts : List Act) (base : Model) (later : List Act) :
    Prop where
  named : base.name = name
  split : ∃ before, acts = before ++ .define base :: later
  last : ∀ m, Act.define m ∈ later → m.name ≠ name

section Course

variable {s : Session} {db : Database} {acts later : List Act} {name : String} {m base : Model}

theorem defineProperty_of_some (found : s.registry.get? name = some m) (property : String)
    (p : Property) : s.defineProperty name property p = .ok (s.define (m.define property p)) := by
  rw [defineProperty, model, found]
  rfl

/-- What is not registered cannot be added to. -/
theorem defineProperty_of_none (unknown : s.registry.get? name = none) (property : String)
    (p : Property) : s.defineProperty name property p = .error (.unknownModel name) := by
  rw [defineProperty, model, unknown]
  rfl

theorem get?_act (db : Database) (s : Session) (first : Act) (name : String) :
    (act db s first).1.registry.get? name = first.modelAfter name (s.registry.get? name) := by
  cases first with
  | define m => exact s.registry.get?_define m name
  | request asked => rfl
  | defineProperty other property p =>
    rw [act, Act.modelAfter]
    cases found : s.registry.get? other with
    | none =>
      rw [defineProperty_of_none found]
      split
      · next same =>
        rw [← same, found]
        exact found
      · rfl
    | some m =>
      have named : (m.define property p).name = other := (Registry.get?_eq_some_iff.mp found).2
      rw [defineProperty_of_some found]
      refine (s.registry.get?_define (m.define property p) name).trans ?_
      rw [named]
      split
      · next same =>
        rw [← same, found]
        rfl
      · rfl

theorem dialect_act (db : Database) (s : Session) (first : Act) :
    (act db s first).1.dialect = s.dialect := by
  cases first with
  | define m => rfl
  | defineProperty name property p =>
    rw [act, defineProperty]
    cases s.model name <;> rfl
  | request asked => rfl

theorem dialect_course (db : Database) (s : Session) (acts : List Act) :
    (course db s acts).1.dialect = s.dialect := by
  induction acts generalizing s with
  | nil => rfl
  | cons first rest ih => exact (ih _).trans (dialect_act db s first)

theorem get?_course (db : Database) (s : Session) (acts : List Act) (name : String) :
    (course db s acts).1.registry.get? name =
      acts.foldl (Act.modelAfter name) (s.registry.get? name) := by
  induction acts generalizing s with
  | nil => rfl
  | cons first rest ih =>
    rw [List.foldl_cons, ← get?_act db]
    exact ih _

/-- Without a definition only the declarations matter. -/
theorem foldl_modelAfter (others : ∀ m, Act.define m ∈ acts → m.name ≠ name)
    (before : Option Model) : acts.foldl (Act.modelAfter name) before =
      before.map (·.defineAll (acts.filterMap (Act.declaration? name))) := by
  induction acts generalizing before with
  | nil => simp [Model.defineAll]
  | cons first rest ih =>
    have rest_others : ∀ m, Act.define m ∈ rest → m.name ≠ name :=
      fun m member => others m (List.mem_cons_of_mem _ member)
    rw [List.foldl_cons, ih rest_others]
    cases first with
    | define m =>
      rw [Act.modelAfter, if_neg (others m List.mem_cons_self), List.filterMap_cons_none rfl]
    | request asked => rfl
    | defineProperty other property p =>
      by_cases same : other = name
      · have declared : Act.declaration? name (.defineProperty other property p) =
            some (property, p) := if_pos same
        rw [Act.modelAfter, if_pos same, List.filterMap_cons_some declared, Option.map_map]
        rfl
      · have foreign : Act.declaration? name (.defineProperty other property p) = none :=
          if_neg same
        rw [Act.modelAfter, if_neg same, List.filterMap_cons_none foreign]

/-- A name is defined a last time, or never. -/
theorem exists_lastDefined (name : String) (acts : List Act) :
    (∃ base later, LastDefined name acts base later) ∨
      ∀ m, Act.define m ∈ acts → m.name ≠ name := by
  induction acts with
  | nil => exact .inr nofun
  | cons first rest ih =>
    rcases ih with ⟨base, later, named, ⟨before, rfl⟩, last⟩ | never
    · exact .inl ⟨base, later, named, ⟨first :: before, rfl⟩, last⟩
    · by_cases defined : ∃ m, first = .define m ∧ m.name = name
      · obtain ⟨m, rfl, named⟩ := defined
        exact .inl ⟨m, rest, named, ⟨[], rfl⟩, never⟩
      · refine .inr fun m member => ?_
        rcases List.mem_cons.mp member with same | member
        · exact fun named => defined ⟨m, same.symm, named⟩
        · exact never m member

theorem LastDefined.foldl_modelAfter (defined : LastDefined name acts base later)
    (before : Option Model) : acts.foldl (Act.modelAfter name) before =
      some (base.defineAll (later.filterMap (Act.declaration? name))) := by
  obtain ⟨named, ⟨front, rfl⟩, last⟩ := defined
  rw [List.foldl_append, List.foldl_cons, Act.modelAfter, if_pos named,
    Session.foldl_modelAfter last, Option.map_some]

/-- What is registered under a name is what was defined last, with what was declared since. -/
theorem model_course_iff (d : Dialect) (settings : Settings) (db : Database) :
    (course db { dialect := d, settings } acts).1.model name = .ok m ↔
      ∃ base later, LastDefined name acts base later ∧
        m = base.defineAll (later.filterMap (Act.declaration? name)) := by
  have nothing : Registry.empty.get? name = none := rfl
  rw [model_eq_ok_iff, models, ← Registry.get?_eq_some_iff, get?_course, nothing]
  constructor
  · intro found
    rcases exists_lastDefined name acts with ⟨base, later, defined⟩ | never
    · rw [defined.foldl_modelAfter] at found
      exact ⟨base, later, defined, (Option.some.inj found).symm⟩
    · rw [foldl_modelAfter never] at found
      cases found
  · rintro ⟨base, later, defined, rfl⟩
    exact defined.foldl_modelAfter none

end Course

end Session

/-! ## Created tables -/

theorem TableDiff.columns_of_createTable {d : Dialect} {m : Model} {diff : TableDiff}
    {table : String} {columns : Entries Property}
    (member : .createTable table columns ∈ diff.definitions d m) : columns = m.columns := by
  have not_index (change : IndexChange) :
      change.definition m.tableName ≠ .createTable table columns := by
    cases change <;> nofun
  have not_alteration : .createTable table columns ∉
      alterations d.alteration m.tableName diff.columns := by
    cases d.alteration with
    | joined => by_cases none : diff.columns.isEmpty <;> simp [alterations, none]
    | separate => simp [alterations]
  rcases diff.definitions_cases d m with done | done
  · rw [done] at member
    simp only [inPlace, List.mem_append, List.mem_map, not_index, and_false, exists_false,
      not_alteration, or_false] at member
    split at member
    · cases List.mem_singleton.mp member
      rfl
    · cases member
  · rw [done] at member
    simp only [rebuild, List.mem_append, List.mem_cons, List.mem_map, not_index, and_false,
      exists_false, List.not_mem_nil, reduceCtorEq, or_false, false_or, Model.createTable] at member
    rcases member with same | copied
    · cases same
      rfl
    · split at copied <;> simp at copied

namespace Migration

variable {kind : Migration} {s : Session} {db : Database} {m : Model}

/-- All tables that are made for a model are made with its columns. -/
theorem exists_creations (kind : Migration) (s : Session) (db : Database) (m : Model) :
    ∃ script : List Definition,
      kind.statements s db m = script.map (Definition.text s.dialect) ∧
      (∀ definition ∈ script, definition.Listed) ∧
      ∀ table columns, .createTable table columns ∈ script → columns = m.columns := by
  obtain ⟨script, written, listed, cases⟩ := kind.exists_definitions s db m
  refine ⟨script, written, listed, fun table columns member => ?_⟩
  rcases cases with rfl | rfl | ⟨live, indexes, rfl⟩
  · cases member
  · rcases List.mem_cons.mp member with same | member
    · cases same
    · exact TableDiff.columns_of_createTable member
  · exact TableDiff.columns_of_createTable member

/-- A text that makes a table is read as one that lists the key and the columns of the model. -/
theorem names_of_creation (known : s.dialect.IsKnown) {sql : String}
    (sent : sql ∈ kind.statements s db m) {table : String} {columns : List LiveColumn}
    (creates : Command.ofText? s.dialect sql = some (.createTable table columns)) :
    columns.map LiveColumn.name = idName :: m.columns.names := by
  obtain ⟨script, written, listed, created⟩ := kind.exists_creations s db m
  rw [written] at sent
  obtain ⟨definition, member, rfl⟩ := List.mem_map.mp sent
  rw [Command.ofText?_definition known (listed definition member)] at creates
  cases definition with
  | createTable name declared =>
    cases creates
    rw [created _ declared member, List.map_cons, List.map_map]
    rfl
  | _ => cases creates

end Migration

/-! ## Whatever was defined -/

namespace Session

/-- After any acts the models ascend by name, and each is found under its own name. It is the one
defined last with what was declared since, its properties are all declarations from its making on,
a repeated one in its first place and as it was declared last, and every table made for it lists
each of them but the key once. A declaration for a name without a model is refused and changes
nothing. -/
theorem registry_well_formed (d : Dialect) (settings : Settings) (db : Database)
    (acts : List Act) :
    let s := (course db { dialect := d, settings } acts).1
    s.models.Pairwise (fun m other => m.name < other.name) ∧
    (∀ name m, s.model name = .ok m ↔ m ∈ s.models ∧ m.name = name) ∧
    (∀ name m, s.model name = .ok m ↔ ∃ base later, LastDefined name acts base later ∧
      m = base.defineAll (later.filterMap (Act.declaration? name))) ∧
    (∀ m ∈ s.models, m.properties.names.Nodup ∧
      ∀ base later declared, LastDefined m.name acts base later → base.IsMade declared →
        let all := declared ++ later.filterMap (Act.declaration? m.name)
        m.properties.names = all.names.eraseDups ∧
          ∀ property, m.get? property = Entries.get? property all.reverse) ∧
    (∀ name property p,
      (∀ m, s.model name = .ok m →
        s.defineProperty name property p = .ok (s.define (m.define property p))) ∧
      ((∀ m ∈ s.models, m.name ≠ name) →
        s.defineProperty name property p = .error (.unknownModel name) ∧
          (act db s (.defineProperty name property p)).1 = s)) ∧
    ∀ m ∈ s.models, ∀ (kind : Migration) (db : Database),
      (∃ script : List Definition, kind.statements s db m = script.map (Definition.text d) ∧
        ∀ table columns, .createTable table columns ∈ script →
          columns = m.columns ∧ m.ListsColumns columns.names) ∧
      (d.IsKnown → ∀ sql ∈ kind.statements s db m, ∀ table columns,
        Command.ofText? d sql = some (.createTable table columns) →
          ∃ names, columns.map LiveColumn.name = idName :: names ∧ m.ListsColumns names) := by
  intro s
  have dialect : s.dialect = d := dialect_course db _ acts
  refine ⟨s.registry.ascending, fun name m => model_eq_ok_iff,
    fun name m => model_course_iff d settings db, fun m member => ⟨m.properties.distinct, ?_⟩,
    fun name property p => ⟨fun m found => ?_, fun unknown => ?_⟩,
    fun m member kind db => ⟨?_, ?_⟩⟩
  · intro base later declared defined made
    have found : s.model m.name = .ok m := model_eq_ok_iff.mpr ⟨member, rfl⟩
    have last : s.model m.name = .ok (base.defineAll _) :=
      (model_course_iff d settings db).mpr ⟨base, later, defined, rfl⟩
    have same := Except.ok.inj (found.symm.trans last)
    generalize later.filterMap (Act.declaration? m.name) = since at same ⊢
    rw [same]
    exact made.properties_defineAll since
  · have registered := Registry.get?_eq_some_iff.mpr (model_eq_ok_iff.mp found)
    exact defineProperty_of_some registered property p
  · have none : s.registry.get? name = none := by
      cases found : s.registry.get? name with
      | none => rfl
      | some m =>
        obtain ⟨member, named⟩ := Registry.get?_eq_some_iff.mp found
        exact absurd named (unknown m member)
    have refused := defineProperty_of_none none property p
    refine ⟨refused, ?_⟩
    rw [act, refused]
    rfl
  · obtain ⟨script, written, _, created⟩ := kind.exists_creations s db m
    rw [dialect] at written
    refine ⟨script, written, fun table columns member => ?_⟩
    obtain rfl := created table columns member
    exact ⟨rfl, m.listsColumns⟩
  · intro known sql sent table columns creates
    rw [← dialect] at known creates
    exact ⟨_, Migration.names_of_creation known sent creates, m.listsColumns⟩

/-- A declaration that comes too early, a definition that is replaced by one that is read, a request
and a declaration for another name. The property that was read is declared again. -/
theorem registry_well_formed_mixed :
    let declared := Doc.object [("b", .array [.string "Text"] .closed)] .closed
    let doc := Doc.array [.string "U", .string "users", declared] .closed
    let base := ((Model.ofName "U").withTable "users").define "b" Property.text
    let later : List Act :=
      [.request (.count "U" none), .defineProperty "U" "a" Property.date,
        .defineProperty "Z" "c" Property.date, .define (Model.ofName "T"),
        .defineProperty "U" "b" Property.number]
    let acts : List Act :=
      .defineProperty "U" "c" Property.text ::
        .define ((Model.ofName "U").define "d" Property.text) :: .define base :: later
    let db := Script.database []
    let s := (course db { dialect := .sqlite, settings := {} } acts).1
    let sql := "CREATE TABLE `users` (\n  `id` INTEGER PRIMARY KEY,\n  `b` INT(11) NULL,\n" ++
      "  `a` DATETIME NULL\n)"
    ∃ m, Model.decode .text doc = .ok base ∧ s.models.map Model.name = ["T", "U"] ∧
      s.model "U" = .ok m ∧
      m.properties.names = ["b", "a"] ∧ m.get? "b" = some Property.number ∧
      s.defineProperty "Z" "c" Property.date = .error (.unknownModel "Z") ∧
      sql ∈ Migration.automigrate.statements s db m ∧
      ∃ columns, Command.ofText? .sqlite sql = some (.createTable "users" columns) ∧
        ∃ names, columns.map LiveColumn.name = idName :: names ∧ m.ListsColumns names := by
  intro declared doc base later acts db s sql
  let m := (base.define "a" Property.date).define "b" Property.number
  obtain ⟨_, _, model, properties, declaring, creating⟩ :=
    registry_well_formed .sqlite {} db acts
  have defined : LastDefined "U" acts base later :=
    ⟨rfl, ⟨[_, _], rfl⟩, by simp [later, Model.ofName]⟩
  have found : s.model "U" = .ok m := (model "U" m).mpr ⟨base, later, defined, rfl⟩
  have decoded : Model.decode .text doc = .ok base := by
    rw [← toOption_eq_some_iff]
    decide +kernel
  have made : base.IsMade [("b", Property.text)] :=
    .read decoded (.object (.cons ⟨rfl, rfl⟩ .nil))
  have member : m ∈ s.models := (model_eq_ok_iff.mp found).1
  have told := (properties m member).2 base later _ defined made
  have known : Dialect.sqlite.IsKnown := .inr rfl
  have sent : sql ∈ Migration.automigrate.statements s db m := by decide +kernel
  have written : (m.createTable "users").text .sqlite = sql := by decide +kernel
  have created := Command.ofText?_definition (s := m.createTable "users") known trivial
  rw [written] at created
  exact ⟨m, decoded, by decide, found, told.1, told.2 "b",
    ((declaring "Z" "c" Property.date).2 (by decide)).1, sent, _, created,
    (creating m member .automigrate db).2 known sql sent _ _ created⟩

end Session

end SqlMapper
