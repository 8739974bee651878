import SqlMapper.Proofs.Condition.Parts
import SqlMapper.Proofs.Condition.Preservation

/-! # What equality selects

A filter asks for a value by the value itself, by the operator for equality or by a list of one
member. Under three-valued logic a comparison with NULL is unknown, and so is membership, whereas
the test for NULL never is. What two values other than NULL have to do to be equal is left open.
Then the three spellings select the same rows exactly if the value is not null: a value that is kept
as NULL without being null is equal to nothing under all of them, but null itself is tested for by
one and compared with by the others.
-/

namespace SqlMapper

open Text

/-! ## Comparisons on a row -/

/-- Whether a cell equals a literal, which is unknown if either is NULL. -/
def Truth.equality (equal : Stored → Scalar → Bool) (cell : Stored) (v : Scalar) : Truth :=
  if cell = .null ∨ v = .null then .unknown else .ofBool (equal cell v)

/-- The value of a comparison on a row, which has a cell for each column. Of comparisons other than
equality, membership and the test for NULL nothing is known here. -/
def Comparison.truth (equal : Stored → Scalar → Bool) (others : Comparison → Truth)
    (row : List String → Stored) (c : Comparison) : Truth :=
  match c.operator, c.arguments with
  | "IS", [⟨none, .null⟩] => .ofBool (row c.column = .null)
  | "=", [⟨none, v⟩] => .equality equal (row c.column) v
  | "IN", arguments =>
      .any (arguments.map fun argument => .equality equal (row c.column) argument.value)
  | _, _ => others c

theorem Truth.ofBool_eq_yes {b : Bool} : ofBool b = .yes ↔ b = true := by cases b <;> decide

section Rows

variable (equal : Stored → Scalar → Bool) (others : Comparison → Truth)
  (row : List String → Stored) (m : Model) (field : String) (v : Value)

theorem truth_isNull : (m.comparison field "IS" [.null]).truth equal others row =
    .ofBool (row (path field) = .null) := rfl

theorem truth_equals : (m.comparison field "=" [v]).truth equal others row =
    .equality equal (row (path field)) (m.scalar field v) := rfl

/-- Membership in a list of one is equality with its member. -/
theorem truth_isIn : (m.comparison field "IN" [v]).truth equal others row =
    .equality equal (row (path field)) (m.scalar field v) := by
  simp [Comparison.truth, Model.comparison, Truth.any]

theorem equality_null (cell : Stored) : Truth.equality equal cell .null = .unknown :=
  if_pos (.inr rfl)

end Rows

/-! ## Filters for a value -/

/-- A value that is no list and no object, and no pattern between slashes. -/
def Json.isScalar : Json → Bool
  | .array _ => false
  | .object _ => false
  | .string s => (slashedPattern? s).isNone
  | _ => true

/-- The ways to ask for a value. -/
inductive Spelling
  | bare
  | operator
  | list
  deriving DecidableEq, Repr

/-- The condition on a field that asks for a value. -/
def Spelling.condition : Spelling → Json → Json
  | .bare, v => v
  | .operator, v => .object [("eq", v)]
  | .list, v => .object [("in", .array [v])]

/-- The filter that asks for a value of a field. -/
def Spelling.filter (s : Spelling) (field : String) (v : Json) : Json :=
  .object [(field, s.condition v)]

/-- The test that a way to ask for a value comes to. -/
def Spelling.test (v : Json) : Spelling → Test
  | .bare => if v.isNull then .isNull else .equals (Value.ofJson v)
  | .operator => .operators [(.eq, .value (Value.ofJson v))]
  | .list => .operators [(.isIn, .list [Value.ofJson v])]

/-- The comparison that a way to ask for a value comes to. -/
def Spelling.comparison (m : Model) (field : String) (v : Json) : Spelling → Comparison
  | .bare =>
      if v.isNull then m.comparison field "IS" [.null]
      else m.comparison field "=" [Value.ofJson v]
  | .operator => m.comparison field "=" [Value.ofJson v]
  | .list => m.comparison field "IN" [Value.ofJson v]

section Filters

variable {field : String} {v : Json}

theorem Spelling.ofJson_condition (s : Spelling) (scalar : v.isScalar = true) :
    Test.ofJson (s.condition v) = .ok (s.test v) := by
  cases s with
  | bare =>
    cases v with
    | string text =>
      have plain : slashedPattern? text = none := Option.isNone_iff_eq_none.mp scalar
      simp [condition, test, Test.ofJson, plain, Json.isNull, Value.ofJson]
    | array items => cases scalar
    | object entries => cases scalar
    | _ => rfl
  | operator =>
    cases v with
    | array items => cases scalar
    | _ => rfl
  | list => rfl

theorem Spelling.condition_ne_array (s : Spelling) (scalar : v.isScalar = true)
    (items : List Json) : s.condition v ≠ .array items := by
  cases s with
  | bare =>
    rintro rfl
    cases scalar
  | operator => exact Json.noConfusion
  | list => exact Json.noConfusion

/-- A filter for a value is one test, unless its field is named like the key of branches. -/
theorem Spelling.ofJson_filter (s : Spelling) (scalar : v.isScalar = true) :
    Criteria.ofJson (s.filter field v) =
      if field = Criteria.branchesKey then .error (.invalidCondition .orNotAList)
      else .ok ⟨[(field, s.test v)], []⟩ := by
  rw [filter, Criteria.ofJson, Criteria.ofEntries.eq_3 _ _ _ _ (s.condition_ne_array scalar)]
  split
  · rfl
  · rw [s.ofJson_condition scalar]
    rfl

end Filters

/-! ## What filters are compiled to -/

/-- Criteria have a predicate that says an expression, and their text, in a dialect whose text can
be read back, is read back as this expression. -/
def Mapper.Yields (b : Mapper) (c : Criteria) (e : Expression) : Prop :=
  ∃ p, b.predicate c = .ok (some p) ∧ p.expression = e ∧
    (b.dialect.IsKnown → ∃ text, b.condition c = .ok text ∧
      (b.dialect.tokens? text.toList).bind Expression.ofClause? = some e)

/-- A filter is read as criteria that say an expression. -/
def Mapper.Compiles (b : Mapper) (filter : Json) (e : Expression) : Prop :=
  ∃ c, Criteria.ofJson filter = .ok c ∧ b.Yields c e

namespace Mapper

variable {b : Mapper} {field : String} {v : Value}

theorem yields_single {t : Test} {a : Atom} (atoms : t.atoms b.dialect b.model field = .ok [a])
    (readable : a.Readable b.dialect) : b.Yields ⟨[(field, t)], []⟩ a.expression := by
  have predicate : b.predicate ⟨[(field, t)], []⟩ = .ok (some (.atom a)) :=
    Criteria.predicate_single.mpr ⟨[a], atoms, rfl⟩
  refine ⟨_, predicate, rfl, fun known => ⟨_, condition_eq_ok.mpr ⟨_, predicate, rfl⟩, ?_⟩⟩
  have alone : Predicate.Readable b.dialect (.atom a) := fun _ member =>
    List.mem_singleton.mp member ▸ readable
  rw [Option.map_some, Option.getD_some, String.toList_ofList]
  exact Dialect.ofClause?_condition known alone .atom

theorem yields_isNull : b.Yields ⟨[(field, .isNull)], []⟩
    (.comparison (b.model.comparison field "IS" [.null])) :=
  yields_single (a := .isNull field) rfl trivial

/-- The literal of a value of a declared field is what the value is stored as. -/
theorem literal_declared (declared : (b.model.declaration? field).isSome) :
    (literal (b.model.declaration? field) v).IsCell ∧
      (literal (b.model.declaration? field) v).stored = store (b.model.declaration? field) v :=
  literal_cell fun none => by
    rw [none] at declared
    cases declared

/-- Equality is asked for by the value itself or by the operator. -/
theorem yields_equality (declared : (b.model.declaration? field).isSome) {t : Test}
    (equality : t = .equals v ∨ t = .operators [(.eq, .value v)]) :
    b.Yields ⟨[(field, t)], []⟩ (.comparison (b.model.comparison field "=" [v])) := by
  obtain ⟨cell, stored⟩ := literal_declared (v := v) declared
  let a : Atom := .compare field "=" (literal (b.model.declaration? field) v)
  have read : a.expression = .comparison (b.model.comparison field "=" [v]) := by
    rw [Atom.expression, stored]
    rfl
  rw [← read]
  rcases equality with rfl | rfl <;> exact yields_single rfl ⟨by decide, cell⟩

theorem yields_isIn (declared : (b.model.declaration? field).isSome) :
    b.Yields ⟨[(field, .operators [(.isIn, .list [v])])], []⟩
      (.comparison (b.model.comparison field "IN" [v])) := by
  obtain ⟨cell, stored⟩ := literal_declared (v := v) declared
  let a : Atom := .member field false [literal (b.model.declaration? field) v]
  have read : a.expression = .comparison (b.model.comparison field "IN" [v]) := by
    rw [Atom.expression, List.map_singleton, stored]
    rfl
  rw [← read]
  exact yields_single rfl ⟨List.cons_ne_nil _ _, by simpa using cell⟩

end Mapper

theorem Spelling.compiles {b : Mapper} {field : String} {v : Json} (s : Spelling)
    (declared : (b.model.declaration? field).isSome) (scalar : v.isScalar = true)
    (plain : field ≠ Criteria.branchesKey) :
    b.Compiles (s.filter field v) (.comparison (s.comparison b.model field v)) := by
  have read : Criteria.ofJson (s.filter field v) = .ok ⟨[(field, s.test v)], []⟩ := by
    rw [s.ofJson_filter scalar, if_neg plain]
  refine ⟨_, read, ?_⟩
  cases s with
  | bare =>
    rw [test, comparison]
    split
    · exact Mapper.yields_isNull
    · exact Mapper.yields_equality declared (.inl rfl)
  | operator => exact Mapper.yields_equality declared (.inr rfl)
  | list => exact Mapper.yields_isIn declared

/-- A value that is not null is asked for by one comparison, however it is spelled. -/
theorem Spelling.truth_comparison (s : Spelling) (m : Model) (field : String) {v : Json}
    (present : v.isNull = false) (equal : Stored → Scalar → Bool) (others : Comparison → Truth)
    (row : List String → Stored) :
    (s.comparison m field v).truth equal others row =
      .equality equal (row (path field)) (m.scalar field (Value.ofJson v)) := by
  cases s with
  | bare =>
    rw [comparison, present]
    exact truth_equals ..
  | operator => exact truth_equals ..
  | list => exact truth_isIn ..

theorem Spelling.truth_comparison_null (s : Spelling) (m : Model) (field : String)
    (equal : Stored → Scalar → Bool) (others : Comparison → Truth) (row : List String → Stored) :
    (s.comparison m field .null).truth equal others row =
      if s = .bare then .ofBool (row (path field) = .null) else .unknown := by
  cases s with
  | bare => exact truth_isNull ..
  | operator => exact (truth_equals ..).trans (equality_null ..)
  | list => exact (truth_isIn ..).trans (equality_null ..)

/-- Whichever way a value of a declared field is asked for, the filter is compiled, unless the field
is named like the key of branches, which is turned down in each of them. The rows that are selected
are the same exactly if the value is not null: a cell is then equal to what the value is stored as,
and to nothing if that is NULL. Null is asked for by itself, where it selects the cells that are
NULL, and in no other way. -/
theorem Mapper.equality_spelled_alike_iff {b : Mapper} {field : String}
    (declared : (b.model.declaration? field).isSome) {v : Json} (scalar : v.isScalar = true) :
    (field = Criteria.branchesKey → ∀ s : Spelling,
      Criteria.ofJson (s.filter field v) = .error (.invalidCondition .orNotAList)) ∧
    (field ≠ Criteria.branchesKey → ∃ e : Spelling → Expression,
      (∀ s, b.Compiles (s.filter field v) (e s)) ∧
      ∀ (equal : Stored → Scalar → Bool) (others : Comparison → Truth),
        let truth s row := (e s).truth (Comparison.truth equal others row)
        ((∀ s t row, truth s row = .yes ↔ truth t row = .yes) ↔ v.isNull = false) ∧
        (v.isNull = false → ∀ s row, truth s row =
          .equality equal (row (path field)) (b.model.scalar field (Value.ofJson v))) ∧
        (v.isNull = true → ∀ s row, truth s row =
          if s = .bare then .ofBool (row (path field) = .null) else .unknown)) := by
  refine ⟨fun named s => ?_, fun plain => ⟨fun s => .comparison (s.comparison b.model field v),
    fun s => s.compiles declared scalar plain, fun equal others => ?_⟩⟩
  · rw [s.ofJson_filter scalar, if_pos named]
  · have present (shown : v.isNull = false) (s : Spelling) (row : List String → Stored) :=
      s.truth_comparison b.model field shown equal others row
    have absent (null : v.isNull = true) (s : Spelling) (row : List String → Stored) :
        (s.comparison b.model field v).truth equal others row =
          if s = .bare then .ofBool (row (path field) = .null) else .unknown := by
      cases v with
      | null => exact s.truth_comparison_null b.model field equal others row
      | _ => cases null
    refine ⟨⟨fun alike => ?_, fun shown s t row => ?_⟩, present, absent⟩
    · -- A row without a value in the field tells the test for NULL from the comparison with it.
      by_contra null
      rw [Bool.not_eq_false] at null
      have same := alike .bare .operator fun _ => .null
      simp only [Expression.truth, absent null] at same
      exact absurd (same.mp (by decide)) (by decide)
    · simp only [Expression.truth, present shown]

/-- A blank text is stored in a date column as NULL, and is equal to no cell, however it is asked
for. -/
theorem equality_spelled_alike_blank :
    let b : Mapper := ⟨.sqlite, (Model.ofName "User").define "born" .date, .grouped⟩
    let blank : Json := .string " "
    (b.model.declaration? "born").isSome ∧ blank.isScalar = true ∧ blank.isNull = false ∧
      "born" ≠ Criteria.branchesKey ∧ ∃ e : Spelling → Expression,
        (∀ s, b.Compiles (s.filter "born" blank) (e s)) ∧
        ∀ equal others s row, (e s).truth (Comparison.truth equal others row) = .unknown := by
  intro b blank
  have declared : (b.model.declaration? "born").isSome := rfl
  have scalar : blank.isScalar = true := rfl
  have plain : "born" ≠ Criteria.branchesKey := by decide
  have stored : b.model.scalar "born" (Value.ofJson blank) = .null := by decide +kernel
  obtain ⟨e, compiles, truth⟩ := (Mapper.equality_spelled_alike_iff declared scalar).2 plain
  refine ⟨declared, scalar, rfl, plain, e, compiles, fun equal others s row => ?_⟩
  have unknown := (truth equal others).2.1 rfl s row
  rwa [stored, equality_null] at unknown

/-- Null is tested for by itself and compared with by the operator and in the list, so that a row
without a value is selected by the first filter alone. -/
theorem null_spelled_apart :
    let b : Mapper := ⟨.sqlite, (Model.ofName "User").define "name" .string, .grouped⟩
    let read (text : String) := (b.dialect.tokens? text.toList).bind Expression.ofClause?
    ∃ isNull equals isIn,
      Criteria.ofJson (.object [("name", .null)]) = .ok isNull ∧
      Criteria.ofJson (.object [("name", .object [("eq", .null)])]) = .ok equals ∧
      Criteria.ofJson (.object [("name", .object [("in", .array [.null])])]) = .ok isIn ∧
      b.condition isNull = .ok "WHERE `name` IS NULL" ∧
      b.condition equals = .ok "WHERE `name` = NULL" ∧
      b.condition isIn = .ok "WHERE `name` IN (NULL)" ∧
      ∃ e f g, read "WHERE `name` IS NULL" = some e ∧ read "WHERE `name` = NULL" = some f ∧
        read "WHERE `name` IN (NULL)" = some g ∧ ∀ equal others,
          let row := Comparison.truth equal others fun _ => .null
          e.truth row = .yes ∧ f.truth row = .unknown ∧ g.truth row = .unknown :=
  ⟨_, _, _, rfl, rfl, rfl, rfl, rfl, rfl, _, _, _, rfl, rfl, rfl, fun _ _ => ⟨rfl, rfl, rfl⟩⟩

end SqlMapper
