import SqlMapper.Proofs.Calendar.Reading
import SqlMapper.Proofs.Condition.Refusal
import SqlMapper.Proofs.Lexis.Reference

/-! # Fields with the name of their table

The name of a table before a field says the same column, but it is a name of its own to the
declarations, and most models have none for it. So what is compared with such a field is written
without regard to how the field was declared: text stands in the condition as it is, other values as
they are kept without a declaration, and a range of dates loses its function. The condition is that
of the field alone just where this makes no difference.
-/

namespace SqlMapper

open Text

/-- A field with the name of the table before it. -/
def Model.qualified (m : Model) (field : String) : String := m.tableName ++ "." ++ field

/-! ## The same condition on another column -/

namespace Atom

/-- The same operator and literals on another column. -/
def onto (column : String) : Atom → Atom
  | .isNull _ => .isNull column
  | .compare _ token value => .compare column token value
  | .member _ negated values => .member column negated values
  | .range _ function low high => .range column function low high
  | .constant holds => .constant holds

def literals : Atom → List Literal
  | .compare _ _ value => [value]
  | .member _ _ values => values
  | .range _ _ low high => [low, high]
  | _ => []

end Atom

/-- The same predicate on another column. -/
def Predicate.onto (column : String) : Predicate → Predicate
  | .atom a => .atom (a.onto column)
  | .paren p => .paren (p.onto column)
  | .and p q => .and (p.onto column) (q.onto column)
  | .or p q => .or (p.onto column) (q.onto column)

/-! ## What tests come to, whatever the field -/

/-- The values of an operator that are written by a declaration; a pattern is not. -/
def Operator.compared (op : Operator) (operand : Operand) : List Value :=
  if op = .regex then [] else operand.values

namespace Test

/-- The values of a test that are written by a declaration. -/
def compared : Test → List Value
  | .equals v => [v]
  | .operators ops => ops.flatMap fun op => op.1.compared op.2
  | _ => []

/-- A test asks for a range. -/
def IsRange : Test → Prop
  | .operators ops => ∃ op ∈ ops, op.1 = .between
  | _ => False

end Test

/-- A field that holds dates. -/
def IsDated (declared : Option Property) : Prop := declared.map Property.kind = some .date

instance (declared : Option Property) : Decidable (IsDated declared) :=
  inferInstanceAs (Decidable (declared.map Property.kind = some .date))

/-- An atom without its field, and with values instead of literals. -/
inductive Shape
  | isNull
  | pattern (text : String)
  | compare (token : String) (v : Value)
  | member (negated : Bool) (vs : List Value)
  | range (low high : Value)
  | constant (holds : Bool)

namespace Shape

/-- The atom on a field. -/
def on (d : Dialect) (field : String) (declared : Option Property) : Shape → Atom
  | .isNull => .isNull field
  | .pattern text => .compare field "REGEXP" (.cell (.text text))
  | .compare token v => .compare field token (literal declared v)
  | .member negated vs => .member field negated (vs.map (literal declared))
  | .range low high =>
      .range field (if IsDated declared then some d.dateFunction else none) (literal declared low)
        (literal declared high)
  | .constant holds => .constant holds

def values : Shape → List Value
  | .compare _ v => [v]
  | .member _ vs => vs
  | .range low high => [low, high]
  | _ => []

def IsRange : Shape → Prop
  | .range _ _ => True
  | _ => False

end Shape

section Shapes

variable {d : Dialect} {field column : String} {declared declared' : Option Property}
  {op : Operator} {operand : Operand} {t : Test} {s : Shape}

/-- An operator that is not malformed has a shape, whatever its field. -/
theorem Operator.exists_shape (sound : ¬ op.Malformed operand) :
    ∃ s : Shape, (∀ d field declared,
        operatorAtom d field declared op operand = .ok (s.on d field declared)) ∧
      s.values = op.compared operand ∧ (s.IsRange ↔ op = .between) := by
  have refuses : Refuses (operatorAtom .generic "" none op operand) (op.Malformed operand) :=
    operatorAtom_refuses op operand
  obtain ⟨a, accepted⟩ := refuses.ok_iff.mpr sound
  cases op with
  | isIn =>
    rcases operand with v | (_ | ⟨v, vs⟩)
    · exact ⟨.member false [v], fun _ _ _ => rfl, rfl, iff_of_false id (by simp)⟩
    · exact ⟨.constant false, fun _ _ _ => rfl, rfl, iff_of_false id (by simp)⟩
    · exact ⟨.member false (v :: vs), fun _ _ _ => rfl, rfl, iff_of_false id (by simp)⟩
  | notIn =>
    rcases operand with v | (_ | ⟨v, vs⟩)
    · exact ⟨.member true [v], fun _ _ _ => rfl, rfl, iff_of_false id (by simp)⟩
    · exact ⟨.constant true, fun _ _ _ => rfl, rfl, iff_of_false id (by simp)⟩
    · exact ⟨.member true (v :: vs), fun _ _ _ => rfl, rfl, iff_of_false id (by simp)⟩
  | between =>
    rcases operand with v | (_ | ⟨low, _ | ⟨high, _ | ⟨more, vs⟩⟩⟩)
    case list.cons.cons.nil =>
      exact ⟨.range low high, fun _ _ _ => rfl, rfl, fun _ => rfl, fun _ => trivial⟩
    all_goals cases accepted
  | regex =>
    rcases operand with v | vs
    · cases v
      case text s =>
        obtain ⟨valid, _⟩ := matchAtom_eq_ok.mp accepted
        exact ⟨.pattern ((slashedPattern? s).getD s),
          fun _ _ _ => matchAtom_eq_ok.mpr ⟨valid, rfl⟩, rfl, iff_of_false id (by simp)⟩
      all_goals cases accepted
    · cases accepted
  | other key =>
    cases operand with
    | list vs => cases accepted
    | value v =>
      simp only [operatorAtom] at accepted
      split at accepted
      · next token found =>
        refine ⟨.compare token v, fun _ _ _ => ?_, rfl, iff_of_false id (by simp)⟩
        simp only [operatorAtom, found]
        rfl
      · cases accepted
  | _ =>
    cases operand with
    | list vs => cases accepted
    | value v => exact ⟨.compare _ v, fun _ _ _ => rfl, rfl, iff_of_false id (by simp)⟩

theorem Test.exists_shapes_operators {ops : List (Operator × Operand)}
    (sound : ∀ op ∈ ops, ¬ op.1.Malformed op.2) :
    ∃ shapes : List Shape,
      (∀ d m field, (operators ops).atoms d m field =
        .ok (shapes.map fun s => s.on d field (m.declaration? field))) ∧
      shapes.flatMap Shape.values = (operators ops).compared ∧
      ((operators ops).IsRange ↔ ∃ s ∈ shapes, s.IsRange) := by
  induction ops with
  | nil => exact ⟨[], fun _ _ _ => rfl, rfl, by simp [IsRange]⟩
  | cons op ops ih =>
    obtain ⟨own, others⟩ := List.forall_mem_cons.mp sound
    obtain ⟨s, atom, values, range⟩ := Operator.exists_shape own
    obtain ⟨shapes, atoms, more, ranges⟩ := ih others
    refine ⟨s :: shapes, fun d m field => ?_, ?_, ?_⟩
    · have rest := atoms d m field
      simp only [Test.atoms] at rest ⊢
      rw [List.mapM_cons, atom, rest]
      rfl
    · rw [List.flatMap_cons, values, more]
      rfl
    · simp only [IsRange] at ranges ⊢
      simp [range, ranges]

/-- A test that is not malformed has shapes, whatever its field. -/
theorem Test.exists_shapes (sound : ¬ t.Malformed) :
    ∃ shapes : List Shape,
      (∀ d m field, t.atoms d m field =
        .ok (shapes.map fun s => s.on d field (m.declaration? field))) ∧
      shapes.flatMap Shape.values = t.compared ∧ (t.IsRange ↔ ∃ s ∈ shapes, s.IsRange) := by
  cases t with
  | isNull => exact ⟨[.isNull], fun _ _ _ => rfl, rfl, by simp [IsRange, Shape.IsRange]⟩
  | equals v => exact ⟨[.compare "=" v], fun _ _ _ => rfl, rfl, by simp [IsRange, Shape.IsRange]⟩
  | regex pattern =>
    have valid := Bool.of_not_eq_false fun rejected => sound (.regex rejected)
    refine ⟨[.pattern pattern], fun d m field => ?_, rfl, by simp [IsRange, Shape.IsRange]⟩
    rw [atoms, matchAtom_eq_ok.mpr ⟨valid, rfl⟩]
    rfl
  | operators ops =>
    exact exists_shapes_operators fun op member malformed => sound (.operators member malformed)

/-! ## Two declarations -/

/-- Two declarations write a test alike: its values as the same literals, and its ranges with the
same function. -/
def Test.Alike (declared declared' : Option Property) (t : Test) : Prop :=
  (∀ v ∈ t.compared, literal declared v = literal declared' v) ∧
    (t.IsRange → (IsDated declared ↔ IsDated declared'))

theorem Shape.on_eq_onto :
    s.on d column declared' = (s.on d field declared).onto column ↔
      (∀ v ∈ s.values, literal declared' v = literal declared v) ∧
        (s.IsRange → (IsDated declared' ↔ IsDated declared)) := by
  cases s with
  | range low high =>
    have functions : (if IsDated declared' then some d.dateFunction else none) =
        (if IsDated declared then some d.dateFunction else none) ↔
          (IsDated declared' ↔ IsDated declared) := by
      by_cases first : IsDated declared' <;> by_cases second : IsDated declared <;>
        simp [first, second]
    simp only [on, Atom.onto, values, IsRange, Atom.range.injEq, true_and, functions,
      List.forall_mem_cons, List.not_mem_nil, false_imp_iff, implies_true, and_true, true_imp_iff]
    rw [and_comm]
  | _ => simp [on, Atom.onto, values, IsRange]

/-- Shapes come to the same on two fields exactly if the declarations of these write them alike. -/
theorem Shape.map_on_eq_onto {shapes : List Shape} :
    (shapes.map fun s => s.on d column declared') =
        (shapes.map fun s => s.on d field declared).map (Atom.onto column) ↔
      (∀ v ∈ shapes.flatMap values, literal declared' v = literal declared v) ∧
        ((∃ s ∈ shapes, s.IsRange) → (IsDated declared' ↔ IsDated declared)) := by
  rw [List.map_map, List.map_inj_left]
  simp only [Function.comp_apply, on_eq_onto, List.mem_flatMap]
  constructor
  · intro each
    refine ⟨?_, ?_⟩
    · rintro v ⟨s, member, inside⟩
      exact (each s member).1 v inside
    · rintro ⟨s, member, range⟩
      exact (each s member).2 range
  · rintro ⟨literals, functions⟩ s member
    exact ⟨fun v inside => literals v ⟨s, member, inside⟩,
      fun range => functions ⟨s, member, range⟩⟩

theorem Shape.literals_on (s : Shape) :
    s.values.map (literal declared) ⊆ (s.on d field declared).literals := by
  cases s <;> simp [values, on, Atom.literals]

theorem Shape.isCell_on {p : Property} (s : Shape) :
    ∀ l ∈ (s.on d field (some p)).literals, l.IsCell := by
  have cell (v : Value) : (literal (some p) v).IsCell := by cases v <;> rfl
  cases s with
  | pattern text =>
    have quoted : (Literal.cell (.text text)).IsCell := rfl
    simpa [on, Atom.literals] using quoted
  | _ => simp [on, Atom.literals, cell]

end Shapes

/-! ## Values that need no declaration -/

/-- A column of this kind holds a value as it would be without a declaration. The literal of a text
is quoted in any column, which it is not without one. -/
def Kind.Keeps : Kind → Value → Prop
  | _, .null => True
  | _, .text _ => False
  | .number, _ => True
  | .boolean, .bool _ => True
  | .boolean, .int n => n = 0 ∨ n = 1
  | .json, .json _ => True
  | .date, .date _ | .date, .json _ => True
  | .string, .date _ | .string, .json _ | .string, .blob _ => True
  | .text, .date _ | .text, .json _ | .text, .blob _ => True
  | _, _ => False

section Keeping

variable {p : Property} {v : Value}

theorem quote_notMem_storedChars (t : Instant) : '"' ∉ t.storedChars := by
  have digits (width n : Nat) : '"' ∉ paddedDigits width n := fun member =>
    absurd (allDigits_paddedDigits width n _ member) (by decide)
  have year : '"' ∉ yearChars t.date.year := by
    rw [yearChars]
    split
    · exact digits _ _
    · split <;> simp [digits]
  simp [Instant.storedChars, Date.chars, Instant.clockChars, year, digits]

/-- A document of an instant is a text between quotes. -/
theorem jsonText_ne_stored (t : Instant) : (Json.string t.internet).text ≠ t.stored := by
  intro same
  have chars : (Json.string t.internet).chars = t.storedChars := String.ofList_injective same
  exact quote_notMem_storedChars t (chars ▸ List.mem_cons_self)

theorem store_eq_plain_iff (notText : v.text? = none) :
    store (some p) v = v.plain ↔ p.kind.Keeps v := by
  cases kind : p.kind with
  | number =>
    cases v with
    | text s => cases notText
    | _ => simp [store, Value.isNull, kind, storeNumber, Value.plain, Kind.Keeps]
  | boolean =>
    cases v with
    | text s => cases notText
    | int n =>
      by_cases zero : n = 0
      · simp [store, Value.isNull, kind, Value.plain, Value.isTrue, Kind.Keeps, zero]
      · have one : (1 : Int64) = n ↔ n = 1 := eq_comm
        simpa [store, Value.isNull, kind, Value.plain, Value.isTrue, Kind.Keeps, zero] using one
    | bool b => cases b <;> simp [store, Value.isNull, kind, Value.plain, Value.isTrue, Kind.Keeps]
    | _ => simp [store, Value.isNull, kind, Value.plain, Value.isTrue, Kind.Keeps]
  | json =>
    cases v with
    | text s => cases notText
    | date t =>
      simp [store, Value.isNull, kind, storeJson, Value.toJson, Value.plain, Kind.Keeps,
        jsonText_ne_stored]
    | _ => simp [store, Value.isNull, kind, storeJson, Value.toJson, Value.plain, Kind.Keeps]
  | date =>
    cases v with
    | text s => cases notText
    | int n =>
      cases read : Instant.ofMillis? n.toInt <;>
        simp [store, Value.isNull, kind, storeDate, Value.instant?, read, Value.plain, Kind.Keeps]
    | _ =>
      simp [store, Value.isNull, kind, storeDate, Value.instant?, Value.asText, Value.plain,
        Kind.Keeps]
  | string | text =>
    cases v with
    | text s => cases notText
    | _ => simp [store, Value.isNull, kind, storeText, Value.asText, Value.plain, Kind.Keeps]

/-- Without a declaration a value is written as under this one exactly if the column keeps it. -/
theorem literal_undeclared_eq_iff : literal none v = literal (some p) v ↔ p.kind.Keeps v := by
  cases v with
  | text s => simp [literal, Kind.Keeps]
  | null => simp [literal, store, Value.isNull, Kind.Keeps]
  | _ =>
    rw [← store_eq_plain_iff rfl, eq_comm]
    simp [literal, store, Value.isNull]

end Keeping

/-! ## Both conditions -/

namespace Predicate

variable {column : String}

theorem all?_onto (atoms : List Atom) :
    (all? (atoms.map .atom)).map (onto column) =
      all? ((atoms.map (Atom.onto column)).map .atom) := by
  induction atoms with
  | nil => rfl
  | cons a atoms ih =>
    cases atoms with
    | nil => rfl
    | cons b atoms =>
      rw [List.map_cons, List.map_cons, List.map_cons] at ih
      simp only [List.map_cons, all?, Option.map_map] at ih ⊢
      rw [← ih, Option.map_map]
      rfl

theorem atoms_of_all? {p : Predicate} {atoms : List Atom}
    (joined : all? (atoms.map .atom) = some p) : p.atoms = atoms := by
  have parts := atoms_all? joined
  rw [List.flatMap_map] at parts
  simpa [Predicate.atoms] using parts

theorem all?_inj {atoms atoms' : List Atom} :
    all? (atoms.map .atom) = all? (atoms'.map .atom) ↔ atoms = atoms' := by
  constructor
  · intro same
    cases joined : all? (atoms'.map .atom) with
    | none =>
      rw [joined] at same
      rw [List.map_eq_nil_iff.mp (all?_eq_none.mp same),
        List.map_eq_nil_iff.mp (all?_eq_none.mp joined)]
    | some p => rw [← atoms_of_all? joined, atoms_of_all? (same.trans joined)]
  · rintro rfl
    rfl

end Predicate

namespace Mapper

variable {b : Mapper} {field : String} {t : Test} {found : Option Predicate}

theorem malformed_of_test (field : String) (t : Test) :
    Criteria.Malformed ⟨[(field, t)], []⟩ ↔ t.Malformed := by
  simp [Criteria.Malformed, Criteria.allTests, Criteria.branchTests]

/-- A name without points before another one makes a path of two. -/
theorem field_qualified (d : Dialect) {m : Model} (table : '.' ∉ m.tableName.toList)
    (simple : '.' ∉ field.toList) :
    d.field field = d.identifier field ∧
      d.field (m.qualified field) = d.identifier m.tableName ++ '.' :: d.identifier field := by
  have chars : (m.qualified field).toList = m.tableName.toList ++ '.' :: field.toList := by
    simp [Model.qualified]
  constructor
  · rw [Dialect.field, splitAt_of_notMem simple]
    rfl
  · rw [Dialect.field, chars, splitAt_append table, splitAt_of_notMem simple]
    simp [joinWith, Dialect.identifier]

/-- The predicate of a test has its shapes on the field, joined. -/
theorem exists_shapes_of_predicate (written : b.predicate ⟨[(field, t)], []⟩ = .ok found) :
    ∃ shapes : List Shape,
      (∀ column, b.predicate ⟨[(column, t)], []⟩ = .ok (Predicate.all? ((shapes.map fun s =>
        s.on b.dialect column (b.model.declaration? column)).map .atom))) ∧
      shapes.flatMap Shape.values = t.compared ∧ (t.IsRange ↔ ∃ s ∈ shapes, s.IsRange) := by
  have sound : ¬ t.Malformed := by
    rw [← malformed_of_test field]
    exact (Criteria.predicate_refuses _ _).ok_iff.mp ⟨_, written⟩
  obtain ⟨shapes, atoms, values, ranges⟩ := Test.exists_shapes sound
  exact ⟨shapes, fun _ => Criteria.predicate_single.mpr ⟨_, atoms .., rfl⟩, values, ranges⟩

/-- The predicates of one test on two fields are the same but for the column exactly if the
declarations of the fields write the test alike. -/
theorem predicate_onto_iff {column : String} {found' : Option Predicate}
    (written : b.predicate ⟨[(field, t)], []⟩ = .ok found)
    (written' : b.predicate ⟨[(column, t)], []⟩ = .ok found') :
    found' = found.map (Predicate.onto column) ↔
      t.Alike (b.model.declaration? column) (b.model.declaration? field) := by
  obtain ⟨shapes, joined, values, ranges⟩ := exists_shapes_of_predicate written
  cases written.symm.trans (joined field)
  cases written'.symm.trans (joined column)
  rw [Predicate.all?_onto, Predicate.all?_inj, Shape.map_on_eq_onto, values, ← ranges, Test.Alike]

/-- The literals of a declared field are all quoted. -/
theorem isCell_of_declared {p : Property} {pred : Predicate} {a : Atom} {l : Literal}
    (declared : b.model.declaration? field = some p)
    (written : b.predicate ⟨[(field, t)], []⟩ = .ok (some pred)) (member : a ∈ pred.atoms)
    (inside : l ∈ a.literals) : l.IsCell := by
  obtain ⟨shapes, joined, -⟩ := exists_shapes_of_predicate written
  have same := Except.ok.inj (written.symm.trans (joined field))
  rw [Predicate.atoms_of_all? same.symm, declared] at member
  obtain ⟨shape, _, rfl⟩ := List.mem_map.mp member
  exact shape.isCell_on l inside

/-- A text that is compared with an undeclared field stands in the condition as it is. -/
theorem verbatim_of_undeclared {sql s : String} (undeclared : b.model.declaration? field = none)
    (written : b.condition ⟨[(field, t)], []⟩ = .ok sql) (compared : .text s ∈ t.compared) :
    ∃ a : Atom, .verbatim s ∈ a.literals ∧ a.StandsIn b.dialect sql.toList := by
  obtain ⟨found, predicate, rfl⟩ := condition_eq_ok.mp written
  obtain ⟨shapes, joined, values, -⟩ := exists_shapes_of_predicate predicate
  rw [← values, List.mem_flatMap] at compared
  obtain ⟨shape, member, inside⟩ := compared
  have same := Except.ok.inj (predicate.symm.trans (joined field))
  rw [undeclared] at same
  have own := List.mem_map_of_mem (f := fun s : Shape => s.on b.dialect field none) member
  refine ⟨shape.on b.dialect field none, shape.literals_on (List.mem_map_of_mem inside), ?_⟩
  cases found with
  | none =>
    rw [List.map_eq_nil_iff.mp (Predicate.all?_eq_none.mp same.symm)] at own
    cases own
  | some pred =>
    rw [← Predicate.atoms_of_all? same.symm] at own
    rw [Option.map_some, Option.getD_some, String.toList_ofList]
    exact (atom_stands own).behind _

/-- A field with the name of its table before it is the same column, and what is asked of it is
refused where it is refused of the field. Otherwise the predicates are the same but for the column
exactly if the declarations of both names write the test alike. The literals of a declared field are
all quoted. Where the longer name is not declared, only values that the column keeps are written
alike, and ranges unless they are of dates. A text never is, but stands in the condition as it
is. -/
theorem qualified_alike_iff {p : Property} (declared : b.model.declaration? field = some p)
    (table : '.' ∉ b.model.tableName.toList) (simple : '.' ∉ field.toList) (t : Test) :
    let q := b.model.qualified field
    (b.dialect.field field = b.dialect.identifier field ∧
      b.dialect.field q =
        b.dialect.identifier b.model.tableName ++ '.' :: b.dialect.identifier field) ∧
    ((∃ e, b.condition ⟨[(q, t)], []⟩ = .error e) ↔
      ∃ e, b.condition ⟨[(field, t)], []⟩ = .error e) ∧
    (∀ found found', b.predicate ⟨[(field, t)], []⟩ = .ok found →
      b.predicate ⟨[(q, t)], []⟩ = .ok found' →
        (found' = found.map (Predicate.onto q) ↔ t.Alike (b.model.declaration? q) (some p)) ∧
        ∀ pred ∈ found, ∀ a ∈ pred.atoms, ∀ l ∈ a.literals, l.IsCell) ∧
    (b.model.declaration? q = none →
      (t.Alike none (some p) ↔
        (∀ v ∈ t.compared, p.kind.Keeps v) ∧ (t.IsRange → p.kind ≠ .date)) ∧
      ∀ sql, b.condition ⟨[(q, t)], []⟩ = .ok sql → ∀ s, .text s ∈ t.compared →
        ∃ a : Atom, .verbatim s ∈ a.literals ∧ a.StandsIn b.dialect sql.toList) := by
  intro q
  refine ⟨field_qualified _ table simple, ?refused, ?predicates,
    fun undeclared => ⟨?alike, fun _ written _ => verbatim_of_undeclared undeclared written⟩⟩
  case refused =>
    rw [(b.condition_refuses _).error_iff, (b.condition_refuses _).error_iff, malformed_of_test,
      malformed_of_test]
  case predicates =>
    intro found found' written written'
    refine ⟨declared ▸ predicate_onto_iff written written', ?_⟩
    rintro pred rfl a member l inside
    exact isCell_of_declared declared written member inside
  case alike =>
    have dated : (IsDated none ↔ IsDated (some p)) ↔ p.kind ≠ .date := by simp [IsDated]
    simp only [Test.Alike, literal_undeclared_eq_iff, dated]

/-- Numbers and null are written alike. -/
theorem qualified_alike_iff_number :
    let b : Mapper := ⟨.sqlite, (Model.ofName "User").define "age" .number, .grouped⟩
    let t : Test := .operators [(.gt, .value (.int 30)), (.isIn, .list [.int 1, .null])]
    b.model.declaration? "age" = some .number ∧
      ∃ found found', b.predicate ⟨[("age", t)], []⟩ = .ok (some found) ∧
        b.predicate ⟨[("User.age", t)], []⟩ = .ok found' ∧
        found' = some (found.onto "User.age") := by
  intro b t
  have declared : b.model.declaration? "age" = some .number := rfl
  obtain ⟨_, _, same, undeclared⟩ := qualified_alike_iff declared (by decide) (by decide) t
  have alike : t.Alike none (some .number) := by
    refine (undeclared rfl).1.mpr ⟨?_, fun _ => by decide⟩
    simp [t, Test.compared, Operator.compared, Operand.values, Kind.Keeps, Property.number,
      Property.ofKind]
  exact ⟨declared, _, _, rfl, rfl, (same _ _ rfl rfl).1.mpr alike⟩

/-- A text that is quoted for the field gets out of the condition with the name of the table before
the field. -/
theorem qualified_text_verbatim :
    let b : Mapper := ⟨.sqlite, (Model.ofName "User").define "name" .string, .grouped⟩
    let t : Test := .equals (.text "x\x27 OR 1=1 --")
    b.model.qualified "name" = "User.name" ∧
      Criteria.ofJson (.object [("User.name", .string "x\x27 OR 1=1 --")]) =
        .ok ⟨[("User.name", t)], []⟩ ∧
      b.condition ⟨[("name", t)], []⟩ = .ok "WHERE `name` = \x27x\x27\x27 OR 1=1 --\x27" ∧
      b.condition ⟨[("User.name", t)], []⟩ = .ok "WHERE `User`.`name` = x\x27 OR 1=1 --" ∧
      b.predicate ⟨[("User.name", t)], []⟩ ≠
        (b.predicate ⟨[("name", t)], []⟩).map (Option.map (Predicate.onto "User.name")) := by
  refine ⟨rfl, rfl, rfl, rfl, ?_⟩
  intro same
  cases same

end Mapper

end SqlMapper
