import SqlMapper.Query.Mapper
import SqlMapper.Proofs.Except

/-! # When criteria have no condition

A test by operators has one clause for each of them, so it has none if the operators are none. The
text of a condition is empty exactly if every test at every depth is of this kind. There are such
tests: an empty object is read as one.
-/

namespace SqlMapper

/-! ## Tests without a clause -/

namespace Criteria

mutual

/-- The tests of criteria and of their branches, at every depth. -/
def allTests : Criteria → List (String × Test)
  | ⟨tests, branches⟩ => tests ++ branchTests branches

/-- The tests of branches, at every depth. -/
def branchTests : List Criteria → List (String × Test)
  | [] => []
  | branch :: rest => branch.allTests ++ branchTests rest

end

mutual

/-- Criteria are empty if they have no tests at any depth. -/
theorem isEmpty_iff_allTests : (c : Criteria) → (c.isEmpty ↔ c.allTests = [])
  | ⟨tests, branches⟩ => by
    have inner := areEmpty_iff_branchTests branches
    simp only [isEmpty, allTests, Bool.and_eq_true, List.isEmpty_iff, List.append_eq_nil_iff, inner]

theorem areEmpty_iff_branchTests : (branches : List Criteria) →
    (areEmpty branches ↔ branchTests branches = [])
  | [] => by simp [areEmpty, branchTests]
  | branch :: rest => by
    have first := isEmpty_iff_allTests branch
    have others := areEmpty_iff_branchTests rest
    simp only [areEmpty, branchTests, Bool.and_eq_true, List.append_eq_nil_iff, first, others]

end

end Criteria

/-- A test without a clause: one by operators of which there are none. -/
def Test.isVacuous : Test → Bool
  | .operators ops => ops.isEmpty
  | _ => false

/-- Criteria that have a clause at some depth. -/
def Criteria.contributes (c : Criteria) : Bool := c.allTests.any fun t => !t.2.isVacuous

theorem Criteria.contributes_eq_false {c : Criteria} :
    c.contributes = false ↔ ∀ t ∈ c.allTests, t.2.isVacuous := by
  simp [contributes]

/-! ## Criteria without a predicate -/

namespace Predicate

@[simp] theorem all?_eq_none {ps : List Predicate} : all? ps = none ↔ ps = [] := by
  fun_induction all? ps <;> simp_all

@[simp] theorem any?_eq_none {ps : List Predicate} : any? ps = none ↔ ps = [] := by
  fun_induction any? ps <;> simp_all

@[simp] theorem both?_eq_none {p q : Option Predicate} :
    both? p q = none ↔ p = none ∧ q = none := by
  cases p <;> cases q <;> simp [both?]

end Predicate

section Presence

variable {d : Dialect} {m : Model}

theorem Test.atoms_eq_nil (field : String) {t : Test} :
    t.atoms d m field = .ok [] ↔ t.isVacuous := by
  cases t with
  | isNull => simp [atoms, isVacuous]
  | equals v => simp [atoms, isVacuous]
  | regex pattern => simp [atoms, isVacuous, bind_eq_ok_iff]
  | operators ops =>
    cases ops with
    | nil => exact ⟨fun _ => rfl, fun _ => rfl⟩
    | cons op ops => simp [atoms, isVacuous, bind_eq_ok_iff, pure, Except.pure]

namespace Criteria

theorem testAtoms_eq_nil (tests : List (String × Test)) :
    testAtoms d m tests = .ok [] ↔ ∀ t ∈ tests, t.2.isVacuous := by
  induction tests with
  | nil => simp [testAtoms]
  | cons t tests ih =>
    obtain ⟨field, test⟩ := t
    rw [List.forall_mem_cons, ← ih, ← Test.atoms_eq_nil (d := d) (m := m) field, testAtoms]
    exact both_eq_ok_iff fun own others => by simp

mutual

theorem groupedPredicate_eq_none : (c : Criteria) →
    (c.groupedPredicate d m = .ok none ↔ ∀ t ∈ c.allTests, t.2.isVacuous)
  | ⟨tests, branches⟩ => by
    rw [allTests, List.forall_mem_append, and_comm, ← testAtoms_eq_nil (d := d) (m := m) tests,
      ← groupedBranches_eq_nil branches, groupedPredicate]
    exact both_eq_ok_iff fun anyOf allOf => by simp

theorem groupedBranches_eq_nil : (branches : List Criteria) →
    (groupedBranches d m branches = .ok [] ↔ ∀ t ∈ branchTests branches, t.2.isVacuous)
  | [] => by simp [groupedBranches, branchTests]
  | branch :: rest => by
    rw [branchTests, List.forall_mem_append, ← groupedPredicate_eq_none branch,
      ← groupedBranches_eq_nil rest, groupedBranches]
    exact both_eq_ok_iff fun p others => by simp

end

theorem flattenedBranches_eq_nil : (branches : List Criteria) →
    (flattenedBranches d m branches = .ok [] ↔ ∀ t ∈ branchTests branches, t.2.isVacuous)
  | [] => by simp [flattenedBranches, branchTests]
  | ⟨tests, branches⟩ :: rest => by
    rw [branchTests, allTests, List.forall_mem_append, List.forall_mem_append,
      ← testAtoms_eq_nil (d := d) (m := m) tests, ← flattenedBranches_eq_nil branches,
      ← flattenedBranches_eq_nil rest, flattenedBranches]
    simp only [bind_eq_ok_iff, Except.ok.injEq, List.append_eq_nil_iff]
    constructor
    · rintro ⟨_, own, _, inner, _, others, ⟨rfl, rfl⟩, rfl⟩
      exact ⟨⟨own, inner⟩, others⟩
    · rintro ⟨⟨own, inner⟩, others⟩
      exact ⟨_, own, _, inner, _, others, ⟨rfl, rfl⟩, rfl⟩

/-- In either mode, criteria have no predicate exactly if no test has a clause. -/
theorem predicate_eq_none {mode : OrMode} {c : Criteria} :
    c.predicate d m mode = .ok none ↔ ∀ t ∈ c.allTests, t.2.isVacuous := by
  cases mode with
  | grouped => exact groupedPredicate_eq_none c
  | flattened =>
    obtain ⟨tests, branches⟩ := c
    rw [allTests, List.forall_mem_append, and_comm, ← testAtoms_eq_nil (d := d) (m := m) tests,
      ← flattenedBranches_eq_nil (d := d) (m := m) branches, predicate, flattenedPredicate]
    exact both_eq_ok_iff fun anyOf allOf => by simp

/-- Criteria have a predicate exactly if they contribute. -/
theorem predicate_isSome {mode : OrMode} {c : Criteria} {found : Option Predicate}
    (written : c.predicate d m mode = .ok found) : found.isSome = c.contributes := by
  have absent : found = none ↔ c.contributes = false := by
    rw [contributes_eq_false, ← Except.ok.injEq (ε := QueryError), ← written]
    exact predicate_eq_none
  cases found <;> simp_all

end Criteria

end Presence

/-! ## Statements without a condition -/

namespace Mapper

/-- The condition of some criteria is the text of their predicate. -/
theorem condition_eq_ok {b : Mapper} {c : Criteria} {s : String} :
    b.condition c = .ok s ↔ ∃ p, b.predicate c = .ok p ∧
      s = String.ofList ((p.map b.dialect.condition).getD []) := by
  rw [condition, bind_eq_ok_iff]
  simp only [Except.ok.injEq, eq_comm]

theorem condition_eq_empty {b : Mapper} {c : Criteria} :
    b.condition c = .ok "" ↔ b.predicate c = .ok none := by
  rw [condition_eq_ok]
  constructor
  · rintro ⟨found, predicate, empty⟩
    cases found with
    | none => exact predicate
    | some p =>
      change "" = String.ofList ("WHERE ".toList ++ b.dialect.predicate p) at empty
      simp [String.ext_iff] at empty
  · intro predicate
    exact ⟨none, predicate, rfl⟩

/-- A deletion keeps its condition exactly if the criteria have a predicate. -/
theorem delete_eq_deleteAll {b : Mapper} {c : Criteria} :
    b.delete (some c) = .ok b.deleteAll ↔ b.predicate c = .ok none := by
  let front := "DELETE FROM ".toList ++ b.dialect.identifier b.model.tableName
  simp only [delete, bind_eq_ok_iff, Except.ok.injEq]
  constructor
  · rintro ⟨found, predicate, same⟩
    cases found with
    | none => exact predicate
    | some p =>
      simp only [deleteAll, write, Statement.text, String.ofList_inj] at same
      change front ++ ' ' :: b.dialect.condition p = front ++ [] at same
      exact absurd (List.append_cancel_left same) (List.cons_ne_nil _ _)
  · intro predicate
    exact ⟨none, predicate, rfl⟩

/-- A condition is empty, and a deletion by criteria is one of all rows, exactly if every test at
every depth is vacuous, while criteria are empty exactly if there is no test. -/
theorem condition_empty_iff (b : Mapper) (c : Criteria) :
    (b.condition c = .ok "" ↔ ∀ t ∈ c.allTests, t.2.isVacuous) ∧
      (b.delete (some c) = .ok b.deleteAll ↔ ∀ t ∈ c.allTests, t.2.isVacuous) ∧
      (c.isEmpty ↔ c.allTests = []) := by
  have absent : b.predicate c = .ok none ↔ ∀ t ∈ c.allTests, t.2.isVacuous :=
    Criteria.predicate_eq_none
  exact ⟨condition_eq_empty.trans absent, delete_eq_deleteAll.trans absent, c.isEmpty_iff_allTests⟩

/-- A field tested by an empty object makes criteria that are not empty and delete every row. -/
theorem condition_empty_of_empty_object :
    ∃ c, Criteria.ofJson (.object [("name", .object [])]) = .ok c ∧ c.isEmpty = false ∧
      condition ⟨.sqlite, (Model.ofName "User").define "name" .string, .grouped⟩ c = .ok "" ∧
      delete ⟨.sqlite, (Model.ofName "User").define "name" .string, .grouped⟩ (some c) =
        .ok (deleteAll ⟨.sqlite, (Model.ofName "User").define "name" .string, .grouped⟩) :=
  ⟨⟨[("name", .operators [])], []⟩, rfl, rfl, rfl, rfl⟩

end Mapper

end SqlMapper
