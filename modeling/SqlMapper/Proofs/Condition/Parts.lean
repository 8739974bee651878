import SqlMapper.Proofs.Condition.Reading
import SqlMapper.Proofs.Condition.Emptiness

/-! # The parts of a predicate

The predicate of criteria is put together from what their branches come to, which differs between
the modes, and from the atoms of their tests, which does not. Either way an atom of the predicate is
one of some test at some depth, and it is on the field of that test unless it is a constant.
-/

namespace SqlMapper

section Parts

variable {d : Dialect} {m : Model}

namespace Criteria

/-- What branches come to in a mode, before it is joined. -/
def branchParts (d : Dialect) (m : Model) :
    OrMode → List Criteria → Except QueryError (List Predicate)
  | .grouped => groupedBranches d m
  | .flattened => flattenedBranches d m

theorem groupedBranches_cons {tests : List (String × Test)} {branches rest : List Criteria}
    {ps : List Predicate} :
    groupedBranches d m (⟨tests, branches⟩ :: rest) = .ok ps ↔
      ∃ anyOf own more, groupedBranches d m branches = .ok anyOf ∧
        testAtoms d m tests = .ok own ∧ groupedBranches d m rest = .ok more ∧
        (Predicate.both? (Predicate.any? anyOf) (Predicate.all? own)).toList.map
          Predicate.grouped ++ more = ps := by
  simp only [groupedBranches, groupedPredicate, bind_eq_ok_iff, Except.ok.injEq]
  constructor
  · rintro ⟨_, ⟨anyOf, first, own, second, rfl⟩, more, third, joined⟩
    exact ⟨anyOf, own, more, first, second, third, joined⟩
  · rintro ⟨anyOf, own, more, first, second, third, joined⟩
    exact ⟨_, ⟨anyOf, first, own, second, rfl⟩, more, third, joined⟩

theorem flattenedBranches_cons {tests : List (String × Test)} {branches rest : List Criteria}
    {ps : List Predicate} :
    flattenedBranches d m (⟨tests, branches⟩ :: rest) = .ok ps ↔
      ∃ own inner more, testAtoms d m tests = .ok own ∧
        flattenedBranches d m branches = .ok inner ∧ flattenedBranches d m rest = .ok more ∧
        own ++ inner ++ more = ps := by
  rw [flattenedBranches]
  simp only [bind_eq_ok_iff, Except.ok.injEq]
  constructor
  · rintro ⟨own, first, inner, second, more, third, joined⟩
    exact ⟨own, inner, more, first, second, third, joined⟩
  · rintro ⟨own, inner, more, first, second, third, joined⟩
    exact ⟨own, first, inner, second, more, third, joined⟩

theorem predicate_eq_ok {mode : OrMode} {c : Criteria} {found : Option Predicate} :
    c.predicate d m mode = .ok found ↔
      ∃ anyOf own, branchParts d m mode c.branches = .ok anyOf ∧
        testAtoms d m c.tests = .ok own ∧
        Predicate.both? (Predicate.any? anyOf) (Predicate.all? own) = found := by
  obtain ⟨tests, branches⟩ := c
  have parts : predicate d m mode ⟨tests, branches⟩ = (do
      let anyOf ← branchParts d m mode branches
      let own ← testAtoms d m tests
      .ok (Predicate.both? (Predicate.any? anyOf) (Predicate.all? own))) := by
    cases mode <;> rfl
  rw [parts]
  simp only [bind_eq_ok_iff, Except.ok.injEq]
  constructor
  · rintro ⟨anyOf, first, own, second, joined⟩
    exact ⟨anyOf, own, first, second, joined⟩
  · rintro ⟨anyOf, own, first, second, joined⟩
    exact ⟨anyOf, first, own, second, joined⟩

theorem branchParts_eq_nil (mode : OrMode) (branches : List Criteria) :
    branchParts d m mode branches = .ok [] ↔ ∀ t ∈ branchTests branches, t.2.isVacuous := by
  cases mode with
  | grouped => exact groupedBranches_eq_nil branches
  | flattened => exact flattenedBranches_eq_nil branches

/-- The predicate of one test has its atoms joined. -/
theorem predicate_single {mode : OrMode} {field : String} {t : Test} {found : Option Predicate} :
    predicate d m mode ⟨[(field, t)], []⟩ = .ok found ↔
      ∃ atoms, t.atoms d m field = .ok atoms ∧ found = Predicate.all? (atoms.map .atom) := by
  have noBranch : branchParts d m mode [] = .ok [] :=
    (branchParts_eq_nil mode []).mpr (by simp [branchTests])
  have tests {ps : List Predicate} : testAtoms d m [(field, t)] = .ok ps ↔
      ∃ atoms, t.atoms d m field = .ok atoms ∧ ps = atoms.map .atom := by
    constructor
    · intro tested
      obtain ⟨atoms, written, tested⟩ := bind_eq_ok_iff.mp tested
      cases tested
      exact ⟨atoms, written, List.append_nil _⟩
    · rintro ⟨atoms, written, rfl⟩
      rw [testAtoms, written]
      exact congrArg Except.ok (List.append_nil _)
  rw [predicate_eq_ok]
  constructor
  · rintro ⟨anyOf, own, branches, tested, rfl⟩
    rw [noBranch] at branches
    cases branches
    obtain ⟨atoms, written, rfl⟩ := tests.mp tested
    exact ⟨atoms, written, rfl⟩
  · rintro ⟨atoms, written, rfl⟩
    exact ⟨[], _, noBranch, tests.mpr ⟨atoms, written, rfl⟩, rfl⟩

end Criteria

end Parts

/-! ## Joined predicates -/

namespace Predicate

variable {ps qs : List Predicate} {p : Predicate} {motive : List Predicate → Predicate → Prop}

/-- What holds of one predicate alone and is kept by joining one more holds of what is joined by
AND. -/
theorem all?_induction (single : ∀ p, motive [p] p)
    (join : ∀ p ps q, motive ps q → motive (p :: ps) (.and p q)) (joined : all? ps = some p) :
    motive ps p := by
  induction ps generalizing p with
  | nil => cases joined
  | cons first ps ih =>
    cases ps with
    | nil =>
      cases joined
      exact single first
    | cons next ps =>
      obtain ⟨tail, inner, rfl⟩ := Option.map_eq_some_iff.mp joined
      exact join first (next :: ps) tail (ih inner)

/-- The same for what is joined by OR. -/
theorem any?_induction (single : ∀ p, motive [p] p)
    (join : ∀ p ps q, motive ps q → motive (p :: ps) (.or p q)) (joined : any? ps = some p) :
    motive ps p := by
  induction ps generalizing p with
  | nil => cases joined
  | cons first ps ih =>
    cases ps with
    | nil =>
      cases joined
      exact single first
    | cons next ps =>
      obtain ⟨tail, inner, rfl⟩ := Option.map_eq_some_iff.mp joined
      exact join first (next :: ps) tail (ih inner)

/-- Alternatives and clauses are joined where there are both. -/
theorem both?_cases (joined : both? (any? ps) (all? qs) = some p) :
    (ps = [] ∧ all? qs = some p) ∨ (any? ps = some p ∧ qs = []) ∨
      ∃ a b, any? ps = some a ∧ all? qs = some b ∧ p = .and (.paren a) (.paren b) := by
  cases first : any? ps with
  | none =>
    rw [first] at joined
    exact .inl ⟨any?_eq_none.mp first, joined⟩
  | some a =>
    cases second : all? qs with
    | none =>
      rw [first, second] at joined
      exact .inr (.inl ⟨joined, all?_eq_none.mp second⟩)
    | some b =>
      rw [first, second] at joined
      exact .inr (.inr ⟨a, b, rfl, rfl, (Option.some.inj joined).symm⟩)

/-- A grouped predicate is a part of a join. -/
theorem Binds.grouped (binds : Binds .whole p) : Binds .factor p.grouped := by
  cases binds with
  | atom => exact .atom
  | paren inner => exact .paren inner
  | and joins first second => exact .paren (.and joins first second)
  | or first second => exact .paren (.or first second)

/-! ## Where atoms come from -/

@[simp] theorem atoms_grouped (p : Predicate) : p.grouped.atoms = p.atoms := by
  cases p <;> rfl

theorem atoms_all? (joined : all? ps = some p) : p.atoms = ps.flatMap atoms := by
  apply all?_induction _ _ joined
  · simp
  · intro p ps q rest
    rw [atoms, rest, List.flatMap_cons]

theorem atoms_any? (joined : any? ps = some p) : p.atoms = ps.flatMap atoms := by
  apply any?_induction _ _ joined
  · simp
  · intro p ps q rest
    rw [atoms, rest, List.flatMap_cons]

theorem atoms_both? (joined : both? (any? ps) (all? qs) = some p) :
    p.atoms = ps.flatMap atoms ++ qs.flatMap atoms := by
  obtain ⟨rfl, all⟩ | ⟨any, rfl⟩ | ⟨a, b, any, all, rfl⟩ := both?_cases joined
  · exact atoms_all? all
  · simpa using atoms_any? any
  · rw [atoms, atoms, atoms, atoms_any? any, atoms_all? all]

/-- No part of a branch is lost where the branch is made one alternative. -/
theorem atoms_branch (ps qs : List Predicate) :
    ((both? (any? ps) (all? qs)).toList.map grouped).flatMap atoms =
      ps.flatMap atoms ++ qs.flatMap atoms := by
  cases joined : both? (any? ps) (all? qs) with
  | none =>
    obtain ⟨first, second⟩ := both?_eq_none.mp joined
    rw [any?_eq_none.mp first, all?_eq_none.mp second]
    rfl
  | some p => simp [atoms_both? joined]

end Predicate

/-- The field that an atom is on. A constant is on none. -/
def Atom.field? : Atom → Option String
  | .isNull field => some field
  | .compare field _ _ => some field
  | .member field _ _ => some field
  | .range field _ _ _ => some field
  | .constant _ => none

section Origin

variable {d : Dialect} {m : Model}

theorem matchAtom_field {field pattern : String} {a : Atom}
    (written : matchAtom field pattern = .ok a) : a.field? = some field := by
  rw [matchAtom] at written
  split at written
  · cases written
    rfl
  · cases written

theorem operatorAtom_field {field : String} {declared : Option Property} {op : Operator}
    {operand : Operand} {a : Atom} (written : operatorAtom d field declared op operand = .ok a) :
    ∀ f ∈ a.field?, f = field := by
  cases op with
  | isIn => rcases operand with v | (_ | ⟨v, vs⟩) <;> cases written <;> simp [Atom.field?]
  | notIn => rcases operand with v | (_ | ⟨v, vs⟩) <;> cases written <;> simp [Atom.field?]
  | between =>
    rcases operand with v | (_ | ⟨low, _ | ⟨high, _ | ⟨more, vs⟩⟩⟩)
    case list.cons.cons.nil =>
      cases written
      simp [Atom.field?]
    all_goals cases written
  | regex =>
    rcases operand with v | vs
    · cases v
      case text pattern => simp [matchAtom_field written]
      all_goals cases written
    · cases written
  | other key =>
    cases operand with
    | list vs => cases written
    | value v =>
      simp only [operatorAtom] at written
      split at written
      · cases written
        simp [Atom.field?]
      · cases written
  | _ =>
    cases operand with
    | list vs => cases written
    | value v =>
      cases written
      simp [Atom.field?]

/-- The atoms of a test are on its field. -/
theorem Test.atoms_field {field : String} {t : Test} {atoms : List Atom}
    (written : t.atoms d m field = .ok atoms) : ∀ a ∈ atoms, ∀ f ∈ a.field?, f = field := by
  cases t with
  | isNull =>
    cases written
    simp [Atom.field?]
  | equals v =>
    cases written
    simp [Atom.field?]
  | regex pattern =>
    obtain ⟨a, found, written⟩ := bind_eq_ok_iff.mp written
    cases written
    simp [matchAtom_field found]
  | operators ops =>
    induction ops generalizing atoms with
    | nil =>
      cases written
      simp
    | cons op ops ih =>
      simp only [Test.atoms, List.mapM_cons] at written
      obtain ⟨a, first, written⟩ := bind_eq_ok_iff.mp written
      obtain ⟨more, rest, written⟩ := bind_eq_ok_iff.mp written
      cases written
      exact List.forall_mem_cons.mpr ⟨operatorAtom_field first, ih rest⟩

/-- An atom of some tests. -/
def Atom.Of (d : Dialect) (m : Model) (tests : List (String × Test)) (a : Atom) : Prop :=
  ∃ t ∈ tests, ∃ atoms, t.2.atoms d m t.1 = .ok atoms ∧ a ∈ atoms

theorem Atom.not_of_nil {a : Atom} : ¬ a.Of d m [] := by simp [Of]

theorem Atom.of_append {front back : List (String × Test)} {a : Atom} :
    a.Of d m (front ++ back) ↔ a.Of d m front ∨ a.Of d m back := by
  simp only [Of, List.mem_append, or_and_right, exists_or]

theorem Atom.of_cons {t : String × Test} {tests : List (String × Test)} {atoms : List Atom}
    {a : Atom} (written : t.2.atoms d m t.1 = .ok atoms) :
    a.Of d m (t :: tests) ↔ a ∈ atoms ∨ a.Of d m tests := by
  simp [Of, written]

namespace Criteria

theorem testAtoms_of {tests : List (String × Test)} {ps : List Predicate}
    (written : testAtoms d m tests = .ok ps) {a : Atom} :
    a ∈ ps.flatMap Predicate.atoms ↔ a.Of d m tests := by
  induction tests generalizing ps with
  | nil =>
    cases written
    simp [Atom.not_of_nil]
  | cons t tests ih =>
    obtain ⟨atoms, first, written⟩ := bind_eq_ok_iff.mp written
    obtain ⟨more, rest, written⟩ := bind_eq_ok_iff.mp written
    cases written
    have own : a ∈ (atoms.map Predicate.atom).flatMap Predicate.atoms ↔ a ∈ atoms := by
      simp [Predicate.atoms]
    rw [List.flatMap_append, List.mem_append, own, ih rest, Atom.of_cons first]

theorem groupedBranches_of : (branches : List Criteria) → {ps : List Predicate} →
    (written : groupedBranches d m branches = .ok ps) → {a : Atom} →
    (a ∈ ps.flatMap Predicate.atoms ↔ a.Of d m (branchTests branches))
  | [], _, written, _ => by
    cases written
    simp [branchTests, Atom.not_of_nil]
  | ⟨tests, branches⟩ :: rest, ps, written, a => by
    obtain ⟨anyOf, own, more, first, second, third, rfl⟩ := groupedBranches_cons.mp written
    rw [List.flatMap_append, Predicate.atoms_branch, branchTests, allTests, Atom.of_append,
      Atom.of_append, List.mem_append, List.mem_append, groupedBranches_of branches first,
      testAtoms_of second, groupedBranches_of rest third, or_comm (a := a.Of d m tests)]

theorem flattenedBranches_of : (branches : List Criteria) → {ps : List Predicate} →
    (written : flattenedBranches d m branches = .ok ps) → {a : Atom} →
    (a ∈ ps.flatMap Predicate.atoms ↔ a.Of d m (branchTests branches))
  | [], ps, written, _ => by
    rw [flattenedBranches, Except.ok.injEq] at written
    simp [← written, branchTests, Atom.not_of_nil]
  | ⟨tests, branches⟩ :: rest, ps, written, a => by
    obtain ⟨own, inner, more, first, second, third, rfl⟩ := flattenedBranches_cons.mp written
    rw [List.flatMap_append, List.flatMap_append, branchTests, allTests, Atom.of_append,
      Atom.of_append, List.mem_append, List.mem_append, testAtoms_of first,
      flattenedBranches_of branches second, flattenedBranches_of rest third]

/-- In either mode, the atoms of a predicate are those of the tests, at every depth. -/
theorem predicate_of {mode : OrMode} {c : Criteria} {p : Predicate}
    (written : c.predicate d m mode = .ok (some p)) {a : Atom} :
    a ∈ p.atoms ↔ a.Of d m c.allTests := by
  obtain ⟨anyOf, own, first, second, joined⟩ := predicate_eq_ok.mp written
  obtain ⟨tests, branches⟩ := c
  have below : a ∈ anyOf.flatMap Predicate.atoms ↔ a.Of d m (branchTests branches) := by
    cases mode with
    | grouped => exact groupedBranches_of branches first
    | flattened => exact flattenedBranches_of branches first
  rw [Predicate.atoms_both? joined, allTests, Atom.of_append, List.mem_append, below,
    testAtoms_of second, or_comm]

end Criteria

end Origin

end SqlMapper
