import SqlMapper.Proofs.Condition.Parts
import SqlMapper.Proofs.Condition.Preservation

/-! # Flattened branches ask for no more

Where branches are flattened, every clause in them is an alternative of its own, while grouped ones
keep together what a branch asks for. Both modes look at the same tests, so they turn down the same
criteria and have a condition for the same ones. A grouped branch that holds has a clause that
holds, which is then one of the flattened alternatives. Branches that join nothing are the same
alternatives in both modes.

Truth is taken under a valuation of the atoms themselves, so nothing is assumed of the dialect or
of what an atom writes. Where a known dialect quotes all values, the same holds of what is read from
the two texts.
-/

namespace SqlMapper

namespace Truth

theorem and_eq_yes {t u : Truth} : t.and u = .yes ↔ t = .yes ∧ u = .yes := by
  cases t <;> cases u <;> decide

theorem or_eq_yes {t u : Truth} : t.or u = .yes ↔ t = .yes ∨ u = .yes := by
  cases t <;> cases u <;> decide

theorem or_assoc (t u v : Truth) : (t.or u).or v = t.or (u.or v) := by
  cases t <;> cases u <;> cases v <;> rfl

@[simp] theorem any_nil : any [] = .no := rfl

theorem all_eq_yes {ts : List Truth} : all ts = .yes ↔ ∀ t ∈ ts, t = .yes := by
  induction ts with
  | nil => simp
  | cons t ts ih => simp [and_eq_yes, ih]

theorem any_eq_yes {ts : List Truth} : any ts = .yes ↔ .yes ∈ ts := by
  induction ts with
  | nil => simp
  | cons t ts ih => rw [any_cons, or_eq_yes, ih, List.mem_cons, eq_comm]

theorem any_append (ts us : List Truth) : any (ts ++ us) = (any ts).or (any us) := by
  induction ts with
  | nil => simp
  | cons t ts ih => simp [ih, or_assoc]

end Truth

theorem alternatives_eq_yes {ts : List Truth} :
    alternatives ts = .yes ↔ ts = [] ∨ .yes ∈ ts := by
  cases ts with
  | nil => simp [alternatives]
  | cons t ts =>
    change Truth.any (t :: ts) = .yes ↔ _
    rw [Truth.any_eq_yes]
    simp

theorem alternatives_congr {ts us : List Truth} (empty : ts = [] ↔ us = [])
    (same : Truth.any ts = .any us) : alternatives ts = alternatives us := by
  cases us with
  | nil => rw [empty.mpr rfl]
  | cons u us =>
    cases ts with
    | nil => cases empty.mp rfl
    | cons t ts => exact same

/-! ## The truth of a predicate -/

namespace Predicate

/-- The value of a predicate under a valuation of its atoms. -/
def truth (valuation : Atom → Truth) : Predicate → Truth
  | .atom a => valuation a
  | .paren p => p.truth valuation
  | .and p q => (p.truth valuation).and (q.truth valuation)
  | .or p q => (p.truth valuation).or (q.truth valuation)

/-- What a predicate says has its value, if the atoms have the values of what they say. -/
theorem truth_expression (valuation : Comparison → Truth) (p : Predicate) :
    p.expression.truth valuation = p.truth fun a => a.expression.truth valuation := by
  induction p with
  | atom a => rfl
  | paren p ih => exact ih
  | and p q ihp ihq => rw [expression, Expression.truth, ihp, ihq, truth]
  | or p q ihp ihq => rw [expression, Expression.truth, ihp, ihq, truth]

section Joins

variable {valuation : Atom → Truth} {ps qs : List Predicate} {p : Predicate}

@[simp] theorem truth_grouped (p : Predicate) : p.grouped.truth valuation = p.truth valuation := by
  cases p <;> rfl

theorem truth_all? (joined : all? ps = some p) :
    p.truth valuation = .all (ps.map (truth valuation)) := by
  apply all?_induction _ _ joined
  · simp
  · intro p ps q rest
    rw [truth, rest, List.map_cons, Truth.all_cons]

theorem truth_any? (joined : any? ps = some p) :
    p.truth valuation = .any (ps.map (truth valuation)) := by
  apply any?_induction _ _ joined
  · simp
  · intro p ps q rest
    rw [truth, rest, List.map_cons, Truth.any_cons]

theorem truth_both? (joined : both? (any? ps) (all? qs) = some p) :
    p.truth valuation = (alternatives (ps.map (truth valuation))).and
      (.all (qs.map (truth valuation))) := by
  have value {q : Predicate} (first : any? ps = some q) :
      q.truth valuation = alternatives (ps.map (truth valuation)) := by
    cases ps with
    | nil => cases first
    | cons => exact truth_any? first
  obtain ⟨rfl, all⟩ | ⟨any, rfl⟩ | ⟨a, b, any, all, rfl⟩ := both?_cases joined
  · simpa [alternatives] using truth_all? all
  · simpa using value any
  · rw [truth, truth, truth, value any, truth_all? all]

theorem binds_all? (parts : ∀ p ∈ ps, Binds .factor p) (joined : all? ps = some p) :
    Binds .term p := by
  revert parts
  apply all?_induction _ _ joined
  · intro p parts
    exact (parts p (List.mem_singleton_self p)).of_factor
  · intro p ps q rest parts
    obtain ⟨first, others⟩ := List.forall_mem_cons.mp parts
    exact .and (by decide) first (rest others)

theorem binds_any? (parts : ∀ p ∈ ps, Binds .factor p) (joined : any? ps = some p) :
    Binds .whole p := by
  revert parts
  apply any?_induction _ _ joined
  · intro p parts
    exact (parts p (List.mem_singleton_self p)).of_factor
  · intro p ps q rest parts
    obtain ⟨first, others⟩ := List.forall_mem_cons.mp parts
    exact .or first.of_factor (rest others)

theorem binds_both? (alternative : ∀ p ∈ ps, Binds .factor p) (clause : ∀ q ∈ qs, Binds .factor q)
    (joined : both? (any? ps) (all? qs) = some p) : Binds .whole p := by
  obtain ⟨-, all⟩ | ⟨any, -⟩ | ⟨a, b, any, all, rfl⟩ := both?_cases joined
  · exact (binds_all? clause all).whole
  · exact binds_any? alternative any
  · exact .and (by decide) (.paren (binds_any? alternative any))
      (.paren (binds_all? clause all).whole)

end Joins

end Predicate

section Modes

variable {d : Dialect} {m : Model}

namespace Criteria

/-! ## The predicate is read as the tree that it is -/

theorem testAtoms_binds {tests : List (String × Test)} {ps : List Predicate}
    (written : testAtoms d m tests = .ok ps) : ∀ p ∈ ps, p.Binds .factor := by
  induction tests generalizing ps with
  | nil =>
    cases written
    simp
  | cons t tests ih =>
    obtain ⟨atoms, _, written⟩ := bind_eq_ok_iff.mp written
    obtain ⟨more, rest, written⟩ := bind_eq_ok_iff.mp written
    cases written
    refine List.forall_mem_append.mpr ⟨?_, ih rest⟩
    intro p member
    obtain ⟨a, _, rfl⟩ := List.mem_map.mp member
    exact .atom

theorem groupedBranches_binds : (branches : List Criteria) → {ps : List Predicate} →
    (written : groupedBranches d m branches = .ok ps) → ∀ p ∈ ps, p.Binds .factor
  | [], _, written => by
    cases written
    simp
  | ⟨tests, branches⟩ :: rest, ps, written => by
    obtain ⟨anyOf, own, more, first, second, third, rfl⟩ := groupedBranches_cons.mp written
    refine List.forall_mem_append.mpr ⟨?_, groupedBranches_binds rest third⟩
    intro p member
    simp only [List.mem_map, Option.mem_toList] at member
    obtain ⟨whole, joined, rfl⟩ := member
    exact (Predicate.binds_both? (groupedBranches_binds branches first) (testAtoms_binds second)
      joined).grouped

theorem flattenedBranches_binds : (branches : List Criteria) → {ps : List Predicate} →
    (written : flattenedBranches d m branches = .ok ps) → ∀ p ∈ ps, p.Binds .factor
  | [], ps, written => by
    rw [flattenedBranches, Except.ok.injEq] at written
    simp [← written]
  | ⟨tests, branches⟩ :: rest, ps, written => by
    obtain ⟨own, inner, more, first, second, third, rfl⟩ := flattenedBranches_cons.mp written
    rw [List.forall_mem_append, List.forall_mem_append]
    exact ⟨⟨testAtoms_binds first, flattenedBranches_binds branches second⟩,
      flattenedBranches_binds rest third⟩

theorem predicate_binds {mode : OrMode} {c : Criteria} {p : Predicate}
    (written : c.predicate d m mode = .ok (some p)) : p.Binds .whole := by
  obtain ⟨anyOf, own, first, second, joined⟩ := predicate_eq_ok.mp written
  have parts : ∀ q ∈ anyOf, q.Binds .factor := by
    cases mode with
    | grouped => exact groupedBranches_binds c.branches first
    | flattened => exact flattenedBranches_binds c.branches first
  exact Predicate.binds_both? parts (testAtoms_binds second) joined

/-! ## Both modes accept the same criteria -/

/-- The test of a field has atoms. -/
def Accepts (d : Dialect) (m : Model) (t : String × Test) : Prop :=
  ∃ atoms, t.2.atoms d m t.1 = .ok atoms

theorem testAtoms_succeeds {tests : List (String × Test)} :
    (∃ ps, testAtoms d m tests = .ok ps) ↔ ∀ t ∈ tests, Accepts d m t := by
  induction tests with
  | nil => simp [testAtoms]
  | cons t tests ih =>
    rw [List.forall_mem_cons, ← ih]
    simp only [testAtoms, bind_eq_ok_iff, Except.ok.injEq]
    constructor
    · rintro ⟨_, atoms, own, more, others, _⟩
      exact ⟨⟨atoms, own⟩, more, others⟩
    · rintro ⟨⟨atoms, own⟩, more, others⟩
      exact ⟨_, atoms, own, more, others, rfl⟩

theorem groupedBranches_succeeds : (branches : List Criteria) →
    ((∃ ps, groupedBranches d m branches = .ok ps) ↔
      ∀ t ∈ branchTests branches, Accepts d m t)
  | [] => by simp [groupedBranches, branchTests]
  | ⟨tests, branches⟩ :: rest => by
    rw [branchTests, allTests, List.forall_mem_append, List.forall_mem_append,
      ← testAtoms_succeeds, ← groupedBranches_succeeds branches, ← groupedBranches_succeeds rest]
    simp only [groupedBranches_cons]
    constructor
    · rintro ⟨_, anyOf, own, more, first, second, third, _⟩
      exact ⟨⟨⟨own, second⟩, anyOf, first⟩, more, third⟩
    · rintro ⟨⟨⟨own, second⟩, anyOf, first⟩, more, third⟩
      exact ⟨_, anyOf, own, more, first, second, third, rfl⟩

theorem flattenedBranches_succeeds : (branches : List Criteria) →
    ((∃ ps, flattenedBranches d m branches = .ok ps) ↔
      ∀ t ∈ branchTests branches, Accepts d m t)
  | [] => by simp [flattenedBranches, branchTests]
  | ⟨tests, branches⟩ :: rest => by
    rw [branchTests, allTests, List.forall_mem_append, List.forall_mem_append,
      ← testAtoms_succeeds, ← flattenedBranches_succeeds branches,
      ← flattenedBranches_succeeds rest]
    simp only [flattenedBranches_cons]
    constructor
    · rintro ⟨_, own, inner, more, first, second, third, _⟩
      exact ⟨⟨⟨own, first⟩, inner, second⟩, more, third⟩
    · rintro ⟨⟨⟨own, first⟩, inner, second⟩, more, third⟩
      exact ⟨_, own, inner, more, first, second, third, rfl⟩

/-- In either mode, criteria are accepted exactly if every test is, at every depth. -/
theorem predicate_succeeds (mode : OrMode) {c : Criteria} :
    (∃ found, c.predicate d m mode = .ok found) ↔ ∀ t ∈ c.allTests, Accepts d m t := by
  obtain ⟨tests, branches⟩ := c
  have below : (∃ ps, branchParts d m mode branches = .ok ps) ↔
      ∀ t ∈ branchTests branches, Accepts d m t := by
    cases mode with
    | grouped => exact groupedBranches_succeeds branches
    | flattened => exact flattenedBranches_succeeds branches
  rw [allTests, List.forall_mem_append, ← testAtoms_succeeds, ← below]
  simp only [predicate_eq_ok]
  constructor
  · rintro ⟨_, anyOf, own, first, second, _⟩
    exact ⟨⟨own, second⟩, anyOf, first⟩
  · rintro ⟨⟨own, second⟩, anyOf, first⟩
    exact ⟨_, anyOf, own, first, second, rfl⟩

/-! ## A grouped branch that holds -/

/-- If a grouped branch holds then one of the clauses of the branches does. -/
theorem groupedBranches_widen (valuation : Atom → Truth) : (branches : List Criteria) →
    {ps qs : List Predicate} → (grouped : groupedBranches d m branches = .ok ps) →
    (flattened : flattenedBranches d m branches = .ok qs) →
    (holds : ∃ p ∈ ps, p.truth valuation = .yes) → ∃ q ∈ qs, q.truth valuation = .yes
  | [], _, _, grouped, _, holds => by
    cases grouped
    simp at holds
  | ⟨tests, branches⟩ :: rest, ps, qs, grouped, flattened, holds => by
    obtain ⟨anyOf, own, others, below, first, tail, rfl⟩ := groupedBranches_cons.mp grouped
    obtain ⟨same, inner, more, again, second, third, rfl⟩ := flattenedBranches_cons.mp flattened
    obtain rfl := Except.ok.inj (first.symm.trans again)
    obtain ⟨p, member, yes⟩ := holds
    rcases List.mem_append.mp member with here | later
    · simp only [List.mem_map, Option.mem_toList] at here
      obtain ⟨whole, joined, rfl⟩ := here
      rw [Predicate.truth_grouped, Predicate.truth_both? joined, Truth.and_eq_yes,
        Truth.all_eq_yes] at yes
      cases own with
      | cons a own =>
        -- all clauses of the branch hold, so does the first
        exact ⟨a, by simp, yes.2 _ (by simp)⟩
      | nil =>
        -- the branch is nothing but its own branches, of which there is one
        rcases alternatives_eq_yes.mp yes.1 with empty | one
        · obtain rfl := List.map_eq_nil_iff.mp empty
          cases joined
        · obtain ⟨q, found, value⟩ :=
            groupedBranches_widen valuation branches below second (List.mem_map.mp one)
          exact ⟨q, by simp [found], value⟩
    · obtain ⟨q, found, value⟩ := groupedBranches_widen valuation rest tail third ⟨p, later, yes⟩
      exact ⟨q, by simp [found], value⟩

end Criteria

/-! ## Branches that join nothing -/

/-- The number of clauses that a test has. -/
def Test.clauseCount : Test → Nat
  | .operators ops => ops.length
  | _ => 1

namespace Criteria

/-- The number of clauses that criteria have besides those of their branches. -/
def clauseCount (c : Criteria) : Nat := (c.tests.map fun t => t.2.clauseCount).sum

/-- Criteria that join no clauses, be it with each other or with branches. -/
def IsPlain (c : Criteria) : Prop :=
  (c.clauseCount ≤ 1 ∧ ∀ branch ∈ c.branches, branch.contributes = false) ∨ c.clauseCount = 0

instance (c : Criteria) : Decidable c.IsPlain := inferInstanceAs (Decidable (_ ∨ _))

mutual

/-- The branches of criteria, at every depth. -/
def branchesBelow : Criteria → List Criteria
  | ⟨_, branches⟩ => withBelow branches

/-- Criteria and their branches, at every depth. -/
def withBelow : List Criteria → List Criteria
  | [] => []
  | branch :: rest => branch :: branch.branchesBelow ++ withBelow rest

end

/-- Every clause of a test has an atom. -/
theorem atoms_length {field : String} {t : Test} {atoms : List Atom}
    (written : t.atoms d m field = .ok atoms) : atoms.length = t.clauseCount := by
  cases t with
  | regex pattern =>
    obtain ⟨a, _, written⟩ := bind_eq_ok_iff.mp written
    cases written
    rfl
  | operators ops =>
    induction ops generalizing atoms with
    | nil =>
      cases written
      rfl
    | cons op ops ih =>
      simp only [Test.atoms, List.mapM_cons] at written
      obtain ⟨a, _, written⟩ := bind_eq_ok_iff.mp written
      obtain ⟨more, rest, written⟩ := bind_eq_ok_iff.mp written
      cases written
      exact congrArg (· + 1) (ih rest)
  | _ =>
    cases written
    rfl

theorem testAtoms_length {tests : List (String × Test)} {ps : List Predicate}
    (written : testAtoms d m tests = .ok ps) :
    ps.length = (tests.map fun t => t.2.clauseCount).sum := by
  induction tests generalizing ps with
  | nil =>
    cases written
    rfl
  | cons t tests ih =>
    obtain ⟨atoms, first, written⟩ := bind_eq_ok_iff.mp written
    obtain ⟨more, rest, written⟩ := bind_eq_ok_iff.mp written
    cases written
    simp [atoms_length first, ih rest]

theorem mem_branchTests {branches : List Criteria} {t : String × Test} :
    t ∈ branchTests branches ↔ ∃ branch ∈ branches, t ∈ branch.allTests := by
  induction branches with
  | nil => simp [branchTests]
  | cons branch rest ih => simp [branchTests, ih]

/-- Where no branch contributes, there are no parts in either mode. -/
theorem branchParts_of_silent {branches : List Criteria}
    (silent : ∀ branch ∈ branches, branch.contributes = false) (mode : OrMode) :
    branchParts d m mode branches = .ok [] := by
  rw [branchParts_eq_nil]
  intro t member
  obtain ⟨branch, inside, here⟩ := mem_branchTests.mp member
  exact contributes_eq_false.mp (silent branch inside) t here

/-- A plain branch has the value of an alternative of its clauses and its own branches. -/
theorem any_plain {valuation : Atom → Truth} {tests : List (String × Test)}
    {branches : List Criteria} (plain : IsPlain ⟨tests, branches⟩)
    {own anyOf inner : List Predicate} (first : testAtoms d m tests = .ok own)
    (below : groupedBranches d m branches = .ok anyOf)
    (second : flattenedBranches d m branches = .ok inner)
    (same : Truth.any (anyOf.map (Predicate.truth valuation)) =
      .any (inner.map (Predicate.truth valuation))) :
    Truth.any ((Predicate.both? (Predicate.any? anyOf) (Predicate.all? own)).toList.map
        (Predicate.truth valuation)) =
      .any ((own ++ inner).map (Predicate.truth valuation)) := by
  have count : own.length = clauseCount ⟨tests, branches⟩ := testAtoms_length first
  rcases plain with ⟨single, silent⟩ | none
  · obtain rfl := Except.ok.inj (below.symm.trans (branchParts_of_silent silent .grouped))
    obtain rfl := Except.ok.inj (second.symm.trans (branchParts_of_silent silent .flattened))
    rcases own with _ | ⟨a, _ | ⟨b, own⟩⟩
    · rfl
    · rfl
    · simp only [List.length_cons] at count
      omega
  · obtain rfl : own = [] := List.length_eq_zero_iff.mp (count.trans none)
    rw [List.nil_append, ← same]
    cases joined : Predicate.any? anyOf with
    | none =>
      obtain rfl := Predicate.any?_eq_none.mp joined
      rfl
    | some p =>
      change Truth.any [p.truth valuation] = _
      rw [← Predicate.truth_any? joined, Truth.any_cons, Truth.any_nil, Truth.or_no]

/-- Plain branches are the same alternatives in both modes. -/
theorem groupedBranches_agree (valuation : Atom → Truth) : (branches : List Criteria) →
    (plain : ∀ branch ∈ withBelow branches, branch.IsPlain) → {ps qs : List Predicate} →
    (grouped : groupedBranches d m branches = .ok ps) →
    (flattened : flattenedBranches d m branches = .ok qs) →
    Truth.any (ps.map (Predicate.truth valuation)) = .any (qs.map (Predicate.truth valuation))
  | [], _, _, _, grouped, flattened => by
    rw [flattenedBranches, Except.ok.injEq] at flattened
    cases grouped
    rw [← flattened]
  | ⟨tests, branches⟩ :: rest, plain, ps, qs, grouped, flattened => by
    obtain ⟨anyOf, own, others, below, first, tail, rfl⟩ := groupedBranches_cons.mp grouped
    obtain ⟨same, inner, more, again, second, third, rfl⟩ := flattenedBranches_cons.mp flattened
    obtain rfl := Except.ok.inj (first.symm.trans again)
    simp only [withBelow, branchesBelow, List.cons_append, List.forall_mem_cons,
      List.forall_mem_append] at plain
    obtain ⟨here, plainBelow, plainRest⟩ := plain
    have inside := groupedBranches_agree valuation branches plainBelow below second
    have value := any_plain here first below second inside
    have values := groupedBranches_agree valuation rest plainRest tail third
    rw [List.map_append, Truth.any_append, List.map_append, Truth.any_append, values, ← value]
    simp [Function.comp_def]

/-! ## The modes compared -/

variable {c : Criteria} {p q : Predicate}

/-- Both predicates of some criteria ask for the same clauses of the tests, and next to them for
alternatives that are the same branches. -/
theorem predicate_parts (grouped : c.predicate d m .grouped = .ok (some p))
    (flattened : c.predicate d m .flattened = .ok (some q)) :
    ∃ ps qs own : List Predicate, groupedBranches d m c.branches = .ok ps ∧
      flattenedBranches d m c.branches = .ok qs ∧ (ps = [] ↔ qs = []) ∧
      ∀ valuation,
        p.truth valuation = (alternatives (ps.map (Predicate.truth valuation))).and
          (.all (own.map (Predicate.truth valuation))) ∧
        q.truth valuation = (alternatives (qs.map (Predicate.truth valuation))).and
          (.all (own.map (Predicate.truth valuation))) := by
  obtain ⟨ps, own, below, first, left⟩ := predicate_eq_ok.mp grouped
  obtain ⟨qs, same, parts, again, right⟩ := predicate_eq_ok.mp flattened
  obtain rfl := Except.ok.inj (first.symm.trans again)
  have none : ps = [] ↔ qs = [] := by
    rw [← Except.ok.injEq (ε := QueryError), ← below, branchParts_eq_nil,
      ← branchParts_eq_nil (d := d) (m := m) .flattened, parts, Except.ok.injEq]
  exact ⟨ps, qs, own, below, parts, none,
    fun _ => ⟨Predicate.truth_both? left, Predicate.truth_both? right⟩⟩

/-- Where the grouped predicate holds, so does the flattened one. -/
theorem predicate_widens (grouped : c.predicate d m .grouped = .ok (some p))
    (flattened : c.predicate d m .flattened = .ok (some q)) {valuation : Atom → Truth}
    (yes : p.truth valuation = .yes) : q.truth valuation = .yes := by
  obtain ⟨ps, qs, own, below, parts, none, values⟩ := predicate_parts grouped flattened
  rw [(values valuation).1, Truth.and_eq_yes] at yes
  rw [(values valuation).2, Truth.and_eq_yes]
  refine ⟨?_, yes.2⟩
  rw [alternatives_eq_yes] at yes ⊢
  rcases yes.1 with empty | one
  · exact .inl (by simpa [none] using empty)
  · have holds := groupedBranches_widen valuation c.branches below parts (List.mem_map.mp one)
    exact .inr (List.mem_map.mpr holds)

/-- Where every branch is plain, the two predicates have the same value. -/
theorem predicate_agrees (grouped : c.predicate d m .grouped = .ok (some p))
    (flattened : c.predicate d m .flattened = .ok (some q))
    (plain : ∀ branch ∈ c.branchesBelow, branch.IsPlain) (valuation : Atom → Truth) :
    p.truth valuation = q.truth valuation := by
  obtain ⟨tests, branches⟩ := c
  obtain ⟨ps, qs, own, below, parts, none, values⟩ := predicate_parts grouped flattened
  have same := groupedBranches_agree valuation branches plain below parts
  have empty : ps.map (Predicate.truth valuation) = [] ↔
      qs.map (Predicate.truth valuation) = [] := by simpa using none
  rw [(values valuation).1, (values valuation).2, alternatives_congr empty same]

end Criteria

end Modes

namespace Mapper

/-- There is a condition exactly if every test at every depth is accepted, whatever the mode. -/
theorem condition_succeeds {d : Dialect} {m : Model} {mode : OrMode} {c : Criteria} :
    (∃ s, condition ⟨d, m, mode⟩ c = .ok s) ↔ ∀ t ∈ c.allTests, Criteria.Accepts d m t := by
  rw [← Criteria.predicate_succeeds mode]
  simp only [condition_eq_ok]
  constructor
  · rintro ⟨_, found, written, _⟩
    exact ⟨found, written⟩
  · rintro ⟨found, written⟩
    exact ⟨_, found, written, rfl⟩

/-- The texts of the two conditions, as they are read, compare as their predicates do. -/
theorem expressions_compare {d : Dialect} (known : d.IsKnown) {m : Model} {c : Criteria}
    (quoted : c.QuotesAll m) {s t : String} (grouped : condition ⟨d, m, .grouped⟩ c = .ok s)
    (flattened : condition ⟨d, m, .flattened⟩ c = .ok t) (nonempty : s ≠ "") :
    ∃ e f, (d.tokens? s.toList).bind Expression.ofClause? = some e ∧
      (d.tokens? t.toList).bind Expression.ofClause? = some f ∧
      ∀ valuation, (e.truth valuation = .yes → f.truth valuation = .yes) ∧
        ((∀ branch ∈ c.branchesBelow, branch.IsPlain) → e.truth valuation = f.truth valuation) := by
  obtain ⟨first, one, rfl⟩ := condition_eq_ok.mp grouped
  obtain ⟨second, two, rfl⟩ := condition_eq_ok.mp flattened
  have present : first.isSome = second.isSome :=
    (Criteria.predicate_isSome one).trans (Criteria.predicate_isSome two).symm
  cases first with
  | none => exact absurd rfl nonempty
  | some p =>
    cases second with
    | none => cases present
    | some q =>
      have read {mode : OrMode} {p : Predicate}
          (written : predicate ⟨d, m, mode⟩ c = .ok (some p)) :
          (d.tokens? (d.condition p)).bind Expression.ofClause? = some p.expression :=
        Dialect.ofClause?_condition known
          (Criteria.predicate_means (fun _ => .yes) quoted written p rfl).readable
          (Criteria.predicate_binds written)
      refine ⟨p.expression, q.expression, by simpa using read one, by simpa using read two, ?_⟩
      intro valuation
      rw [Predicate.truth_expression, Predicate.truth_expression]
      exact ⟨Criteria.predicate_widens one two,
        fun plain => Criteria.predicate_agrees one two plain _⟩

/-- Flattening the branches neither turns criteria down nor drops their condition, and it only adds
rows for which the condition holds; none where every branch is plain. What holds is what the
conditions are the texts of, and what is read from them wherever all values are quoted. -/
theorem flattening_widens (d : Dialect) (m : Model) (c : Criteria) :
    ((∃ s, condition ⟨d, m, .grouped⟩ c = .ok s) ↔ ∃ s, condition ⟨d, m, .flattened⟩ c = .ok s) ∧
    (condition ⟨d, m, .grouped⟩ c = .ok "" ↔ condition ⟨d, m, .flattened⟩ c = .ok "") ∧
    (∀ p q, predicate ⟨d, m, .grouped⟩ c = .ok (some p) →
      predicate ⟨d, m, .flattened⟩ c = .ok (some q) →
      condition ⟨d, m, .grouped⟩ c = .ok (String.ofList (d.condition p)) ∧
      condition ⟨d, m, .flattened⟩ c = .ok (String.ofList (d.condition q)) ∧
      p.Binds .whole ∧ q.Binds .whole ∧
      ∀ valuation, (p.truth valuation = .yes → q.truth valuation = .yes) ∧
        ((∀ branch ∈ c.branchesBelow, branch.IsPlain) → p.truth valuation = q.truth valuation)) ∧
    (d.IsKnown → c.QuotesAll m → ∀ s t, condition ⟨d, m, .grouped⟩ c = .ok s →
      condition ⟨d, m, .flattened⟩ c = .ok t → s ≠ "" →
      ∃ e f, (d.tokens? s.toList).bind Expression.ofClause? = some e ∧
        (d.tokens? t.toList).bind Expression.ofClause? = some f ∧
        ∀ valuation, (e.truth valuation = .yes → f.truth valuation = .yes) ∧
          ((∀ branch ∈ c.branchesBelow, branch.IsPlain) →
            e.truth valuation = f.truth valuation)) := by
  have empty (mode : OrMode) : condition ⟨d, m, mode⟩ c = .ok "" ↔
      ∀ t ∈ c.allTests, t.2.isVacuous :=
    condition_eq_empty.trans Criteria.predicate_eq_none
  refine ⟨condition_succeeds.trans condition_succeeds.symm,
    (empty .grouped).trans (empty .flattened).symm, ?_,
    fun known quoted _ _ => expressions_compare known quoted⟩
  intro p q grouped flattened
  refine ⟨condition_eq_ok.mpr ⟨_, grouped, rfl⟩, condition_eq_ok.mpr ⟨_, flattened, rfl⟩,
    Criteria.predicate_binds grouped, Criteria.predicate_binds flattened, ?_⟩
  intro valuation
  exact ⟨Criteria.predicate_widens grouped flattened,
    fun plain => Criteria.predicate_agrees grouped flattened plain valuation⟩

/-- Plain branches in plain branches have conditions of the same value in both modes, as they are
read from their texts, and two clauses in one branch do not. -/
theorem flattening_widens_nested :
    let m := (Model.ofName "User").define "a" .number
    let plain : Criteria := ⟨[], [⟨[("a", .isNull)], []⟩,
      ⟨[("b", .operators [])], [⟨[("a", .equals (.int 1))], []⟩, ⟨[("b", .isNull)], []⟩]⟩]⟩
    let joining : Criteria := ⟨[], [⟨[("a", .isNull), ("b", .isNull)], []⟩]⟩
    (∃ p q, predicate ⟨.sqlite, m, .grouped⟩ plain = .ok (some p) ∧
      predicate ⟨.sqlite, m, .flattened⟩ plain = .ok (some q) ∧ p ≠ q ∧
      ∀ valuation, p.truth valuation = q.truth valuation) ∧
    (∃ e f,
      (Dialect.sqlite.tokens? "WHERE `a` IS NULL OR (`a` = 1 OR `b` IS NULL)".toList).bind
        Expression.ofClause? = some e ∧
      (Dialect.sqlite.tokens? "WHERE `a` IS NULL OR `a` = 1 OR `b` IS NULL".toList).bind
        Expression.ofClause? = some f ∧
      ∀ valuation, e.truth valuation = f.truth valuation) ∧
    ∃ p q valuation, predicate ⟨.sqlite, m, .grouped⟩ joining = .ok (some p) ∧
      predicate ⟨.sqlite, m, .flattened⟩ joining = .ok (some q) ∧
      p.truth valuation = .no ∧ q.truth valuation = .yes := by
  intro m plain joining
  let a : Predicate := .atom (.isNull "a")
  let b : Predicate := .atom (.isNull "b")
  let one : Predicate := .atom (.compare "a" "=" (.cell (.int 1)))
  have apart : predicate ⟨.sqlite, m, .flattened⟩ plain = .ok (some (.or a (.or one b))) := by
    simp only [predicate, Criteria.predicate, Criteria.flattenedPredicate,
      Criteria.flattenedBranches, plain]
    rfl
  have split : predicate ⟨.sqlite, m, .flattened⟩ joining = .ok (some (.or a b)) := by
    simp only [predicate, Criteria.predicate, Criteria.flattenedPredicate,
      Criteria.flattenedBranches, joining]
    rfl
  have together : predicate ⟨.sqlite, m, .grouped⟩ plain =
      .ok (some (.or a (.paren (.or one b)))) := rfl
  have branches : ∀ branch ∈ plain.branchesBelow, branch.IsPlain := by decide
  have quoted : plain.QuotesAll m := by unfold Criteria.QuotesAll; decide
  obtain ⟨_, _, compare, read⟩ := flattening_widens .sqlite m plain
  obtain ⟨grouped, flattened, _, _, values⟩ := compare _ _ together apart
  have groupedText : String.ofList (Dialect.sqlite.condition (.or a (.paren (.or one b)))) =
      "WHERE `a` IS NULL OR (`a` = 1 OR `b` IS NULL)" := by decide +kernel
  have flattenedText : String.ofList (Dialect.sqlite.condition (.or a (.or one b))) =
      "WHERE `a` IS NULL OR `a` = 1 OR `b` IS NULL" := by decide +kernel
  rw [groupedText] at grouped
  rw [flattenedText] at flattened
  obtain ⟨e, f, first, second, same⟩ := read (.inr rfl) quoted _ _ grouped flattened (by decide)
  exact ⟨⟨_, _, together, apart, by decide, fun valuation => (values valuation).2 branches⟩,
    ⟨e, f, first, second, fun valuation => (same valuation).2 branches⟩,
    _, _, fun c => .ofBool (c == .isNull "a"), rfl, split, by decide, by decide⟩

end Mapper

end SqlMapper
