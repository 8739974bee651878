import Mathlib.Data.List.Forall2
import SqlMapper.Proofs.Condition.Meaning
import SqlMapper.Proofs.Condition.Parts

/-! # What predicates mean

A predicate means a truth value at a level of a condition if it can be read back, binds tightly
enough for that level, and has that value when read. The connectives keep this up, and the atoms of
tests have it for what the clauses of the tests mean. Nothing is assumed of the tests but that no
text goes verbatim into the statement.
-/

namespace SqlMapper

open Text

/-! ## Predicates that mean something -/

/-- A predicate that reads back at a level as something with a given truth value. -/
structure Predicate.Means (d : Dialect) (valuation : Comparison → Truth) (level : Level)
    (p : Predicate) (t : Truth) : Prop where
  readable : p.Readable d
  binds : p.Binds level
  truth : p.expression.truth valuation = t

namespace Predicate

variable {d : Dialect} {valuation : Comparison → Truth} {level : Level}

theorem Means.of_atom {a : Atom} {t : Truth}
    (means : a.Readable d ∧ a.expression.truth valuation = t) :
    Means d valuation level (.atom a) t :=
  ⟨fun _ member => List.mem_singleton.mp member ▸ means.1, .atom, means.2⟩

theorem Means.whole {p : Predicate} {t : Truth} (means : Means d valuation level p t) :
    Means d valuation .whole p t := ⟨means.readable, means.binds.whole, means.truth⟩

theorem Means.paren {p : Predicate} {t : Truth} (means : Means d valuation .whole p t) :
    Means d valuation level (.paren p) t := ⟨means.readable, .paren means.binds, means.truth⟩

theorem Means.and {p q : Predicate} {t u : Truth} (first : Means d valuation .factor p t)
    (second : Means d valuation .term q u) : Means d valuation .term (.and p q) (t.and u) where
  readable a member := (List.mem_append.mp member).elim (first.readable a) (second.readable a)
  binds := .and (by decide) first.binds second.binds
  truth := by rw [expression, Expression.truth, first.truth, second.truth]

theorem Means.or {p q : Predicate} {t u : Truth} (first : Means d valuation .factor p t)
    (second : Means d valuation .whole q u) : Means d valuation .whole (.or p q) (t.or u) where
  readable a member := (List.mem_append.mp member).elim (first.readable a) (second.readable a)
  binds := .or first.binds.of_factor second.binds
  truth := by rw [expression, Expression.truth, first.truth, second.truth]

/-- Parentheses where they are needed make a part of a join. -/
theorem Means.grouped {p : Predicate} {t : Truth} (means : Means d valuation .whole p t) :
    Means d valuation .factor p.grouped t where
  readable := by
    rw [Readable, atoms_grouped]
    exact means.readable
  binds := means.binds.grouped
  truth := by
    have same : p.grouped.expression = p.expression := by cases p <;> rfl
    rw [same, means.truth]

/-- Predicates that mean some truth values, each fit to be a part of a join. -/
abbrev MeanAll (d : Dialect) (valuation : Comparison → Truth) :
    List Predicate → List Truth → Prop :=
  List.Forall₂ (Means d valuation .factor)

theorem all?_means {ps : List Predicate} {ts : List Truth} (means : MeanAll d valuation ps ts)
    {p : Predicate} (joined : all? ps = some p) : Means d valuation .term p (.all ts) := by
  revert ts
  apply all?_induction _ _ joined
  · rintro p _ (_ | ⟨first, ⟨⟩⟩)
    exact ⟨first.readable, first.binds.of_factor, by simp [first.truth]⟩
  · rintro p ps q rest _ (_ | ⟨first, others⟩)
    exact first.and (rest others)

theorem any?_means {ps : List Predicate} {ts : List Truth} (means : MeanAll d valuation ps ts)
    {p : Predicate} (joined : any? ps = some p) : Means d valuation .whole p (.any ts) := by
  revert ts
  apply any?_induction _ _ joined
  · rintro p _ (_ | ⟨first, ⟨⟩⟩)
    exact ⟨first.readable, first.binds.whole, by simp [first.truth, Truth.any]⟩
  · rintro p ps q rest _ (_ | ⟨first, others⟩)
    exact first.or (rest others)

/-- Alternatives and clauses put together mean that one of the ones and all of the others hold. -/
theorem both?_means {ps qs : List Predicate} {ts us : List Truth}
    (any : MeanAll d valuation ps ts) (all : MeanAll d valuation qs us) {p : Predicate}
    (joined : both? (any? ps) (all? qs) = some p) :
    Means d valuation .whole p ((alternatives ts).and (.all us)) := by
  have alternative {a : Predicate} (first : any? ps = some a) :
      Means d valuation .whole a (alternatives ts) := by
    have meant := any?_means any first
    cases any with
    | nil => cases first
    | cons => exact meant
  obtain ⟨rfl, second⟩ | ⟨first, rfl⟩ | ⟨a, b, first, second, rfl⟩ := both?_cases joined
  · cases any
    simpa [alternatives] using (all?_means all second).whole
  · cases all
    simpa using alternative first
  · have left : Means d valuation .factor (.paren a) (alternatives ts) := (alternative first).paren
    have right : Means d valuation .term (.paren b) (.all us) :=
      (all?_means all second).whole.paren
    exact (left.and right).whole

end Predicate

/-! ## Atoms of tests -/

/-- Only text for an undeclared field is taken over verbatim. -/
theorem literal_cell {declared : Option Property} {v : Value}
    (quoted : declared = none → v.text? = none) :
    (literal declared v).IsCell ∧ (literal declared v).stored = store declared v := by
  cases declared with
  | some p => cases v <;> exact ⟨rfl, rfl⟩
  | none =>
    cases v with
    | text s => simp [Value.text?] at quoted
    | _ => exact ⟨rfl, rfl⟩

/-- The SQL tokens of the operators that compare with one value. -/
theorem comparisonToken?_eq_some {key token : String} (found : comparisonToken? key = some token) :
    token ∈ comparisonTokens ∧ (Operator.other key).sqlName = token := by
  rw [comparisonToken?] at found
  have same := List.find?_some found
  simp only [beq_iff_eq] at same
  exact ⟨List.mem_of_find?_eq_some found, same.symm⟩

section Atoms

variable {d : Dialect} {m : Model} (valuation : Comparison → Truth)

theorem compare_means {field token : String} {v : Value} (listed : token ∈ comparisonTokens)
    (quoted : m.declaration? field = none → v.text? = none) :
    (Atom.compare field token (literal (m.declaration? field) v)).Readable d ∧
      (Atom.compare field token (literal (m.declaration? field) v)).expression.truth valuation =
        valuation (m.comparison field token [v]) := by
  obtain ⟨cell, stored⟩ := literal_cell quoted
  refine ⟨⟨listed, cell⟩, ?_⟩
  simp only [Atom.expression, Expression.truth, stored, Model.comparison, Model.scalar,
    List.map_cons, List.map_nil]

/-- Membership in no values is a constant. -/
theorem operatorAtom_members (field : String) (declared : Option Property) (negated : Bool)
    (operand : Operand) :
    operatorAtom d field declared (if negated then .notIn else .isIn) operand =
      .ok (if operand.values = [] then .constant negated
        else .member field negated (operand.values.map (literal declared))) := by
  cases negated <;> rcases operand with v | (_ | ⟨v, vs⟩) <;> rfl

theorem members_means {field : String} {negated : Bool} {vs : List Value}
    (quoted : m.declaration? field = none → ∀ v ∈ vs, v.text? = none) :
    let a : Atom := if vs = [] then .constant negated
      else .member field negated (vs.map (literal (m.declaration? field)))
    a.Readable d ∧ a.expression.truth valuation =
      if vs = [] then .ofBool negated
      else valuation (m.comparison field (if negated then "NOT IN" else "IN") vs) := by
  have cell (v : Value) (member : v ∈ vs) :=
    literal_cell fun undeclared => quoted undeclared v member
  by_cases empty : vs = []
  · simp only [empty, if_true]
    exact ⟨trivial, rfl⟩
  · simp only [empty, if_false]
    refine ⟨⟨by simpa using empty, fun l member => ?_⟩, ?_⟩
    · obtain ⟨v, inside, rfl⟩ := List.mem_map.mp member
      exact (cell v inside).1
    · simp only [Atom.expression, Expression.truth, Model.comparison, Model.scalar, List.map_map]
      congr 2
      exact List.map_congr_left fun v inside => by
        simp only [Function.comp_apply, (cell v inside).2]

theorem range_means {field : String} {low high : Value}
    (quoted : m.declaration? field = none → ∀ v ∈ [low, high], v.text? = none) :
    let a : Atom := .range field (m.boundFunction d field) (literal (m.declaration? field) low)
      (literal (m.declaration? field) high)
    a.Readable d ∧ a.expression.truth valuation = valuation (m.range d field low high) := by
  have lower := literal_cell fun undeclared => quoted undeclared low (by simp)
  have upper := literal_cell fun undeclared => quoted undeclared high (by simp)
  refine ⟨⟨?_, lower.1, upper.1⟩, ?_⟩
  · unfold Model.boundFunction
    split
    · exact .inr rfl
    · exact .inl rfl
  · simp only [Atom.expression, Expression.truth, lower.2, upper.2, Model.range, Model.scalar]

theorem matchAtom_means {field pattern : String} {a : Atom}
    (written : matchAtom field pattern = .ok a) :
    a.Readable d ∧ a.expression.truth valuation = valuation (matching field pattern) := by
  simp only [matchAtom] at written
  split at written
  · cases written
    exact ⟨⟨by decide, rfl⟩, rfl⟩
  · cases written

/-- The atom of an operator says what its clause means. -/
theorem operatorAtom_means {field : String} {op : Operator} {operand : Operand} {a : Atom}
    (quoted : m.declaration? field = none → op ≠ .regex → ∀ v ∈ operand.values, v.text? = none)
    (written : operatorAtom d field (m.declaration? field) op operand = .ok a) :
    a.Readable d ∧
      a.expression.truth valuation = operatorClause d m valuation field op operand := by
  cases op with
  | isIn =>
    obtain rfl := Except.ok.inj ((operatorAtom_members field _ false operand).symm.trans written)
    exact members_means valuation fun undeclared => quoted undeclared (by decide)
  | notIn =>
    obtain rfl := Except.ok.inj ((operatorAtom_members field _ true operand).symm.trans written)
    exact members_means valuation fun undeclared => quoted undeclared (by decide)
  | between =>
    rcases operand with v | (_ | ⟨low, _ | ⟨high, _ | ⟨more, vs⟩⟩⟩)
    case list.cons.cons.nil =>
      obtain rfl := Except.ok.inj written
      exact range_means valuation fun undeclared => quoted undeclared (by decide)
    all_goals cases written
  | regex =>
    rcases operand with v | vs
    · cases v
      case text pattern => exact matchAtom_means valuation written
      all_goals cases written
    · cases written
  | other key =>
    cases operand with
    | list vs => cases written
    | value v =>
      simp only [operatorAtom] at written
      split at written
      · rename_i token found
        obtain ⟨listed, name⟩ := comparisonToken?_eq_some found
        cases written
        rw [operatorClause.eq_def]
        dsimp only
        rw [name]
        have member : v ∈ (Operand.value v).values := by simp [Operand.values]
        exact compare_means valuation listed fun undeclared => quoted undeclared (by simp) v member
      · cases written
  | _ =>
    cases operand with
    | list vs => cases written
    | value v =>
      obtain rfl := Except.ok.inj written
      have member : v ∈ (Operand.value v).values := by simp [Operand.values]
      exact compare_means valuation (by decide) fun undeclared => quoted undeclared (by simp) v member

end Atoms

/-! ## Tests -/

section Tests

variable {d : Dialect} {m : Model} (valuation : Comparison → Truth)

theorem operators_means {field : String} {ops : List (Operator × Operand)} {atoms : List Atom}
    (quoted : m.declaration? field = none → (Test.operators ops).comparesText = false)
    (written : (Test.operators ops).atoms d m field = .ok atoms) :
    Predicate.MeanAll d valuation (atoms.map .atom)
      ((Test.operators ops).clauses d m valuation field) := by
  induction ops generalizing atoms with
  | nil =>
    cases written
    exact .nil
  | cons op ops ih =>
    simp only [Test.atoms, List.mapM_cons] at written
    obtain ⟨a, first, written⟩ := bind_eq_ok_iff.mp written
    obtain ⟨more, rest, written⟩ := bind_eq_ok_iff.mp written
    cases written
    simp only [Test.comparesText, List.any_cons, Bool.or_eq_false_iff] at quoted
    have first_quoted (undeclared : m.declaration? field = none) (unmatched : op.1 ≠ .regex) :
        ∀ v ∈ op.2.values, v.text? = none := by
      simpa [unmatched] using (quoted undeclared).1
    have means := operatorAtom_means valuation first_quoted first
    exact .cons (.of_atom means) (ih (fun undeclared => (quoted undeclared).2) rest)

/-- The atoms of a test say what its clauses mean. -/
theorem atoms_means {field : String} {t : Test} {atoms : List Atom}
    (quoted : m.declaration? field = none → t.comparesText = false)
    (written : t.atoms d m field = .ok atoms) :
    Predicate.MeanAll d valuation (atoms.map .atom) (t.clauses d m valuation field) := by
  cases t with
  | isNull =>
    cases written
    exact .cons (.of_atom ⟨trivial, rfl⟩) .nil
  | equals v =>
    cases written
    have noText (undeclared : m.declaration? field = none) : v.text? = none := by
      simpa [Test.comparesText] using quoted undeclared
    have listed : "=" ∈ comparisonTokens := by decide
    have means := compare_means (d := d) valuation listed noText
    exact .cons (.of_atom means) .nil
  | regex pattern =>
    obtain ⟨a, found, written⟩ := bind_eq_ok_iff.mp written
    cases written
    have means := matchAtom_means (d := d) valuation found
    exact .cons (.of_atom means) .nil
  | operators ops =>
    exact operators_means valuation quoted written

/-- The atoms of some tests say what their clauses mean. -/
theorem testAtoms_means {tests : List (String × Test)} {ps : List Predicate}
    (quoted : ∀ t ∈ tests, m.declaration? t.1 = none → t.2.comparesText = false)
    (written : Criteria.testAtoms d m tests = .ok ps) :
    Predicate.MeanAll d valuation ps (clauses d m valuation tests) := by
  induction tests generalizing ps with
  | nil =>
    cases written
    exact .nil
  | cons t tests ih =>
    obtain ⟨field, test⟩ := t
    obtain ⟨atoms, first, written⟩ := bind_eq_ok_iff.mp written
    obtain ⟨more, rest, written⟩ := bind_eq_ok_iff.mp written
    cases written
    obtain ⟨own, others⟩ := List.forall_mem_cons.mp quoted
    exact List.rel_append (atoms_means valuation own first) (ih others rest)

end Tests

end SqlMapper
