import SqlMapper.Proofs.Condition.Clause
import SqlMapper.Proofs.Text.Blanks

/-! # Which criteria are turned down

What is malformed is told by the criteria alone: operators with operands that they do not take,
patterns that are not accepted, and keys that spell no comparison. Criteria are turned down exactly
if a test at some depth is malformed, and always as an invalid condition, so neither the model nor
the dialect nor the mode has a part in it. Otherwise every comparison of a test, and no other, stands
in the condition, and it compares by a listed token, whatever the spelling of a key.
-/

namespace SqlMapper

open Text

/-! ## Patterns between slashes -/

/-- A text is a pattern between slashes: its first character, and the last one behind that. -/
def IsSlashed (s pattern : String) : Prop :=
  ∃ tail, '/' ∉ tail ∧ s.toList = '/' :: (pattern.toList ++ '/' :: tail)

/-- The pattern that a text stands for: what is between its slashes, or all of it. -/
def StandsFor (s pattern : String) : Prop :=
  IsSlashed s pattern ∨ (∀ other, ¬ IsSlashed s other) ∧ pattern = s

theorem beforeLastSlash?_eq_none {cs : List Char} : beforeLastSlash? cs = none ↔ '/' ∉ cs := by
  induction cs with
  | nil => simp [beforeLastSlash?]
  | cons c rest ih =>
    rw [beforeLastSlash?, List.mem_cons, not_or, ← ih, eq_comm (a := '/')]
    cases beforeLastSlash? rest <;> simp

theorem beforeLastSlash?_append (front : List Char) {tail : List Char} (last : '/' ∉ tail) :
    beforeLastSlash? (front ++ '/' :: tail) = some front := by
  induction front with
  | nil => simp [beforeLastSlash?, beforeLastSlash?_eq_none.mpr last]
  | cons c front ih => simp [beforeLastSlash?, ih]

theorem beforeLastSlash?_eq_some {cs front : List Char} :
    beforeLastSlash? cs = some front ↔ ∃ tail, '/' ∉ tail ∧ cs = front ++ '/' :: tail := by
  constructor
  · intro found
    induction cs generalizing front with
    | nil => cases found
    | cons c rest ih =>
      rw [beforeLastSlash?] at found
      cases inner : beforeLastSlash? rest with
      | some more =>
        obtain ⟨tail, last, rfl⟩ := ih inner
        rw [inner] at found
        cases found
        exact ⟨tail, last, rfl⟩
      | none =>
        simp only [inner, Option.ite_none_right_eq_some, Option.some.injEq] at found
        obtain ⟨rfl, rfl⟩ := found
        exact ⟨rest, beforeLastSlash?_eq_none.mp inner, rfl⟩
  · rintro ⟨tail, last, rfl⟩
    exact beforeLastSlash?_append front last

theorem slashedPattern?_eq_some {s pattern : String} :
    slashedPattern? s = some pattern ↔ IsSlashed s pattern := by
  rw [slashedPattern?, IsSlashed]
  split
  · next rest shape =>
    rw [shape, Option.map_eq_some_iff]
    constructor
    · rintro ⟨front, found, rfl⟩
      obtain ⟨tail, last, rfl⟩ := beforeLastSlash?_eq_some.mp found
      exact ⟨tail, last, by rw [String.toList_ofList]⟩
    · rintro ⟨tail, last, same⟩
      exact ⟨pattern.toList, beforeLastSlash?_eq_some.mpr ⟨tail, last, List.cons.inj same |>.2⟩,
        String.ofList_toList⟩
  · next other =>
    constructor
    · nofun
    · rintro ⟨tail, _, same⟩
      exact absurd same (other _)

theorem standsFor_iff {s pattern : String} :
    StandsFor s pattern ↔ pattern = (slashedPattern? s).getD s := by
  simp only [StandsFor, ← slashedPattern?_eq_some]
  cases slashedPattern? s <;> simp [eq_comm]

/-! ## Keys of comparisons -/

/-- A key in capitals, without blanks at its ends and with single spaces inside. -/
def normalized (key : String) : List Char := (collapse (trim key.toList)).map Char.toUpper

theorem sqlName_other (key : String) :
    (Operator.other key).sqlName = String.ofList (normalized key) := by
  rw [Operator.sqlName, joinWith_words, normalized]

/-- A key is taken for the listed token that it comes to. -/
theorem comparisonToken?_eq_some_iff {key token : String} :
    comparisonToken? key = some token ↔
      token ∈ comparisonTokens ∧ token.toList = normalized key := by
  constructor
  · intro found
    obtain ⟨listed, name⟩ := comparisonToken?_eq_some found
    exact ⟨listed, by rw [← name, sqlName_other, String.toList_ofList]⟩
  · rintro ⟨listed, spelled⟩
    cases found : comparisonToken? key with
    | none =>
      have other := List.find?_eq_none.mp found token listed
      rw [joinWith_words] at other
      exact absurd (beq_iff_eq.mpr (by rw [← normalized, ← spelled, String.ofList_toList])) other
    | some other =>
      obtain ⟨_, name⟩ := comparisonToken?_eq_some found
      rw [← name, sqlName_other, ← spelled, String.ofList_toList]

theorem comparisonToken?_eq_none_iff {key : String} :
    comparisonToken? key = none ↔ ∀ token ∈ comparisonTokens, token.toList ≠ normalized key := by
  rw [Option.eq_none_iff_forall_ne_some]
  simp only [ne_eq, comparisonToken?_eq_some_iff, not_and]

/-! ## Malformed tests -/

/-- An operand that an operator does not take. -/
inductive Operator.Malformed : Operator → Operand → Prop
  | bounds {operand} (other : ∀ low high, operand ≠ .list [low, high]) : Malformed .between operand
  | pattern {s pattern} (stands : StandsFor s pattern)
      (rejected : Pattern.isValid pattern = false) : Malformed .regex (.value (.text s))
  | noPattern {operand} (other : ∀ s, operand ≠ .value (.text s)) : Malformed .regex operand
  | list {op vs} (single : op ≠ .isIn ∧ op ≠ .notIn ∧ op ≠ .between) : Malformed op (.list vs)
  | unlisted {key operand} (other : ∀ token ∈ comparisonTokens, token.toList ≠ normalized key) :
      Malformed (.other key) operand

/-- A test with a pattern that is not accepted, or with an operator that is malformed. -/
inductive Test.Malformed : Test → Prop
  | regex {pattern} (rejected : Pattern.isValid pattern = false) : Malformed (.regex pattern)
  | operators {ops op operand} (member : (op, operand) ∈ ops) (malformed : op.Malformed operand) :
      Malformed (.operators ops)

/-- Criteria with a malformed test at some depth. -/
def Criteria.Malformed (c : Criteria) : Prop := ∃ t ∈ c.allTests, t.2.Malformed

/-! ## Results and refusals -/

/-- What has a result, or is malformed and refused as an invalid condition. -/
inductive Refuses {α : Type} (x : Except QueryError α) (malformed : Prop) : Prop
  | accepted (a : α) (result : x = .ok a) (sound : ¬ malformed)
  | refused (cause : ConditionError) (result : x = invalid cause) (unsound : malformed)

namespace Refuses

variable {α β : Type} {x : Except QueryError α} {p q : Prop}

theorem ok (a : α) : Refuses (.ok a) False := .accepted a rfl id

theorem congr (refuses : Refuses x p) (same : p ↔ q) : Refuses x q := propext same ▸ refuses

/-- A sequence is refused where one of its parts is. -/
theorem bind {next : α → Except QueryError β} (first : Refuses x p)
    (second : ∀ a, Refuses (next a) q) : Refuses (x >>= next) (p ∨ q) := by
  cases first with
  | refused cause result unsound =>
    subst result
    exact .refused cause rfl (.inl unsound)
  | accepted a result sound =>
    subst result
    cases second a with
    | refused cause result unsound => exact .refused cause result (.inr unsound)
    | accepted b result sound' => exact .accepted b result (not_or.mpr ⟨sound, sound'⟩)

theorem ok_iff (refuses : Refuses x p) : (∃ a, x = .ok a) ↔ ¬ p := by
  cases refuses with
  | accepted a result sound => exact ⟨fun _ => sound, fun _ => ⟨a, result⟩⟩
  | refused cause result unsound =>
    subst result
    exact ⟨nofun, fun sound => absurd unsound sound⟩

theorem error_iff (refuses : Refuses x p) : (∃ e, x = .error e) ↔ p := by
  cases refuses with
  | accepted a result sound =>
    subst result
    exact ⟨nofun, fun unsound => absurd unsound sound⟩
  | refused cause result unsound => exact ⟨fun _ => unsound, fun _ => ⟨_, result⟩⟩

theorem cause (refuses : Refuses x p) {e : QueryError} (error : x = .error e) :
    ∃ cause, e = .invalidCondition cause := by
  cases refuses with
  | accepted a result sound =>
    rw [result] at error
    cases error
  | refused cause result unsound =>
    rw [result] at error
    cases error
    exact ⟨cause, rfl⟩

end Refuses

section Tests

variable {d : Dialect} {m : Model} {field : String} {declared : Option Property}

theorem matchAtom_refuses (pattern : String) :
    Refuses (matchAtom field pattern) (Pattern.isValid pattern = false) := by
  rw [matchAtom]
  cases valid : Pattern.isValid pattern with
  | true => exact .accepted _ (if_pos rfl) (by decide)
  | false => exact .refused _ (if_neg (by decide)) rfl

theorem malformed_regex_iff (s : String) :
    Operator.Malformed .regex (.value (.text s)) ↔
      Pattern.isValid ((slashedPattern? s).getD s) = false := by
  constructor
  · rintro (_ | ⟨stands, rejected⟩ | ⟨other⟩ | _ | _)
    · rwa [← standsFor_iff.mp stands]
    · exact absurd rfl (other s)
  · exact .pattern (standsFor_iff.mpr rfl)

theorem malformed_other_iff (key : String) (v : Value) :
    Operator.Malformed (.other key) (.value v) ↔ comparisonToken? key = none := by
  rw [comparisonToken?_eq_none_iff]
  constructor
  · rintro (_ | _ | _ | _ | ⟨other⟩)
    exact other
  · exact .unlisted

/-- An operator is refused exactly if it is malformed. -/
theorem operatorAtom_refuses (op : Operator) (operand : Operand) :
    Refuses (operatorAtom d field declared op operand) (op.Malformed operand) := by
  cases op with
  | isIn =>
    have sound : ¬ Operator.Malformed .isIn operand := by
      rintro (_ | _ | _ | ⟨single⟩ | _)
      exact single.1 rfl
    rcases operand with v | (_ | ⟨v, vs⟩)
    all_goals exact .accepted _ rfl sound
  | notIn =>
    have sound : ¬ Operator.Malformed .notIn operand := by
      rintro (_ | _ | _ | ⟨single⟩ | _)
      exact single.2.1 rfl
    rcases operand with v | (_ | ⟨v, vs⟩)
    all_goals exact .accepted _ rfl sound
  | between =>
    rcases operand with v | (_ | ⟨low, _ | ⟨high, _ | ⟨more, vs⟩⟩⟩)
    case list.cons.cons.nil =>
      refine .accepted _ rfl ?_
      rintro (⟨other⟩ | _ | _ | ⟨single⟩ | _)
      · exact other low high rfl
      · exact single.2.2 rfl
    all_goals exact .refused _ rfl (.bounds (by simp))
  | regex =>
    rcases operand with v | vs
    · cases v
      case text s => exact (matchAtom_refuses _).congr (malformed_regex_iff s).symm
      all_goals exact .refused _ rfl (.noPattern (by simp))
    · exact .refused _ rfl (.noPattern (by simp))
  | other key =>
    cases operand with
    | list vs => exact .refused _ rfl (.list (by simp))
    | value v =>
      simp only [operatorAtom]
      cases found : comparisonToken? key with
      | some token =>
        refine .accepted _ rfl fun malformed => ?_
        rw [malformed_other_iff, found] at malformed
        cases malformed
      | none => exact .refused _ rfl ((malformed_other_iff key v).mpr found)
  | _ =>
    cases operand with
    | list vs => exact .refused _ rfl (.list (by simp))
    | value v =>
      refine .accepted _ rfl ?_
      rintro ⟨⟩

theorem operators_refuses (ops : List (Operator × Operand)) :
    Refuses ((Test.operators ops).atoms d m field) (∃ op ∈ ops, op.1.Malformed op.2) := by
  induction ops with
  | nil => exact (Refuses.ok []).congr (by simp)
  | cons op ops ih =>
    have first : Refuses (operatorAtom d field (m.declaration? field) op.1 op.2)
        (op.1.Malformed op.2) := operatorAtom_refuses op.1 op.2
    have parts := first.bind fun a => ih.bind fun more => Refuses.ok (a :: more)
    simp only [Test.atoms, List.mapM_cons] at parts ⊢
    exact parts.congr (by simp)

/-- A test is refused exactly if it is malformed. -/
theorem Test.atoms_refuses (field : String) (t : Test) :
    Refuses (t.atoms d m field) t.Malformed := by
  cases t with
  | isNull => exact .accepted _ rfl nofun
  | equals v => exact .accepted _ rfl nofun
  | regex pattern =>
    refine ((matchAtom_refuses pattern).bind fun a => .ok [a]).congr ⟨?_, ?_⟩
    · exact fun rejected => .regex (rejected.resolve_right id)
    · rintro ⟨rejected⟩
      exact .inl rejected
  | operators ops =>
    refine (operators_refuses ops).congr ⟨?_, ?_⟩
    · rintro ⟨op, member, malformed⟩
      exact .operators member malformed
    · rintro (_ | ⟨member, malformed⟩)
      exact ⟨_, member, malformed⟩

end Tests

/-! ## Malformed criteria -/

section Recursion

variable {d : Dialect} {m : Model}

namespace Criteria

theorem testAtoms_refuses (tests : List (String × Test)) :
    Refuses (testAtoms d m tests) (∃ t ∈ tests, t.2.Malformed) := by
  induction tests with
  | nil => exact (Refuses.ok []).congr (by simp)
  | cons t tests ih =>
    have parts := (t.2.atoms_refuses (d := d) (m := m) t.1).bind fun own => ih.bind fun more =>
      Refuses.ok (own.map Predicate.atom ++ more)
    exact parts.congr (by simp)

mutual

theorem groupedPredicate_refuses : (c : Criteria) → Refuses (groupedPredicate d m c) c.Malformed
  | ⟨tests, branches⟩ => by
    have parts := (groupedBranches_refuses branches).bind fun anyOf =>
      (testAtoms_refuses (d := d) (m := m) tests).bind fun allOf =>
        Refuses.ok (Predicate.both? (Predicate.any? anyOf) (Predicate.all? allOf))
    rw [groupedPredicate]
    refine parts.congr ?_
    simp only [Malformed, allTests, List.mem_append, or_and_right, exists_or, or_false]
    exact or_comm

theorem groupedBranches_refuses : (branches : List Criteria) →
    Refuses (groupedBranches d m branches) (∃ t ∈ branchTests branches, t.2.Malformed)
  | [] => by
    rw [groupedBranches]
    exact (Refuses.ok []).congr (by simp [branchTests])
  | branch :: rest => by
    have parts := (groupedPredicate_refuses branch).bind fun p =>
      (groupedBranches_refuses rest).bind fun more =>
        Refuses.ok (p.toList.map Predicate.grouped ++ more)
    rw [groupedBranches]
    refine parts.congr ?_
    simp only [Malformed, branchTests, List.mem_append, or_and_right, exists_or, or_false]

end

theorem flattenedBranches_refuses : (branches : List Criteria) →
    Refuses (flattenedBranches d m branches) (∃ t ∈ branchTests branches, t.2.Malformed)
  | [] => by
    rw [flattenedBranches]
    exact (Refuses.ok []).congr (by simp [branchTests])
  | ⟨tests, branches⟩ :: rest => by
    have parts := (testAtoms_refuses (d := d) (m := m) tests).bind fun own =>
      (flattenedBranches_refuses branches).bind fun inner =>
        (flattenedBranches_refuses rest).bind fun more => Refuses.ok (own ++ inner ++ more)
    rw [flattenedBranches]
    refine parts.congr ?_
    simp only [branchTests, allTests, List.mem_append, or_and_right, exists_or, or_false, or_assoc]

/-- In either mode criteria are refused exactly if they are malformed. -/
theorem predicate_refuses (mode : OrMode) (c : Criteria) :
    Refuses (c.predicate d m mode) c.Malformed := by
  cases mode with
  | grouped => exact groupedPredicate_refuses c
  | flattened =>
    obtain ⟨tests, branches⟩ := c
    have parts := (flattenedBranches_refuses (d := d) (m := m) branches).bind fun anyOf =>
      (testAtoms_refuses (d := d) (m := m) tests).bind fun allOf =>
        Refuses.ok (Predicate.both? (Predicate.any? anyOf) (Predicate.all? allOf))
    refine parts.congr ?_
    simp only [Malformed, allTests, List.mem_append, or_and_right, exists_or, or_false]
    exact or_comm

end Criteria

end Recursion

/-! ## Comparisons -/

/-- The token and the literal that an operator compares by. -/
inductive Operator.ComparesBy (declared : Option Property) :
    Operator → Operand → String → Literal → Prop
  | plain {op v} (named : op ∈ [gt, gte, lt, lte, eq, neq, like, notLike]) :
      ComparesBy declared op (.value v) op.token (literal declared v)
  | pattern {s pattern} (stands : StandsFor s pattern) (valid : Pattern.isValid pattern = true) :
      ComparesBy declared .regex (.value (.text s)) "REGEXP" (.cell (.text pattern))
  | key {key token v} (listed : token ∈ comparisonTokens)
      (spelled : token.toList = normalized key) :
      ComparesBy declared (.other key) (.value v) token (literal declared v)

/-- The token and the literal that a test compares by. -/
inductive Test.ComparesBy (declared : Option Property) : Test → String → Literal → Prop
  | equals (v) : ComparesBy declared (.equals v) "=" (literal declared v)
  | pattern {pattern} (valid : Pattern.isValid pattern = true) :
      ComparesBy declared (.regex pattern) "REGEXP" (.cell (.text pattern))
  | operators {ops op operand token value} (member : (op, operand) ∈ ops)
      (compares : op.ComparesBy declared operand token value) :
      ComparesBy declared (.operators ops) token value

section Writing

variable {d : Dialect} {m : Model} {field column token : String} {value : Literal}

theorem mem_operatorAtoms {ops : List (Operator × Operand)} {atoms : List Atom}
    (written : (Test.operators ops).atoms d m field = .ok atoms) {a : Atom} :
    a ∈ atoms ↔ ∃ op ∈ ops, operatorAtom d field (m.declaration? field) op.1 op.2 = .ok a := by
  induction ops generalizing atoms with
  | nil =>
    cases written
    simp
  | cons op ops ih =>
    simp only [Test.atoms, List.mapM_cons] at written
    obtain ⟨first, one, written⟩ := bind_eq_ok_iff.mp written
    obtain ⟨more, rest, written⟩ := bind_eq_ok_iff.mp written
    cases written
    simp [ih rest, one, eq_comm]

theorem matchAtom_eq_ok {pattern : String} {a : Atom} :
    matchAtom field pattern = .ok a ↔
      Pattern.isValid pattern = true ∧ a = .compare field "REGEXP" (.cell (.text pattern)) := by
  rw [matchAtom]
  cases Pattern.isValid pattern with
  | true => simp [eq_comm]
  | false => simp [invalid]

theorem Operator.ComparesBy.listed {declared : Option Property} {op : Operator} {operand : Operand}
    (compares : op.ComparesBy declared operand token value) : token ∈ comparisonTokens := by
  cases compares with
  | plain named =>
    have all : ∀ op ∈ [gt, gte, lt, lte, eq, neq, like, notLike], op.token ∈ comparisonTokens := by
      decide
    exact all _ named
  | pattern => decide
  | key listed => exact listed

/-- What a test compares by is a listed token. -/
theorem Test.ComparesBy.listed {declared : Option Property} {t : Test}
    (compares : t.ComparesBy declared token value) : token ∈ comparisonTokens := by
  cases compares with
  | equals => decide
  | pattern => decide
  | operators _ compares => exact compares.listed

theorem Test.ComparesBy.not_vacuous {declared : Option Property} {t : Test}
    (compares : t.ComparesBy declared token value) : ¬ t.isVacuous = true := by
  cases compares with
  | equals => exact Bool.false_ne_true
  | pattern => exact Bool.false_ne_true
  | operators member =>
    intro vacuous
    rw [isVacuous, List.isEmpty_iff] at vacuous
    exact absurd (vacuous ▸ member) List.not_mem_nil

/-- An operator is written as the comparison that it is. -/
theorem operatorAtom_compare {declared : Option Property} {op : Operator} {operand : Operand} :
    operatorAtom d field declared op operand = .ok (.compare column token value) ↔
      column = field ∧ op.ComparesBy declared operand token value := by
  constructor
  · intro written
    cases op with
    | isIn => rcases operand with v | (_ | ⟨v, vs⟩) <;> cases written
    | notIn => rcases operand with v | (_ | ⟨v, vs⟩) <;> cases written
    | between => rcases operand with v | (_ | ⟨low, _ | ⟨high, _ | ⟨more, vs⟩⟩⟩) <;> cases written
    | regex =>
      rcases operand with v | vs
      · cases v
        case text s =>
          obtain ⟨valid, same⟩ := matchAtom_eq_ok.mp written
          cases same
          exact ⟨rfl, .pattern (standsFor_iff.mpr rfl) valid⟩
        all_goals cases written
      · cases written
    | other key =>
      cases operand with
      | list vs => cases written
      | value v =>
        simp only [operatorAtom] at written
        split at written
        · next found =>
          cases written
          obtain ⟨listed, spelled⟩ := comparisonToken?_eq_some_iff.mp found
          exact ⟨rfl, .key listed spelled⟩
        · cases written
    | _ =>
      cases operand with
      | list vs => cases written
      | value v =>
        cases written
        exact ⟨rfl, .plain (by decide)⟩
  · rintro ⟨rfl, compares⟩
    cases compares with
    | plain named =>
      simp only [List.mem_cons, List.not_mem_nil, or_false] at named
      rcases named with rfl | rfl | rfl | rfl | rfl | rfl | rfl | rfl <;> rfl
    | pattern stands valid =>
      rw [standsFor_iff] at stands
      subst stands
      exact matchAtom_eq_ok.mpr ⟨valid, rfl⟩
    | key listed spelled =>
      simp only [operatorAtom, comparisonToken?_eq_some_iff.mpr ⟨listed, spelled⟩]

/-- The comparisons that a test writes are those that it is for, of its field. -/
theorem Test.mem_atoms_compare {t : Test} {atoms : List Atom}
    (written : t.atoms d m field = .ok atoms) :
    .compare column token value ∈ atoms ↔
      column = field ∧ t.ComparesBy (m.declaration? field) token value := by
  cases t with
  | isNull =>
    cases written
    rw [List.mem_singleton]
    exact ⟨nofun, nofun⟩
  | equals v =>
    cases written
    rw [List.mem_singleton]
    constructor
    · intro same
      cases same
      exact ⟨rfl, .equals v⟩
    · rintro ⟨rfl, ⟨⟩⟩
      rfl
  | regex pattern =>
    obtain ⟨a, found, written⟩ := bind_eq_ok_iff.mp written
    obtain ⟨valid, rfl⟩ := matchAtom_eq_ok.mp found
    cases written
    rw [List.mem_singleton]
    constructor
    · intro same
      cases same
      exact ⟨rfl, .pattern valid⟩
    · rintro ⟨rfl, ⟨⟩⟩
      rfl
  | operators ops =>
    rw [mem_operatorAtoms written]
    constructor
    · rintro ⟨op, member, found⟩
      obtain ⟨same, compares⟩ := operatorAtom_compare.mp found
      exact ⟨same, .operators member compares⟩
    · rintro ⟨same, ⟨⟩ | ⟨⟩ | ⟨member, compares⟩⟩
      exact ⟨_, member, operatorAtom_compare.mpr ⟨same, compares⟩⟩

/-- The comparisons of a predicate are those of the tests, at whatever depth they are. -/
theorem Criteria.mem_predicate_compare {mode : OrMode} {c : Criteria} {p : Predicate}
    (written : c.predicate d m mode = .ok (some p)) :
    .compare column token value ∈ p.atoms ↔
      ∃ t, (column, t) ∈ c.allTests ∧ t.ComparesBy (m.declaration? column) token value := by
  rw [predicate_of written]
  constructor
  · rintro ⟨⟨field, t⟩, test, atoms, own, member⟩
    obtain ⟨rfl, compares⟩ := (Test.mem_atoms_compare own).mp member
    exact ⟨t, test, compares⟩
  · rintro ⟨t, test, compares⟩
    have sound : ¬ t.Malformed := fun malformed =>
      (predicate_refuses mode c).ok_iff.mp ⟨_, written⟩ ⟨_, test, malformed⟩
    obtain ⟨atoms, own⟩ := (t.atoms_refuses (d := d) (m := m) column).ok_iff.mpr sound
    exact ⟨_, test, atoms, own, (Test.mem_atoms_compare own).mpr ⟨rfl, compares⟩⟩

/-- An atom stands in a text if what follows it there begins with a delimiter. -/
def Atom.StandsIn (d : Dialect) (a : Atom) (text : List Char) : Prop :=
  ∃ front follow, text = front ++ (d.atom a ++ follow) ∧
    ∀ c ∈ follow.head?, Dialect.delimits c = true

namespace Atom.StandsIn

variable {a : Atom} {text : List Char}

theorem behind (stands : a.StandsIn d text) (more : List Char) : a.StandsIn d (more ++ text) := by
  obtain ⟨front, follow, rfl, delimited⟩ := stands
  exact ⟨more ++ front, follow, (List.append_assoc ..).symm, delimited⟩

theorem before (stands : a.StandsIn d text) {c : Char} (delimiter : Dialect.delimits c = true)
    (more : List Char) : a.StandsIn d (text ++ c :: more) := by
  obtain ⟨front, follow, rfl, delimited⟩ := stands
  refine ⟨front, follow ++ c :: more, by simp only [List.append_assoc], ?_⟩
  cases follow with
  | nil => simpa using delimiter
  | cons first follow => simpa using delimited

theorem isInfix (stands : a.StandsIn d text) : d.atom a <:+: text := by
  obtain ⟨front, follow, rfl, _⟩ := stands
  exact ⟨front, follow, List.append_assoc ..⟩

end Atom.StandsIn

/-- An atom stands in the text of its predicate. -/
theorem atom_stands {p : Predicate} {a : Atom} (member : a ∈ p.atoms) :
    a.StandsIn d (d.predicate p) := by
  induction p with
  | atom b =>
    obtain rfl := List.mem_singleton.mp member
    exact ⟨[], [], (List.append_nil _).symm, nofun⟩
  | paren p ih => exact ((ih member).before rfl []).behind ['(']
  | and p q ihp ihq =>
    rcases List.mem_append.mp member with first | second
    · have inside := (ihp first).before (by decide : Dialect.delimits ' ' = true)
        ("AND ".toList ++ d.predicate q)
      rwa [← List.cons_append, ← List.append_assoc] at inside
    · exact (ihq second).behind _
  | or p q ihp ihq =>
    rcases List.mem_append.mp member with first | second
    · have inside := (ihp first).before (by decide : Dialect.delimits ' ' = true)
        ("OR ".toList ++ d.predicate q)
      rwa [← List.cons_append, ← List.append_assoc] at inside
    · exact (ihq second).behind _

end Writing

namespace Mapper

theorem condition_refuses (b : Mapper) (c : Criteria) : Refuses (b.condition c) c.Malformed :=
  ((Criteria.predicate_refuses b.orMode c).bind fun p =>
    .ok (String.ofList ((p.map b.dialect.condition).getD []))).congr (or_iff_left id)

/-- Where criteria are accepted, every comparison of a test stands in the condition. -/
theorem compare_written {b : Mapper} {c : Criteria} {sql : String}
    (written : b.condition c = .ok sql) {field token : String} {t : Test} {value : Literal}
    (test : (field, t) ∈ c.allTests)
    (compares : t.ComparesBy (b.model.declaration? field) token value) :
    ∃ p, b.predicate c = .ok (some p) ∧ .compare field token value ∈ p.atoms ∧
      (Atom.compare field token value).StandsIn b.dialect sql.toList := by
  obtain ⟨found, predicate, rfl⟩ := condition_eq_ok.mp written
  cases found with
  | none => exact absurd (Criteria.predicate_eq_none.mp predicate _ test) compares.not_vacuous
  | some p =>
    have member := (Criteria.mem_predicate_compare predicate).mpr ⟨t, test, compares⟩
    have text : (String.ofList (((some p).map b.dialect.condition).getD [])).toList =
        "WHERE ".toList ++ b.dialect.predicate p := String.toList_ofList
    exact ⟨p, predicate, member, text ▸ (atom_stands member).behind _⟩

/-- Criteria are turned down exactly if they are malformed, for every model, dialect and mode
alike, and always as an invalid condition. Otherwise an operator that is given by its key is
written as the listed token that the key comes to, and the condition has no token that is not
listed. -/
theorem condition_refused_iff (b : Mapper) (c : Criteria) :
    ((∃ e, b.condition c = .error e) ↔ c.Malformed) ∧
      (∀ e, b.condition c = .error e → ∃ cause, e = .invalidCondition cause) ∧
      (∀ b' : Mapper, (∃ e, b.condition c = .error e) ↔ ∃ e, b'.condition c = .error e) ∧
      ∀ s, b.condition c = .ok s →
        (∀ field ops key v, (field, Test.operators ops) ∈ c.allTests →
          (.other key, .value v) ∈ ops →
          ∃ token ∈ comparisonTokens, token.toList = normalized key ∧
            b.dialect.field field ++ ' ' :: token.toList ++
              ' ' :: b.dialect.literal (literal (b.model.declaration? field) v) <:+: s.toList) ∧
        ∀ p, b.predicate c = .ok (some p) → ∀ column token value,
          .compare column token value ∈ p.atoms → token ∈ comparisonTokens := by
  refine ⟨(b.condition_refuses c).error_iff, fun e => (b.condition_refuses c).cause,
    fun b' => (b.condition_refuses c).error_iff.trans (b'.condition_refuses c).error_iff.symm,
    fun s written => ⟨?_, ?_⟩⟩
  · intro field ops key v test member
    have spelled : ∃ token ∈ comparisonTokens, token.toList = normalized key := by
      by_contra other
      have unlisted : Operator.Malformed (.other key) (.value v) :=
        .unlisted fun token listed same => other ⟨token, listed, same⟩
      exact (b.condition_refuses c).ok_iff.mp ⟨s, written⟩ ⟨_, test, .operators member unlisted⟩
    obtain ⟨token, listed, same⟩ := spelled
    obtain ⟨_, _, _, stands⟩ := compare_written written test (.operators member (.key listed same))
    exact ⟨token, listed, same, stands.isInfix⟩
  · intro p predicate column token value member
    obtain ⟨t, _, compares⟩ := (Criteria.mem_predicate_compare predicate).mp member
    exact compares.listed

/-- A range with one bound in a branch of a branch, and a key with blanks and small letters. -/
theorem condition_refused_iff_nested :
    let m := (Model.ofName "User").define "name" .string
    let ranged : Criteria := ⟨[("name", .isNull)],
      [⟨[], [⟨[("x", .operators [(.between, .list [.int 1])])], []⟩]⟩]⟩
    let spelled : Criteria := ⟨[("name", .operators [(.other " is\t Not ", .value .null)])], []⟩
    ranged.Malformed ∧ (∃ e, condition ⟨.sqlite, m, .flattened⟩ ranged = .error e) ∧
      (∃ e, condition ⟨.generic, m, .grouped⟩ ranged = .error e) ∧
      condition ⟨.sqlite, m, .grouped⟩ spelled = .ok "WHERE `name` IS NOT NULL" ∧
      ∃ token ∈ comparisonTokens, token.toList = normalized " is\t Not " := by
  intro m ranged spelled
  have malformed : ranged.Malformed := ⟨("x", .operators [(.between, .list [.int 1])]),
    by simp [ranged, Criteria.allTests, Criteria.branchTests],
    .operators List.mem_cons_self (.bounds (by simp))⟩
  have text : condition ⟨.sqlite, m, .grouped⟩ spelled = .ok "WHERE `name` IS NOT NULL" := rfl
  obtain ⟨token, listed, same, _⟩ := ((condition_refused_iff _ _).2.2.2 _ text).1 "name" _ _ _
    List.mem_cons_self List.mem_cons_self
  exact ⟨malformed, (condition_refused_iff _ _).1.mpr malformed,
    (condition_refused_iff _ _).1.mpr malformed, text, token, listed, same⟩

end Mapper

end SqlMapper
