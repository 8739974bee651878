import SqlMapper.Proofs.Condition.Clause

/-! # The text of a condition means what its criteria mean

Criteria become predicates by a recursion over their branches. A branch of nothing but vacuous tests
has no predicate and is no alternative, neither in the text nor in the meaning. All other parts
have predicates that say what they mean, with parentheses where their place asks for them.
-/

namespace SqlMapper

open Text

section Branches

variable {d : Dialect} {m : Model} (valuation : Comparison → Truth)

namespace Criteria

mutual

/-- The predicate of criteria says what they mean. -/
theorem groupedPredicate_means : (c : Criteria) → (quoted : c.QuotesAll m) →
    {found : Option Predicate} → (written : c.groupedPredicate d m = .ok found) →
    ∀ p ∈ found, Predicate.Means d valuation .whole p (c.groupedMeaning d m valuation)
  | ⟨tests, branches⟩, quoted, found, written => by
    obtain ⟨anyOf, inner, written⟩ := bind_eq_ok_iff.mp written
    obtain ⟨allOf, own, written⟩ := bind_eq_ok_iff.mp written
    cases written
    obtain ⟨ownQuoted, innerQuoted⟩ := List.forall_mem_append.mp quoted
    have all := testAtoms_means valuation ownQuoted own
    have any := groupedBranches_means branches innerQuoted inner
    exact fun p joined => Predicate.both?_means any all joined

/-- The branches with a clause have predicates that say what they mean. -/
theorem groupedBranches_means : (branches : List Criteria) →
    (quoted : ∀ t ∈ branchTests branches, m.declaration? t.1 = none → t.2.comparesText = false) →
    {found : List Predicate} → (written : groupedBranches d m branches = .ok found) →
    Predicate.MeanAll d valuation found (branchMeanings d m valuation branches)
  | [], _, _, written => by
    cases written
    exact .nil
  | branch :: rest, quoted, found, written => by
    obtain ⟨first, inner, written⟩ := bind_eq_ok_iff.mp written
    obtain ⟨more, others, written⟩ := bind_eq_ok_iff.mp written
    cases written
    obtain ⟨ownQuoted, restQuoted⟩ := List.forall_mem_append.mp quoted
    have means := groupedPredicate_means branch ownQuoted inner
    have moreMeans := groupedBranches_means rest restQuoted others
    have grouped : branch.predicate d m .grouped = .ok first := inner
    have present := predicate_isSome grouped
    rw [branchMeanings, ← present]
    cases first with
    | none => exact moreMeans
    | some p => exact .cons (means p rfl).grouped moreMeans

end

/-- The clauses of branches and of the branches below them say what they mean. -/
theorem flattenedBranches_means : (branches : List Criteria) →
    (quoted : ∀ t ∈ branchTests branches, m.declaration? t.1 = none → t.2.comparesText = false) →
    {found : List Predicate} → (written : flattenedBranches d m branches = .ok found) →
    Predicate.MeanAll d valuation found (clauses d m valuation (branchTests branches))
  | [], _, _, written => by
    rw [flattenedBranches, Except.ok.injEq] at written
    subst written
    exact .nil
  | ⟨tests, branches⟩ :: rest, quoted, found, written => by
    rw [flattenedBranches] at written
    obtain ⟨own, first, written⟩ := bind_eq_ok_iff.mp written
    obtain ⟨inner, second, written⟩ := bind_eq_ok_iff.mp written
    obtain ⟨more, third, written⟩ := bind_eq_ok_iff.mp written
    cases written
    simp only [branchTests, allTests, List.forall_mem_append] at quoted
    obtain ⟨⟨ownQuoted, innerQuoted⟩, restQuoted⟩ := quoted
    simp only [branchTests, allTests, clauses, List.flatMap_append]
    exact List.rel_append (List.rel_append (testAtoms_means valuation ownQuoted first)
      (flattenedBranches_means branches innerQuoted second))
      (flattenedBranches_means rest restQuoted third)

/-- In either mode, the predicate of criteria says what they mean. -/
theorem predicate_means {mode : OrMode} {c : Criteria} (quoted : c.QuotesAll m)
    {found : Option Predicate} (written : c.predicate d m mode = .ok found) :
    ∀ p ∈ found, Predicate.Means d valuation .whole p (c.meaning d m valuation mode) := by
  cases mode with
  | grouped => exact groupedPredicate_means valuation c quoted written
  | flattened =>
    obtain ⟨tests, branches⟩ := c
    obtain ⟨anyOf, inner, written⟩ := bind_eq_ok_iff.mp written
    obtain ⟨allOf, own, written⟩ := bind_eq_ok_iff.mp written
    cases written
    obtain ⟨ownQuoted, innerQuoted⟩ := List.forall_mem_append.mp quoted
    have all := testAtoms_means valuation ownQuoted own
    have any := flattenedBranches_means valuation branches innerQuoted inner
    exact fun p joined => Predicate.both?_means any all joined

end Criteria

end Branches

/-! ## The text -/

namespace Mapper

/-- A condition that is not empty can be read back to its end, and what is read has the value that
the criteria mean, whatever the comparisons in it come to. -/
theorem condition_reads_back {b : Mapper} (known : b.dialect.IsKnown) {c : Criteria}
    (quoted : c.QuotesAll b.model) {s : String} (written : b.condition c = .ok s)
    (nonempty : s ≠ "") :
    ∃ e, (b.dialect.tokens? s.toList).bind Expression.ofClause? = some e ∧
      ∀ valuation, e.truth valuation = c.meaning b.dialect b.model valuation b.orMode := by
  obtain ⟨found, predicate, rfl⟩ := condition_eq_ok.mp written
  cases found with
  | none => exact absurd rfl nonempty
  | some p =>
    have means (valuation : Comparison → Truth) :=
      Criteria.predicate_means valuation quoted predicate p rfl
    have read := Dialect.ofClause?_condition known (means fun _ => .yes).readable
      (means fun _ => .yes).binds
    refine ⟨p.expression, ?_, fun valuation => (means valuation).truth⟩
    simpa using read

/-- Quotes in a name and in a text, a constant, and a branch without a clause. -/
theorem condition_reads_back_nested :
    ∃ e, (Dialect.sqlite.tokens? ("WHERE (1 OR ((`bio` LIKE '''%') AND (`bio` IS NULL))) AND " ++
        "(`a``b` = NULL)").toList).bind Expression.ofClause? = some e ∧
      ∀ valuation, e.truth valuation =
        Criteria.meaning .sqlite ((Model.ofName "User").define "bio" .string) valuation .grouped
          ⟨[("a`b", .equals .null)],
            [⟨[("bio", .operators [(.notIn, .list [])])], []⟩,
              ⟨[("bio", .operators [])], []⟩,
              ⟨[("bio", .isNull)],
                [⟨[("bio", .operators [(.like, .value (.text "'%"))])], []⟩]⟩]⟩ :=
  condition_reads_back (b := ⟨.sqlite, _, .grouped⟩) (.inr rfl)
    (by unfold Criteria.QuotesAll; decide) (by rfl) (by decide)

end Mapper

end SqlMapper
