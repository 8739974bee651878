import SqlMapper.Proofs.Condition.Emptiness
import SqlMapper.Proofs.Condition.Reading

/-! # What criteria mean

The meaning of criteria is given without their predicate: a test has one clause, a test by
operators one for each of them, and a clause is a comparison of the field or a constant. All
clauses of the tests must hold. Of the branches that have a clause at all one must hold, or, where
they are flattened, one clause of theirs at any depth.
-/

namespace SqlMapper

open Text

/-! ## Clauses -/

/-- The values that an operator compares with. -/
def Operand.values : Operand → List Value
  | .value v => [v]
  | .list vs => vs

/-- The SQL operator that an operator asks for. -/
def Operator.sqlName : Operator → String
  | .other key => String.ofList ((joinWith [' '] (words key.toList)).map Char.toUpper)
  | op => op.token

namespace Model

/-- A value as a statement tells it under the declaration of a field. -/
def scalar (m : Model) (field : String) (v : Value) : Scalar :=
  (store (m.declaration? field) v).scalar

/-- The function around the bounds of a range: one for dates. -/
def boundFunction (m : Model) (d : Dialect) (field : String) : Option String :=
  if (m.declaration? field).map Property.kind = some .date then some d.dateFunction else none

/-- The comparison of a field with some values. -/
def comparison (m : Model) (field operator : String) (vs : List Value) : Comparison :=
  ⟨path field, operator, vs.map fun v => ⟨none, m.scalar field v⟩⟩

/-- Whether a field is between two values. -/
def range (m : Model) (d : Dialect) (field : String) (low high : Value) : Comparison :=
  ⟨path field, "BETWEEN",
    [⟨m.boundFunction d field, m.scalar field low⟩, ⟨m.boundFunction d field, m.scalar field high⟩]⟩

end Model

/-- Whether a field matches a regular expression. -/
def matching (field pattern : String) : Comparison :=
  ⟨path field, "REGEXP", [⟨none, .text (withoutNul pattern)⟩]⟩

section Meaning

variable (d : Dialect) (m : Model) (valuation : Comparison → Truth)

/-- The clause of an operator. What is malformed has none and counts as unknown. -/
def operatorClause (field : String) : Operator → Operand → Truth
  | .isIn, operand =>
      if operand.values = [] then .no else valuation (m.comparison field "IN" operand.values)
  | .notIn, operand =>
      if operand.values = [] then .yes else valuation (m.comparison field "NOT IN" operand.values)
  | .between, .list [low, high] => valuation (m.range d field low high)
  | .between, _ => .unknown
  | .regex, .value (.text pattern) =>
      valuation (matching field ((slashedPattern? pattern).getD pattern))
  | .regex, _ => .unknown
  | op, .value v => valuation (m.comparison field op.sqlName [v])
  | _, .list _ => .unknown

/-- The clauses of the test of a field. -/
def Test.clauses (field : String) : Test → List Truth
  | .isNull => [valuation (m.comparison field "IS" [.null])]
  | .equals v => [valuation (m.comparison field "=" [v])]
  | .regex pattern => [valuation (matching field pattern)]
  | .operators ops => ops.map fun op => operatorClause d m valuation field op.1 op.2

/-- The clauses of some tests. -/
def clauses (tests : List (String × Test)) : List Truth :=
  tests.flatMap fun t => t.2.clauses d m valuation t.1

/-- One of some alternatives must hold, if there are any. -/
def alternatives : List Truth → Truth
  | [] => .yes
  | ts => .any ts

namespace Criteria

mutual

/-- The meaning of criteria whose branches hold as a whole. -/
def groupedMeaning : Criteria → Truth
  | ⟨tests, branches⟩ =>
      (alternatives (branchMeanings branches)).and (.all (clauses d m valuation tests))

/-- The meanings of the branches that have a clause. -/
def branchMeanings : List Criteria → List Truth
  | [] => []
  | branch :: rest =>
      if branch.contributes then branch.groupedMeaning :: branchMeanings rest
      else branchMeanings rest

end

/-- The meaning of criteria. -/
def meaning (mode : OrMode) (c : Criteria) : Truth :=
  match mode with
  | .grouped => c.groupedMeaning d m valuation
  | .flattened =>
      (alternatives (clauses d m valuation (branchTests c.branches))).and
        (.all (clauses d m valuation c.tests))

end Criteria

end Meaning

/-! ## Text for undeclared fields -/

/-- Whether a test compares with text, other than by matching it. -/
def Test.comparesText : Test → Bool
  | .equals v => v.text?.isSome
  | .operators ops => ops.any fun op => op.1 != .regex && op.2.values.any (·.text?.isSome)
  | _ => false

/-- No text is compared with an undeclared field. -/
def Criteria.QuotesAll (m : Model) (c : Criteria) : Prop :=
  ∀ t ∈ c.allTests, m.declaration? t.1 = none → t.2.comparesText = false

end SqlMapper
