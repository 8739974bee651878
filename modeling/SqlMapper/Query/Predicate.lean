import SqlMapper.Literal
import SqlMapper.Pattern.Validity
import SqlMapper.Query.Criteria

/-!
# Predicates

A predicate is the condition of an SQL statement as a tree; `Predicate.chars` writes it.
Parentheses are part of the tree. `Criteria.predicate` finds the predicate of some criteria: the
branches joined by OR and the tests joined by AND, with parentheses around whatever is joined at a
lower level.
-/

namespace SqlMapper

/-- How branches are combined. -/
inductive OrMode
  /-- All of some branch must hold. -/
  | grouped
  /-- Any part of any branch must hold. -/
  | flattened
  deriving DecidableEq, Repr, Inhabited

/-- A condition on one field, or a constant. -/
inductive Atom
  | isNull (field : String)
  | compare (field token : String) (value : Literal)
  | member (field : String) (negated : Bool) (values : List Literal)
  /-- Bounds, with a function around each of them. -/
  | range (field : String) (function : Option String) (low high : Literal)
  | constant (holds : Bool)
  deriving DecidableEq, Repr

inductive Predicate
  | atom (a : Atom)
  | paren (p : Predicate)
  | and (p q : Predicate)
  | or (p q : Predicate)
  deriving DecidableEq, Repr

def commaJoined (parts : List (List Char)) : List Char := Text.joinWith [',', ' '] parts

namespace Dialect

def bound (d : Dialect) (function : Option String) (value : Literal) : List Char :=
  match function with
  | some f => f.toList ++ '(' :: d.literal value ++ [')']
  | none => d.literal value

def atom (d : Dialect) : Atom → List Char
  | .isNull field => d.field field ++ " IS NULL".toList
  | .compare field token value => d.field field ++ ' ' :: token.toList ++ ' ' :: d.literal value
  | .member field negated values =>
      d.field field ++ (if negated then " NOT IN (" else " IN (").toList ++
        commaJoined (values.map d.literal) ++ [')']
  | .range field function low high =>
      d.field field ++ " BETWEEN ".toList ++ d.bound function low ++ " AND ".toList ++
        d.bound function high
  | .constant holds => if holds then ['1'] else ['0']

def predicate (d : Dialect) : Predicate → List Char
  | .atom a => d.atom a
  | .paren p => '(' :: d.predicate p ++ [')']
  | .and p q => d.predicate p ++ " AND ".toList ++ d.predicate q
  | .or p q => d.predicate p ++ " OR ".toList ++ d.predicate q

end Dialect

namespace Predicate

/-- Whether a predicate needs parentheses to be joined with others. -/
def isCompound : Predicate → Bool
  | .and .. => true
  | .or .. => true
  | _ => false

def grouped (p : Predicate) : Predicate := if p.isCompound then .paren p else p

/-- All of some predicates, if there are any. -/
def all? : List Predicate → Option Predicate
  | [] => none
  | [p] => some p
  | p :: rest => (all? rest).map (.and p)

/-- Any of some predicates, if there are any. -/
def any? : List Predicate → Option Predicate
  | [] => none
  | [p] => some p
  | p :: rest => (any? rest).map (.or p)

/-- Both of two predicates that may be absent. -/
def both? : Option Predicate → Option Predicate → Option Predicate
  | some p, some q => some (.and (.paren p) (.paren q))
  | some p, none => some p
  | none, q => q

end Predicate

/-- The comparisons that can be asked for by their SQL tokens. -/
def comparisonTokens : List String :=
  ["=", "==", "<>", "!=", "<", ">", "<=", ">=", "IS", "IS NOT", "LIKE", "NOT LIKE", "GLOB",
    "NOT GLOB", "REGEXP", "NOT REGEXP"]

/-- The comparison that a key stands for, whatever the case and the blanks in it. -/
def comparisonToken? (key : String) : Option String :=
  let words := Text.joinWith [' '] (Text.words key.toList)
  comparisonTokens.find? (· == String.ofList (words.map Char.toUpper))

/-- The test of a field against a regular expression. -/
def matchAtom (field pattern : String) : Except QueryError Atom :=
  if Pattern.isValid pattern then .ok (.compare field "REGEXP" (.cell (.text pattern)))
  else invalid (.invalidPattern pattern)

/-- The atom of one operator on a declared or undeclared field. Nothing is a member of an empty
list. -/
def operatorAtom (d : Dialect) (field : String) (declared : Option Property) :
    Operator → Operand → Except QueryError Atom
  | .isIn, .list [] => .ok (.constant false)
  | .isIn, .list vs => .ok (.member field false (vs.map (literal declared)))
  | .isIn, .value v => .ok (.member field false [literal declared v])
  | .notIn, .list [] => .ok (.constant true)
  | .notIn, .list vs => .ok (.member field true (vs.map (literal declared)))
  | .notIn, .value v => .ok (.member field true [literal declared v])
  | .between, .list [low, high] =>
      let function := if declared.map Property.kind = some .date then some d.dateFunction else none
      .ok (.range field function (literal declared low) (literal declared high))
  | .between, _ => invalid (.rangeSize (String.ofList (d.field field)))
  | .regex, .value (.text pattern) => matchAtom field ((slashedPattern? pattern).getD pattern)
  | .regex, _ => invalid (.patternOperand (String.ofList (d.field field)))
  | op, .list _ => invalid (.listOperand op.token (String.ofList (d.field field)))
  | .other key, .value v =>
      match comparisonToken? key with
      | some token => .ok (.compare field token (literal declared v))
      | none => invalid (.unknownOperator key)
  | op, .value v => .ok (.compare field op.token (literal declared v))

/-- The atoms of the test of a field. -/
def Test.atoms (d : Dialect) (m : Model) (field : String) : Test → Except QueryError (List Atom)
  | .isNull => .ok [.isNull field]
  | .equals v => .ok [.compare field "=" (literal (m.declaration? field) v)]
  | .regex pattern => do
      let a ← matchAtom field pattern
      .ok [a]
  | .operators ops => ops.mapM fun (op, operand) =>
      operatorAtom d field (m.declaration? field) op operand

namespace Criteria

/-- The atoms of all tests, in order. -/
def testAtoms (d : Dialect) (m : Model) : List (String × Test) → Except QueryError (List Predicate)
  | [] => .ok []
  | (field, test) :: rest => do
      let atoms ← test.atoms d m field
      let more ← testAtoms d m rest
      .ok (atoms.map .atom ++ more)

mutual

/-- The predicate of criteria whose branches hold as a whole. -/
def groupedPredicate (d : Dialect) (m : Model) : Criteria → Except QueryError (Option Predicate)
  | ⟨tests, branches⟩ => do
      let anyOf ← groupedBranches d m branches
      let allOf ← testAtoms d m tests
      .ok (Predicate.both? (Predicate.any? anyOf) (Predicate.all? allOf))

def groupedBranches (d : Dialect) (m : Model) :
    List Criteria → Except QueryError (List Predicate)
  | [] => .ok []
  | branch :: rest => do
      let p ← groupedPredicate d m branch
      let more ← groupedBranches d m rest
      .ok (p.toList.map Predicate.grouped ++ more)

end

/-- The parts of branches that hold in part: the tests of a branch, then those of its branches. -/
def flattenedBranches (d : Dialect) (m : Model) :
    List Criteria → Except QueryError (List Predicate)
  | [] => .ok []
  | ⟨tests, branches⟩ :: rest => do
      let own ← testAtoms d m tests
      let inner ← flattenedBranches d m branches
      let more ← flattenedBranches d m rest
      .ok (own ++ inner ++ more)

def flattenedPredicate (d : Dialect) (m : Model) (c : Criteria) :
    Except QueryError (Option Predicate) := do
  let anyOf ← flattenedBranches d m c.branches
  let allOf ← testAtoms d m c.tests
  .ok (Predicate.both? (Predicate.any? anyOf) (Predicate.all? allOf))

/-- The predicate of some criteria on a model; there is none if nothing is tested. -/
def predicate (d : Dialect) (m : Model) (mode : OrMode) (c : Criteria) :
    Except QueryError (Option Predicate) :=
  match mode with
  | .grouped => groupedPredicate d m c
  | .flattened => flattenedPredicate d m c

end Criteria

end SqlMapper
