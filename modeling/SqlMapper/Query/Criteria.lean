import SqlMapper.Query.Error
import SqlMapper.Value

/-!
# Criteria

What rows are wanted: tests of fields that must all hold, and branches of which one must hold. A
field has one test. Setting a whole test replaces the one there was; adding an operator adds to the
operators there were, and replaces a test of another form.

Criteria are also read from JSON: an object tests the fields it names, and the list under `or`
holds the branches.
-/

namespace SqlMapper

inductive Operator
  | gt
  | gte
  | lt
  | lte
  | eq
  | neq
  | between
  | isIn
  | notIn
  | like
  | notLike
  | regex
  /-- A comparison by its SQL token, which remains to be checked. -/
  | other (key : String)
  deriving DecidableEq, Repr

namespace Operator

/-- The operators by their keys, with two spellings of two of them. -/
def named : Entries Operator :=
  [("gt", .gt), ("gte", .gte), ("lt", .lt), ("lte", .lte), ("eq", .eq), ("neq", .neq),
    ("ne", .neq), ("between", .between), ("in", .isIn), ("inq", .isIn), ("nin", .notIn),
    ("like", .like), ("nlike", .notLike), ("regex", .regex)]

def ofKey (key : String) : Operator := (named.get? key).getD (.other key)

/-- The SQL token of an operator. -/
def token : Operator → String
  | .gt => ">"
  | .gte => ">="
  | .lt => "<"
  | .lte => "<="
  | .eq => "="
  | .neq => "!="
  | .between => "BETWEEN"
  | .isIn => "IN"
  | .notIn => "NOT IN"
  | .like => "LIKE"
  | .notLike => "NOT LIKE"
  | .regex => "REGEXP"
  | .other key => key

end Operator

/-- What an operator compares with. -/
inductive Operand
  | value (v : Value)
  | list (vs : List Value)

/-- What a field is tested for. -/
inductive Test
  | isNull
  | equals (v : Value)
  | regex (pattern : String)
  /-- Every operator must hold. -/
  | operators (ops : List (Operator × Operand))

/-- Tests that must all hold, and branches of which one must hold. -/
structure Criteria where
  tests : List (String × Test)
  branches : List Criteria

namespace Criteria

def empty : Criteria := ⟨[], []⟩

instance : Inhabited Criteria := ⟨empty⟩

mutual

/-- Holds if no field is tested, at any depth. -/
def isEmpty : Criteria → Bool
  | ⟨tests, branches⟩ => tests.isEmpty && areEmpty branches

def areEmpty : List Criteria → Bool
  | [] => true
  | branch :: rest => isEmpty branch && areEmpty rest

end

/-- Sets the test of a field. -/
def set (c : Criteria) (field : String) (test : Test) : Criteria :=
  { c with tests := Entries.put field test c.tests }

/-- Adds an operator to the test of a field. -/
def addOperator (c : Criteria) (field : String) (op : Operator) (operand : Operand) : Criteria :=
  let before := match Entries.get? field c.tests with
    | some (.operators ops) => ops
    | _ => []
  c.set field (.operators (before ++ [(op, operand)]))

/-- Equality with null is the test for null. -/
def equals [ToValue α] (c : Criteria) (field : String) (a : α) : Criteria :=
  match toValue a with
  | .null => c.set field .isNull
  | v => c.set field (.equals v)

def isNull (c : Criteria) (field : String) : Criteria := c.set field .isNull

def regex (c : Criteria) (field pattern : String) : Criteria := c.set field (.regex pattern)

/-- Adds a comparison with one value. -/
def compare [ToValue α] (c : Criteria) (field : String) (op : Operator) (a : α) : Criteria :=
  c.addOperator field op (.value (toValue a))

def gt [ToValue α] (c : Criteria) (field : String) (a : α) : Criteria := c.compare field .gt a

def gte [ToValue α] (c : Criteria) (field : String) (a : α) : Criteria := c.compare field .gte a

def lt [ToValue α] (c : Criteria) (field : String) (a : α) : Criteria := c.compare field .lt a

def lte [ToValue α] (c : Criteria) (field : String) (a : α) : Criteria := c.compare field .lte a

def neq [ToValue α] (c : Criteria) (field : String) (a : α) : Criteria := c.compare field .neq a

def like (c : Criteria) (field pattern : String) : Criteria := c.compare field .like pattern

def notLike (c : Criteria) (field pattern : String) : Criteria := c.compare field .notLike pattern

def between [ToValue α] (c : Criteria) (field : String) (low high : α) : Criteria :=
  c.addOperator field .between (.list [toValue low, toValue high])

def isIn [ToValue α] (c : Criteria) (field : String) (members : List α) : Criteria :=
  c.addOperator field .isIn (.list (members.map toValue))

def notIn [ToValue α] (c : Criteria) (field : String) (members : List α) : Criteria :=
  c.addOperator field .notIn (.list (members.map toValue))

/-- Adds branches. -/
def withBranches (c : Criteria) (branches : List Criteria) : Criteria :=
  { c with branches := c.branches ++ branches }

def or (c branch : Criteria) : Criteria := c.withBranches [branch]

end Criteria

/-- The part of a text before the last slash, if there is one. -/
def beforeLastSlash? : List Char → Option (List Char)
  | [] => none
  | c :: rest =>
      match beforeLastSlash? rest with
      | some front => some (c :: front)
      | none => if c = '/' then some [] else none

/-- The pattern of a text between slashes. What follows the last slash is dropped. -/
def slashedPattern? (s : String) : Option String :=
  match s.toList with
  | '/' :: rest => (beforeLastSlash? rest).map String.ofList
  | _ => none

def Operand.ofJson : Json → Operand
  | .array items => .list (items.map Value.ofJson)
  | j => .value (Value.ofJson j)

def Test.ofJson : Json → Except QueryError Test
  | .null => .ok .isNull
  | .string s => .ok (match slashedPattern? s with
      | some pattern => .regex pattern
      | none => .equals (.text s))
  | .object entries =>
      .ok (.operators (entries.map fun (key, j) => (Operator.ofKey key, Operand.ofJson j)))
  | .array items => invalid (.listAsCondition (.array items))
  | scalar => .ok (.equals (Value.ofJson scalar))

namespace Criteria

/-- The key of the branches. -/
def branchesKey : String := "or"

mutual

/-- Reads criteria; null means none. -/
def ofJson : Json → Except QueryError Criteria
  | .null => .ok empty
  | .object entries => ofEntries empty entries
  | j => invalid (.notAnObject j)

def ofEntries (c : Criteria) : List (String × Json) → Except QueryError Criteria
  | [] => .ok c
  | (key, .array items) :: rest =>
      if key = branchesKey then do
        let branches ← ofItems items
        ofEntries (c.withBranches branches) rest
      else do
        let test ← Test.ofJson (.array items)
        ofEntries (c.set key test) rest
  | (key, j) :: rest =>
      if key = branchesKey then invalid .orNotAList
      else do
        let test ← Test.ofJson j
        ofEntries (c.set key test) rest

def ofItems : List Json → Except QueryError (List Criteria)
  | [] => .ok []
  | item :: rest => do
      let branch ← ofJson item
      let more ← ofItems rest
      .ok (branch :: more)

end

end Criteria

end SqlMapper
