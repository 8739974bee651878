import SqlMapper.Proofs.Lexis.Written

/-! # Conditions as SQL reads them

A condition is read from tokens by the usual grammar: comparisons are joined by AND, those by OR,
parentheses start over, and the AND behind a BETWEEN belongs to it. The value of a condition is
that of three-valued logic under a valuation of its comparisons. In this logic AND and OR are
associative, so it does not matter how a row of them is grouped.
-/

namespace SqlMapper

/-- The truth values of SQL. -/
inductive Truth
  | yes
  | no
  | unknown
  deriving DecidableEq, Repr

namespace Truth

def and : Truth → Truth → Truth
  | .no, _ => .no
  | _, .no => .no
  | .unknown, _ => .unknown
  | .yes, t => t

def or : Truth → Truth → Truth
  | .yes, _ => .yes
  | _, .yes => .yes
  | .unknown, _ => .unknown
  | .no, t => t

def ofBool (b : Bool) : Truth := if b then .yes else .no

def all (ts : List Truth) : Truth := ts.foldr and .yes

def any (ts : List Truth) : Truth := ts.foldr or .no

@[simp] theorem and_yes (t : Truth) : t.and .yes = t := by cases t <;> rfl

@[simp] theorem yes_and (t : Truth) : Truth.yes.and t = t := by cases t <;> rfl

@[simp] theorem or_no (t : Truth) : t.or .no = t := by cases t <;> rfl

@[simp] theorem no_or (t : Truth) : Truth.no.or t = t := by cases t <;> rfl

@[simp] theorem all_nil : all [] = .yes := rfl

@[simp] theorem all_cons (t : Truth) (ts : List Truth) : all (t :: ts) = t.and (all ts) := rfl

@[simp] theorem any_cons (t : Truth) (ts : List Truth) : any (t :: ts) = t.or (any ts) := rfl

end Truth

/-- A value as it is written in a statement; a number by its digits. -/
inductive Scalar
  | null
  | number (digits : String)
  | text (s : String)
  | bytes (bs : List UInt8)
  deriving DecidableEq, Repr

/-- What a column is compared with, under a function or not. -/
structure Argument where
  function : Option String
  value : Scalar
  deriving DecidableEq, Repr

/-- A comparison is known by the path of its column, its operator and its literals. -/
structure Comparison where
  column : List String
  operator : String
  arguments : List Argument
  deriving DecidableEq, Repr

inductive Expression
  | comparison (c : Comparison)
  | constant (holds : Bool)
  | and (e f : Expression)
  | or (e f : Expression)
  deriving DecidableEq, Repr

/-- The value of a condition under a valuation of its comparisons. -/
def Expression.truth (valuation : Comparison → Truth) : Expression → Truth
  | .comparison c => valuation c
  | .constant holds => .ofBool holds
  | .and e f => (e.truth valuation).and (f.truth valuation)
  | .or e f => (e.truth valuation).or (f.truth valuation)

namespace Token

def scalar? : Token → Option Scalar
  | .word w => if w = "NULL" then some .null else none
  | .number digits => some (.number digits)
  | .text s => some (.text s)
  | .bytes bs => some (.bytes bs)
  | _ => none

end Token

/-! ## Comparisons -/

/-- The operators that are symbols. -/
def symbolOperators : List String := ["=", "==", "<>", "!=", "<", ">", "<=", ">="]

/-- The operators that are single words. -/
def wordOperators : List String := ["IS", "LIKE", "GLOB", "REGEXP", "IN", "BETWEEN"]

/-- The operators of two words. -/
def negatedOperators : List (String × String) :=
  [("IS", "NOT"), ("NOT", "LIKE"), ("NOT", "GLOB"), ("NOT", "REGEXP"), ("NOT", "IN")]

/-- The longest operator at the front. -/
def readOperator : List Token → Option (String × List Token)
  | .symbol s :: rest => if s ∈ symbolOperators then some (s, rest) else none
  | .word v :: .word w :: rest =>
      if (v, w) ∈ negatedOperators then some (v ++ " " ++ w, rest)
      else if v ∈ wordOperators then some (v, .word w :: rest)
      else none
  | .word v :: rest => if v ∈ wordOperators then some (v, rest) else none
  | _ => none

/-- Scalars with commas between them, up to a closing parenthesis. -/
def readMembers : List Token → Option (List Argument × List Token)
  | t :: .symbol s :: rest =>
      t.scalar?.bind fun v =>
        if s = "," then (readMembers rest).map fun more => (⟨none, v⟩ :: more.1, more.2)
        else if s = ")" then some ([⟨none, v⟩], rest)
        else none
  | _ => none

/-- A scalar, or a function of one. -/
def readArgument : List Token → Option (Argument × List Token)
  | .word f :: .symbol s :: t :: .symbol u :: rest =>
      if s = "(" ∧ u = ")" then t.scalar?.map fun v => (⟨some f, v⟩, rest)
      else (Token.word f).scalar?.map fun v => (⟨none, v⟩, .symbol s :: t :: .symbol u :: rest)
  | t :: rest => t.scalar?.map fun v => (⟨none, v⟩, rest)
  | [] => none

/-- Two arguments with an AND between them. -/
def readBounds (ts : List Token) : Option (List Argument × List Token) :=
  (readArgument ts).bind fun low =>
    match low.2 with
    | .word w :: rest =>
        if w = "AND" then (readArgument rest).map fun high => ([low.1, high.1], high.2) else none
    | _ => none

/-- The arguments that an operator takes. -/
def readArguments (operator : String) (ts : List Token) : Option (List Argument × List Token) :=
  if operator = "IN" ∨ operator = "NOT IN" then
    match ts with
    | .symbol s :: rest => if s = "(" then readMembers rest else none
    | _ => none
  else if operator = "BETWEEN" then readBounds ts
  else
    match ts with
    | t :: rest => t.scalar?.map fun v => ([⟨none, v⟩], rest)
    | [] => none

def readComparison (ts : List Token) : Option (Comparison × List Token) :=
  (readNames "." ts).bind fun column =>
    (readOperator column.2).bind fun operator =>
      (readArguments operator.1 operator.2).map fun arguments =>
        (⟨column.1, operator.1, arguments.1⟩, arguments.2)

/-! ## Conditions -/

/-- What binds tighter comes first. -/
inductive Level
  /-- A comparison, a constant, or a condition in parentheses. -/
  | factor
  /-- Factors joined by AND. -/
  | term
  /-- Terms joined by OR. -/
  | whole
  deriving DecidableEq, Repr

/-- A comparison or a constant. -/
def readAtom : List Token → Option (Expression × List Token)
  | .number n :: rest =>
      if n = "0" then some (.constant false, rest)
      else if n = "1" then some (.constant true, rest)
      else none
  | ts => (readComparison ts).map fun c => (.comparison c.1, c.2)

/-- What of a level is at the front, and what follows. The number bounds the recursion. -/
def readLevel : Nat → Level → List Token → Option (Expression × List Token)
  | 0, _, _ => none
  | n + 1, .whole, ts =>
      (readLevel n .term ts).bind fun first =>
        match first.2 with
        | .word w :: rest =>
            if w = "OR" then
              (readLevel n .whole rest).map fun more => (.or first.1 more.1, more.2)
            else some first
        | _ => some first
  | n + 1, .term, ts =>
      (readLevel n .factor ts).bind fun first =>
        match first.2 with
        | .word w :: rest =>
            if w = "AND" then
              (readLevel n .term rest).map fun more => (.and first.1 more.1, more.2)
            else some first
        | _ => some first
  | n + 1, .factor, ts =>
      match ts with
      | .symbol s :: rest =>
          if s = "(" then
            (readLevel n .whole rest).bind fun inner =>
              match inner.2 with
              | .symbol t :: rest => if t = ")" then some (inner.1, rest) else none
              | _ => none
          else none
      | _ => readAtom ts

/-- The condition that tokens are, all of them. A token opens three levels at most, which bounds
the recursion. -/
def Expression.ofTokens? (ts : List Token) : Option Expression :=
  (readLevel (3 * ts.length) .whole ts).bind fun read =>
    if read.2 = [] then some read.1 else none

/-- The condition of a clause that begins with its keyword. -/
def Expression.ofClause? : List Token → Option Expression
  | .word w :: ts => if w = "WHERE" then ofTokens? ts else none
  | _ => none

end SqlMapper
