import SqlMapper.Pattern.Basic
import SqlMapper.Pattern.Bracket
import SqlMapper.Text.Letter

/-!
# Reading regular expressions

A pattern is read from left to right with a stack of the groups that are open. `parse` gives the
tree of a well-formed pattern.
-/

namespace SqlMapper.Pattern

/-- A group whose end has not come, and what stands before it in the pattern around it. -/
structure OpenGroup where
  captured : Bool
  /-- The modes that hold again after the group. -/
  modes : Modes
  parts : List Pattern
  branches : List Pattern

/-- What has been read. Lists of patterns have the last one first. -/
structure Reading where
  modes : Modes
  /-- The parts of the branch in progress. -/
  parts : List Pattern
  /-- The branches before it in the same group. -/
  branches : List Pattern
  groups : List OpenGroup
  /-- The names of groups so far. -/
  names : List String

namespace Reading

def start : Reading := ⟨.initial, [], [], [], []⟩

def push (r : Reading) (p : Pattern) : Reading := { r with parts := p :: r.parts }

/-- The branch in progress as a pattern. -/
def branch (r : Reading) : Pattern := .ofParts r.parts.reverse

/-- The group in progress as a pattern. -/
def body (r : Reading) : Pattern := .ofBranches (r.branches.reverse ++ [r.branch])

def endBranch (r : Reading) : Reading :=
  { r with parts := [], branches := r.branch :: r.branches }

def openGroup (r : Reading) (captured : Bool) (modes : Modes) : Reading :=
  { r with
    modes
    parts := []
    branches := []
    groups := ⟨captured, r.modes, r.parts, r.branches⟩ :: r.groups }

def closeGroup? (r : Reading) : Option Reading :=
  match r.groups with
  | [] => none
  | g :: groups =>
      some { r with
        modes := g.modes
        parts := .group g.captured r.body :: g.parts
        branches := g.branches
        groups }

/-- Repeats the last part. There must be one, and flags cannot be repeated. -/
def repeat? (r : Reading) (least : Nat) (most : Option Nat) : Option Reading :=
  match r.parts with
  | [] => none
  | .switches _ :: _ => none
  | part :: before => some { r with parts := .repeated least most part :: before }

/-- Adds a character. One that is a byte must be in ASCII unless the pattern is about
characters. -/
def pushChar? (r : Reading) (c : Char) (byte : Bool) : Option Reading :=
  if byte ∧ ¬r.modes.unicode ∧ 128 ≤ c.toNat then none
  else some (r.push (.char c r.modes.caseless))

def pushAnyChar? (r : Reading) : Option Reading :=
  if r.modes.unicode then some (r.push .anyChar) else none

def pushSet? (r : Reading) (s : CharSet) : Option Reading :=
  if r.modes.unicode || s.fitsBytes then some (r.push (.set r.modes.unicode s)) else none

def pushEscape? (r : Reading) : Escape → Option Reading
  | .char c byte => r.pushChar? c byte
  | .place => some (r.push .place)
  | .set s => r.pushSet? s

end Reading

def isNameStart (c : Char) : Bool := c = '_' || Text.isLetter c

def isNameChar (c : Char) : Bool :=
  c = '_' || c = '.' || c = '[' || c = ']' || Text.isLetter c || Text.isNumeral c

/-- Reads the name of a group, up to the `>` after it. -/
def groupName (cs : List Char) : Option (String × List Char) :=
  match cs.span (· ≠ '>') with
  | (first :: others, '>' :: rest) =>
      if isNameStart first && others.all isNameChar then
        some (String.ofList (first :: others), rest)
      else none
  | _ => none

/-- Opens a group with a name, which no other group may have. -/
def namedGroup (r : Reading) (cs : List Char) : Option (Reading × List Char) := do
  let (name, rest) ← groupName cs
  if r.names.contains name then none
  else some ({ r.openGroup true r.modes with names := name :: r.names }, rest)

/-- Reads what follows a `(`: a group, or flags for the rest of the group around it. -/
def groupStart (r : Reading) (cs : List Char) : Option (Reading × List Char) :=
  match skip r.modes.spaced cs with
  | '?' :: 'P' :: '<' :: rest => namedGroup r rest
  | '?' :: '<' :: rest => namedGroup r rest
  | '?' :: rest => do
      let (changed, rest) ← readSwitches false false [] rest
      let modes := r.modes.setAll changed
      match changed, rest with
      | _, ':' :: rest => some (r.openGroup false modes, rest)
      | [], _ => none
      | _, _ => some ({ r with modes }.push (.switches changed), rest.drop 1)
  | rest => some (r.openGroup true r.modes, rest)

/-- The largest count. -/
def maxCount : Nat := 4294967295

/-- Reads a count with blanks around it. -/
def count (spaced : Bool) (cs : List Char) : Option (Nat × List Char) :=
  let (digits, rest) := gather spaced Text.isDigit false (cs.dropWhile Text.isBlank)
  let n := Text.digitsValue digits
  if digits = [] ∨ maxCount < n then none else some (n, rest.dropWhile Text.isBlank)

/-- Reads the counts of a repetition after its opening brace. The second count may be left out
after the comma, or be at least the first. -/
def counts (spaced : Bool) (cs : List Char) : Option ((Nat × Option Nat) × List Char) := do
  let (least, rest) ← count spaced (skip spaced cs)
  match rest with
  | '\x7d' :: rest => some ((least, some least), rest)
  | ',' :: rest =>
      match skip spaced rest with
      | '\x7d' :: rest => some ((least, none), rest)
      | rest => do
          let (most, rest) ← count spaced rest
          match rest with
          | '\x7d' :: rest => if least ≤ most then some ((least, some most), rest) else none
          | _ => none
  | _ => none

/-- Drops the mark of a repetition that prefers fewer times. -/
def dropReluctant : List Char → List Char
  | '?' :: rest => rest
  | rest => rest

/-- Reads one element of a pattern. -/
def step (r : Reading) : List Char → Option (Reading × List Char)
  | [] => none
  | '(' :: rest => groupStart r rest
  | ')' :: rest => r.closeGroup?.map (·, rest)
  | '|' :: rest => some (r.endBranch, rest)
  | '[' :: rest => do
      let (s, rest) ← bracketSet r.modes.spaced rest
      let r ← r.pushSet? s
      some (r, rest)
  | '?' :: rest => (r.repeat? 0 (some 1)).map (·, dropReluctant rest)
  | '*' :: rest => (r.repeat? 0 none).map (·, dropReluctant rest)
  | '+' :: rest => (r.repeat? 1 none).map (·, dropReluctant rest)
  | '\x7b' :: rest => do
      let ((least, most), rest) ← counts r.modes.spaced rest
      let r ← r.repeat? least most
      some (r, dropReluctant (skip r.modes.spaced rest))
  | '\\' :: rest => do
      let (e, rest) ← escape r.modes.spaced rest
      let r ← r.pushEscape? e
      some (r, rest)
  | '.' :: rest => r.pushAnyChar?.map (·, rest)
  | '^' :: rest => some (r.push .place, rest)
  | '$' :: rest => some (r.push .place, rest)
  | c :: rest => (r.pushChar? c false).map (·, rest)

/-- Reads elements to the end. Each takes a character at least. -/
def run (r : Reading) : Nat → List Char → Option Reading
  | fuel, cs =>
      match fuel, skip r.modes.spaced cs with
      | _, [] => some r
      | 0, _ => none
      | fuel + 1, cs => do
          let (r, rest) ← step r cs
          run r fuel rest

/-- The tree of a pattern; there is none if the pattern is not well-formed. -/
def parse (s : String) : Option Pattern := do
  let r ← run .start s.toList.length s.toList
  if r.groups.isEmpty then some r.body else none

end SqlMapper.Pattern
