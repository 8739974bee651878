import SqlMapper.Pattern.Escape

/-!
# Sets between brackets

Reading a bracketed set: members, ranges, nested brackets, and the operations `&&`, `--` and `~~`,
which bind less than union and to the left.
-/

namespace SqlMapper.Pattern

/-- A bracket whose end has not come. -/
structure OpenBracket where
  negated : Bool
  /-- What stands before the bracket in the one around it, last first. -/
  outer : List CharSet
  /-- The operation that waits for its right side, and its left side. -/
  waiting : Option (SetOperation × CharSet)

/-- The members read since the last operation, last first, as a set. -/
def OpenBracket.body (b : OpenBracket) (parts : List CharSet) : CharSet :=
  let right := CharSet.ofParts parts.reverse
  match b.waiting with
  | some (operation, left) => .combined operation left right
  | none => right

/-- Opens a bracket after its `[`. Hyphens at the start are members, and so is `]`. -/
def openBracket (spaced : Bool) (outer : List CharSet) (cs : List Char) :
    OpenBracket × List CharSet × List Char :=
  let (negated, cs) : Bool × List Char := match skip spaced cs with
    | '^' :: rest => (true, rest)
    | cs => (false, cs)
  let (hyphens, cs) := gather spaced (· = '-') false cs
  let bracket : OpenBracket := ⟨negated, outer, none⟩
  match hyphens, cs with
  | [], ']' :: rest => (bracket, [.char ']'], rest)
  | _, _ => (bracket, hyphens.map .char, cs)

/-- Reads an ASCII class by name, such as `[:alpha:]`, after its `[`. -/
def asciiClass? (cs : List Char) : Option (CharSet × List Char) :=
  match cs with
  | ':' :: rest =>
      let (negated, rest) : Bool × List Char := match rest with
        | '^' :: rest => (true, rest)
        | _ => (false, rest)
      let name := String.ofList (rest.takeWhile (· ≠ ':'))
      match rest.dropWhile (· ≠ ':') with
      | ':' :: ']' :: rest =>
          if asciiClassNames.contains name then some (.ascii name negated, rest) else none
      | _ => none
  | _ => none

/-- Reads an escape, or a character that stands for itself. -/
def member (spaced : Bool) : List Char → Option (Escape × List Char)
  | [] => none
  | '\\' :: rest => escape spaced rest
  | c :: rest => some (.char c false, rest)

def Escape.char? : Escape → Option Char
  | .char c _ => some c
  | _ => none

/-- The set that an escape stands for between brackets. -/
def Escape.charSet? : Escape → Option CharSet
  | .char c _ => some (.char c)
  | .set s => some s
  | .place => none

/-- The character that decides whether a hyphen makes a range. Before it, only one hash is
passed over and what is between its blanks. -/
def afterHyphen? (spaced : Bool) (cs : List Char) : Option Char :=
  if spaced then
    let visible := match cs.dropWhile Text.isBlank with
      | '#' :: rest => rest.dropWhile Text.isBlank
      | rest => rest
    visible.head?.or cs.head?
  else cs.head?

/-- Reads a member or a range of members. -/
def memberOrRange (spaced : Bool) (cs : List Char) : Option (CharSet × List Char) := do
  let (first, rest) ← member spaced cs
  let alone := do
    let s ← first.charSet?
    some (s, rest)
  match skip spaced rest with
  | '-' :: after =>
      let next := afterHyphen? spaced after
      if next = some ']' ∨ next = some '-' then alone
      else do
        let (last, rest) ← member spaced (skip spaced after)
        let low ← first.char?
        let high ← last.char?
        if low ≤ high then some (.range low high, rest) else none
  | _ => alone

/-- Reads to the end of the outermost bracket. `parts` holds what has been read of the innermost
bracket, last first, and `around` the brackets around it. -/
def readBracket (spaced : Bool) (inner : OpenBracket) (parts : List CharSet)
    (around : List OpenBracket) : Nat → List Char → Option (CharSet × List Char)
  | 0, _ => none
  | fuel + 1, cs =>
      let operate (operation : SetOperation) (rest : List Char) :=
        let inner := { inner with waiting := some (operation, inner.body parts) }
        readBracket spaced inner [] around fuel rest
      match skip spaced cs with
      | [] => none
      | '[' :: rest =>
          match asciiClass? rest with
          | some (s, rest) => readBracket spaced inner (s :: parts) around fuel rest
          | none =>
              let (nested, first, rest) := openBracket spaced parts rest
              readBracket spaced nested first.reverse (inner :: around) fuel rest
      | ']' :: rest =>
          let s := CharSet.bracket inner.negated (inner.body parts)
          match around with
          | [] => some (s, rest)
          | outer :: around => readBracket spaced outer (s :: inner.outer) around fuel rest
      | '&' :: '&' :: rest => operate .intersection rest
      | '-' :: '-' :: rest => operate .difference rest
      | '~' :: '~' :: rest => operate .symmetricDifference rest
      | cs => do
          let (s, rest) ← memberOrRange spaced cs
          readBracket spaced inner (s :: parts) around fuel rest

/-- Reads a bracketed set after its `[`. -/
def bracketSet (spaced : Bool) (cs : List Char) : Option (CharSet × List Char) :=
  let (bracket, first, rest) := openBracket spaced [] cs
  readBracket spaced bracket first.reverse [] (rest.length + 1) rest

end SqlMapper.Pattern
