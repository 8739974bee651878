import SqlMapper.Pattern.CharSet
import SqlMapper.Pattern.Modes
import SqlMapper.Text.Hexadecimal
import SqlMapper.Text.Integer

/-!
# Escapes in patterns

What a backslash and the characters after it stand for. Punctuation stands for itself; letters have
a meaning each or are refused, and so are digits: there are no references to groups.
-/

namespace SqlMapper.Pattern

inductive Escape
  /-- A character, and whether it was given by exactly two hexadecimal digits. -/
  | char (c : Char) (byte : Bool)
  /-- A condition on the place in the text, such as its start or the edge of a word. -/
  | place
  | set (s : CharSet)
  deriving Repr

/-- The character with a number given in hexadecimal. -/
def scalar? (digits : List Char) : Option Char := do
  let values ← digits.mapM Text.hexValue?
  let n := values.foldl (fun n d => 16 * n + d) 0
  if n.isValidChar then some (Char.ofNat n) else none

/-- A fixed number of hexadecimal digits. -/
def fixedDigits (spaced : Bool) : Nat → List Char → Option (List Char × List Char)
  | 0, cs => some ([], cs)
  | _ + 1, [] => none
  | count + 1, c :: rest =>
      if (Text.hexValue? c).isSome then do
        let (digits, rest) ← fixedDigits spaced count (skip spaced rest)
        some (c :: digits, rest)
      else none

/-- Reads what braces hold, after the opening one. -/
def braced (spaced : Bool) (test : Char → Bool) (cs : List Char) :
    Option (List Char × List Char) :=
  match gather spaced test false cs with
  | (inside, '\x7d' :: rest) => some (inside, rest)
  | _ => none

/-- A character by its number: a fixed count of digits, or any digits between braces. -/
def numberEscape (spaced : Bool) (count : Nat) (cs : List Char) : Option (Escape × List Char) :=
  match skip spaced cs with
  | '\x7b' :: inside => do
      let (digits, rest) ← braced spaced (fun c => (Text.hexValue? c).isSome) inside
      if digits = [] then none
      else do
        let c ← scalar? digits
        some (.char c false, rest)
  | cs => do
      let (digits, rest) ← fixedDigits spaced count cs
      let c ← scalar? digits
      some (.char c (count = 2), rest)

/-- What stands before and after the first place where one text occurs in another. -/
def cutAt? (separator : List Char) : List Char → Option (List Char × List Char)
  | [] => none
  | c :: rest =>
      match Text.dropStart? separator (c :: rest) with
      | some after => some ([], after)
      | none => (cutAt? separator rest).map fun (before, after) => (c :: before, after)

/-- The property between braces: a name, or a name and a value with a sign between them. -/
def propertyOf (cs : List Char) : CharProperty :=
  let cut := (cutAt? ['!', '='] cs).or ((cutAt? [':'] cs).or (cutAt? ['='] cs))
  match cut with
  | some (name, value) => .valued (String.ofList name) (String.ofList value)
  | none => .named (String.ofList cs)

/-- A property by one letter or between braces. -/
def propertyEscape (spaced negated : Bool) (cs : List Char) : Option (Escape × List Char) := do
  let (p, rest) ← match skip spaced cs with
    | [] => none
    | '\\' :: _ => none
    | '\x7b' :: inside => do
        let (name, rest) ← braced spaced (· ≠ '\x7d') inside
        some (propertyOf name, rest)
    | c :: rest => some (.named (String.ofList [c]), rest)
  let s ← p.set?
  some (.set (.property s negated), rest)

def isEdgeChar (c : Char) : Bool := c.isAlpha || c = '-'

/-- The edge of a word, perhaps one side of it, named between braces. Braces that start with
anything but a name count repetitions and are left in place. -/
def edgeEscape (spaced : Bool) : List Char → Option (Escape × List Char)
  | '\x7b' :: inside =>
      match skip spaced inside with
      | [] => none
      | c :: _ =>
          if isEdgeChar c then do
            let (name, rest) ← braced spaced isEdgeChar inside
            if String.ofList name ∈ ["start", "end", "start-half", "end-half"] then
              some (.place, rest)
            else none
          else some (.place, '\x7b' :: inside)
  | rest => some (.place, rest)

/-- The sets that have a letter of their own. -/
def shorthand? (c : Char) : Option CharSet :=
  if c = 'd' then some (.shorthand .digit false)
  else if c = 'D' then some (.shorthand .digit true)
  else if c = 's' then some (.shorthand .space false)
  else if c = 'S' then some (.shorthand .space true)
  else if c = 'w' then some (.shorthand .word false)
  else if c = 'W' then some (.shorthand .word true)
  else none

/-- The control characters that have a letter of their own. -/
def control? (c : Char) : Option Char :=
  if c = 'a' then some '\x07'
  else if c = 'f' then some '\x0c'
  else if c = 't' then some '\t'
  else if c = 'n' then some '\n'
  else if c = 'r' then some '\r'
  else if c = 'v' then some '\x0b'
  else none

/-- Reads an escape after its backslash. -/
def escape (spaced : Bool) : List Char → Option (Escape × List Char)
  | [] => none
  | c :: rest =>
      if c = 'x' then numberEscape spaced 2 rest
      else if c = 'u' then numberEscape spaced 4 rest
      else if c = 'U' then numberEscape spaced 8 rest
      else if c = 'p' then propertyEscape spaced false rest
      else if c = 'P' then propertyEscape spaced true rest
      else if c = 'b' then edgeEscape spaced rest
      else if c ∈ ['A', 'z', 'B', '<', '>'] then some (.place, rest)
      else
        match shorthand? c, control? c with
        | some s, _ => some (.set s, rest)
        | none, some control => some (.char control false, rest)
        | none, none =>
            if c.toNat < 128 ∧ ¬c.isAlphanum then some (.char c false, rest) else none

end SqlMapper.Pattern
