/-!
# Where a text stops being JSON

A text can end too early, or go on in a way that no JSON text does. Reading takes one of two
attitudes: a value that is wanted is read strictly, and one that is skipped only has its extent
determined, so that neither the range of its numbers nor the pairing of its surrogates matters.
-/

namespace SqlMapper.Json

inductive Fault
  | truncated
  | malformed
  deriving DecidableEq, Repr, Inhabited

inductive Attitude
  | strict
  | skipping
  deriving DecidableEq, Repr

/-- What is left of a text after a part of it, unless it stops being JSON before. -/
abbrev Rest := Except Fault (List Char)

def isJsonBlank (c : Char) : Bool := c == ' ' || c == '\n' || c == '\t' || c == '\r'

def skipBlanks (cs : List Char) : List Char := cs.dropWhile isJsonBlank

/-- Reads the given characters. -/
def expect : List Char → List Char → Rest
  | [], rest => .ok rest
  | _ :: _, [] => .error .truncated
  | w :: word, c :: rest => if w = c then expect word rest else .error .malformed

end SqlMapper.Json
