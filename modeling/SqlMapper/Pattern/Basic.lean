import SqlMapper.Pattern.CharSet
import SqlMapper.Pattern.Modes

/-!
# Regular expressions

A regular expression as a tree, and the two measures of it that are limited: how deep it is nested,
and how large it is once every counted repetition is written out.
-/

namespace SqlMapper

/-- A regular expression. Matching is not modelled. -/
inductive Pattern
  /-- A condition on the place in the text. -/
  | place
  | char (c : Char) (caseless : Bool)
  | anyChar
  | set (unicode : Bool) (s : Pattern.CharSet)
  /-- Flags that are switched for the rest of the group. -/
  | switches (changed : List Pattern.Switch)
  | group (captured : Bool) (body : Pattern)
  | repeated (least : Nat) (most : Option Nat) (body : Pattern)
  | sequence (parts : List Pattern)
  | choice (branches : List Pattern)
  deriving Repr

namespace Pattern

/-- Parts in a row; a single one stands for itself. -/
def ofParts : List Pattern → Pattern
  | [part] => part
  | parts => .sequence parts

def ofBranches : List Pattern → Pattern
  | [branch] => branch
  | branches => .choice branches

mutual

/-- How deep a pattern is nested. Leaves and the empty pattern have depth zero. -/
def depth : Pattern → Nat
  | .set _ s => s.depth
  | .group _ body => depth body + 1
  | .repeated _ _ body => depth body + 1
  | .sequence [] => 0
  | .sequence (part :: rest) => max (depth part) (maxDepth rest) + 1
  | .choice branches => maxDepth branches + 1
  | _ => 0

def maxDepth : List Pattern → Nat
  | [] => 0
  | part :: rest => max (depth part) (maxDepth rest)

end

mutual

/-- Whether a pattern takes up no text at all, judged by its shape. -/
def isEmptyOnly : Pattern → Bool
  | .place => true
  | .switches _ => true
  | .group _ body => isEmptyOnly body
  | .repeated _ most body => most == some 0 || isEmptyOnly body
  | .sequence parts => allEmptyOnly parts
  | .choice branches => allEmptyOnly branches
  | _ => false

def allEmptyOnly : List Pattern → Bool
  | [] => true
  | part :: rest => isEmptyOnly part && allEmptyOnly rest

end

/-- The bytes of one state of a compiled pattern. -/
def stateSize : Nat := 32

/-- The size of a repetition whose body has the given size: the body as often as it must occur,
and a choice before each time that it may occur. -/
def repeatedSize (body least : Nat) (most : Option Nat) : Nat :=
  match most with
  | none => if least = 0 then body + 40 else least * body + 40
  | some most =>
      if most = 0 then stateSize
      else if least = most then least * body
      else if least = 0 ∧ most = 1 then body + 72
      else max (least * body) stateSize + stateSize + (most - least) * (body + 40)

mutual

/-- The bytes of a compiled pattern. What takes up no text is repeated at most once. -/
def size : Pattern → Nat
  | .place => stateSize
  | .char c caseless => if caseless && c.isAlpha then 80 else stateSize * c.utf8Size
  | .anyChar => 1000
  | .set unicode s => 2 * stateSize + s.weight unicode false
  | .switches _ => 0
  | .group captured body => if captured then size body + 2 * stateSize else size body
  | .repeated least most body =>
      if isEmptyOnly body then
        repeatedSize (size body) (min least 1) (some (min (most.getD 1) 1))
      else repeatedSize (size body) least most
  | .sequence [] => stateSize
  | .sequence (part :: rest) => size part + totalSize rest
  | .choice branches => 2 * stateSize + 4 * branches.length + totalSize branches

def totalSize : List Pattern → Nat
  | [] => 0
  | part :: rest => size part + totalSize rest

end

end Pattern

end SqlMapper
