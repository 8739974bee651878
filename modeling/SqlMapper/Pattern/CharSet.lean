import SqlMapper.Pattern.CharProperty

/-!
# Sets of characters in patterns

What a pattern writes between brackets, and the abbreviations that stand for sets outside of them.
A set of bytes admits no member outside ASCII, neither by name nor by complement.
-/

namespace SqlMapper.Pattern

inductive Shorthand
  | digit
  | space
  | word
  deriving DecidableEq, Repr

/-- How two sets are combined. -/
inductive SetOperation
  | intersection
  | difference
  | symmetricDifference
  deriving DecidableEq, Repr

inductive CharSet
  | char (c : Char)
  | range (low high : Char)
  | shorthand (kind : Shorthand) (negated : Bool)
  | property (s : NamedSet) (negated : Bool)
  /-- One of the ASCII classes that have a name. -/
  | ascii (name : String) (negated : Bool)
  | bracket (negated : Bool) (body : CharSet)
  | union (parts : List CharSet)
  | combined (operation : SetOperation) (left right : CharSet)
  deriving Repr

def asciiClassNames : List String :=
  ["alnum", "alpha", "ascii", "blank", "cntrl", "digit", "graph", "lower", "print", "punct",
    "space", "upper", "word", "xdigit"]

namespace CharSet

/-- The union of some parts; a single one stands for itself. -/
def ofParts : List CharSet → CharSet
  | [part] => part
  | parts => .union parts

mutual

/-- Whether a set can be read as a set of bytes. -/
def fitsBytes : CharSet → Bool
  | .char c => c.toNat < 128
  | .range low high => low.toNat < 128 && high.toNat < 128
  | .shorthand _ negated => !negated
  | .property _ _ => false
  | .ascii _ negated => !negated
  | .bracket negated body => !negated && fitsBytes body
  | .union parts => allFitBytes parts
  | .combined _ left right => fitsBytes left && fitsBytes right

def allFitBytes : List CharSet → Bool
  | [] => true
  | part :: rest => fitsBytes part && allFitBytes rest

end

mutual

/-- How deep brackets, unions and operations are nested. -/
def depth : CharSet → Nat
  | .bracket _ body => depth body + 1
  | .union [] => 0
  | .union (part :: rest) => max (depth part) (maxDepth rest) + 1
  | .combined _ left right => max (depth left) (depth right) + 1
  | _ => 0

def maxDepth : List CharSet → Nat
  | [] => 0
  | part :: rest => max (depth part) (maxDepth rest)

end

/-- Whether two sets are complements of each other, as far as their names tell. -/
def isOpposite : CharSet → CharSet → Bool
  | .shorthand kind negated, .shorthand other negatedOther =>
      kind == other && negated != negatedOther
  | .property s negated, .property other negatedOther => s == other && negated != negatedOther
  | .ascii name negated, .ascii other negatedOther => name == other && negated != negatedOther
  | _, _ => false

/-- Whether a set and its complement are among some parts, as in `[\s\S]`. -/
def cover (parts : List CharSet) : Bool := parts.any fun part => parts.any part.isOpposite

/-- The bytes that the set of all characters takes in a compiled pattern. -/
def allWeight : Nat := 900

/-- The bytes that all characters but one in ASCII take, or but a range there. -/
def complementWeight : Nat := allWeight + 36

/-- The bytes that a character takes among the members of a set. -/
def charWeight (c : Char) : Nat := if c.toNat < 128 then 8 else 32 * c.utf8Size + 4

def shorthandWeight (unicode negated : Bool) : Shorthand → Nat
  | .digit => if unicode then (if negated then 11592 else 4576) else 8
  | .space => if unicode then (if negated then 1860 else 616) else 16
  | .word => if unicode then (if negated then 45224 else 48136) else 32

mutual

/-- The bytes that a set takes in a compiled pattern, or its complement. For sets that are put
together from others this is an estimate, since these may share states. -/
def weight (unicode complement : Bool) : CharSet → Nat
  | .char c => if complement then complementWeight else charWeight c
  | .range _ high => if complement then complementWeight else charWeight high
  | .shorthand kind negated => shorthandWeight unicode (negated != complement) kind
  | .property s negated => if negated != complement then s.complement else s.size
  | .ascii _ negated => if negated != complement then complementWeight else 24
  | .bracket negated body => weight unicode (negated != complement) body
  | .union parts =>
      if complement then allWeight + totalCut unicode parts
      else if cover parts then allWeight
      else totalWeight unicode parts
  | .combined _ left right =>
      weight unicode false left + weight unicode false right +
        if complement then complementWeight else 0

def totalWeight (unicode : Bool) : List CharSet → Nat
  | [] => 0
  | part :: rest => weight unicode false part + totalWeight unicode rest

/-- What is added to the set of all characters when some sets are cut out of it. -/
def totalCut (unicode : Bool) : List CharSet → Nat
  | [] => 0
  | part :: rest => weight unicode true part - allWeight + totalCut unicode rest

end

end CharSet

end SqlMapper.Pattern
