import SqlMapper.Pattern.Parser

/-!
# Valid regular expressions

A pattern is valid if it is well-formed, not nested too deep and not too large. How large it is comes
down to the sets of characters in it, of which `CharSet.weight` estimates those put together from
others.
-/

namespace SqlMapper.Pattern

/-- The deepest nesting that is accepted. -/
def depthLimit : Nat := 250

/-- The bytes that a compiled pattern may take. -/
def sizeLimit : Nat := 10485760

/-- The bytes that the search for a pattern takes, whatever the pattern. -/
def searchSize : Nat := 208

def withinLimits (p : Pattern) : Bool := p.depth ≤ depthLimit && p.size + searchSize ≤ sizeLimit

def isValid (s : String) : Bool := (parse s).any withinLimits

end SqlMapper.Pattern
