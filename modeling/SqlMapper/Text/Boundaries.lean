/-!
# Classes of code points by their boundaries

A class of code points is given by the increasing list of the code points at which membership
changes, the first of which is in the class.
-/

namespace SqlMapper.Text

/-- A code point is in the class if an odd number of boundaries lie at or below it. -/
def withinBoundaries (boundaries : List Nat) (n : Nat) : Bool :=
  (boundaries.takeWhile (· ≤ n)).length % 2 == 1

end SqlMapper.Text
