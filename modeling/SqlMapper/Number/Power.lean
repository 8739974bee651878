/-!
# Powers of two and of ten
-/

namespace SqlMapper

/-- Two raised to a power. -/
def pow2 (n : Nat) : Nat := Nat.pow 2 n

/-- Ten raised to a power. -/
def pow10 (n : Nat) : Nat := Nat.pow 10 n

end SqlMapper
