import Mathlib.Algebra.Order.Field.Power
import Mathlib.Algebra.Order.Floor.Semifield
import Mathlib.Data.Int.Log
import Mathlib.Data.Rat.Floor
import Mathlib.Tactic.FieldSimp
import Mathlib.Tactic.Linarith
import Mathlib.Tactic.Positivity
import Mathlib.Tactic.Ring
import SqlMapper.Number.Binary64

/-! # Rounding to binary numbers

`ofRatio` takes every quotient near enough to a finite number to that number. Near enough is half
a step to either side, and below a power of two, where the steps get finer, a quarter of one; the
ends belong to the number whose significand is even. The quotient has the scale of the number, or
if it is below a power of two the scale below it.
-/

namespace SqlMapper

theorem pow2_pos (n : Nat) : 0 < pow2 n := Nat.pow_pos (by decide)

theorem cast_pow2 (n : Nat) : (pow2 n : ℚ) = 2 ^ n := by simp [pow2]

theorem pow2_52 : pow2 52 = 4503599627370496 := rfl

/-- Half a step around a natural there are two floors. -/
theorem div_cases {n d m : Nat} (positive : 0 < d) (low : 2 * (m * d) ≤ 2 * n + d)
    (high : 2 * n ≤ 2 * (m * d) + d) : n / d = m ∨ n / d + 1 = m := by
  have parts := Nat.div_add_mod' n d
  have rest := Nat.mod_lt n positive
  by_contra neither
  rcases Nat.lt_or_ge m (n / d) with more | less
  · have bound := Nat.mul_le_mul_right d more
    rw [Nat.succ_mul] at bound
    omega
  · have bound := Nat.mul_le_mul_right d (show n / d + 2 ≤ m by omega)
    rw [Nat.add_mul] at bound
    omega

/-- A quotient rounds to the natural that is nearest to it, or to an even one half a step away. -/
theorem divHalfEven_eq {n d m : Nat} (positive : 0 < d) (low : 2 * (m * d) ≤ 2 * n + d)
    (high : 2 * n ≤ 2 * (m * d) + d)
    (odd : m % 2 = 1 → 2 * (m * d) < 2 * n + d ∧ 2 * n < 2 * (m * d) + d) :
    divHalfEven n d = m := by
  have parts := Nat.div_add_mod' n d
  simp only [divHalfEven]
  rcases div_cases positive low high with same | less
  · rw [same] at parts ⊢
    rw [if_neg]
    omega
  · rw [← less, Nat.add_mul, Nat.one_mul] at low high odd
    rw [← less, if_pos]
    omega

namespace Binary64

/-! ## Scales -/

section Scale

variable {num den : Nat} {q : Int}

theorem rescaled_den_pos (positive : 0 < den) (num : Nat) (q : Int) :
    0 < (rescaled num den q).2 := by
  rw [rescaled]
  split
  · exact Nat.mul_pos positive (pow2_pos _)
  · exact positive

/-- A rescaled quotient is the quotient divided by the power of two. -/
theorem rescaled_eq (positive : 0 < den) (num : Nat) (q : Int) :
    ((rescaled num den q).1 : ℚ) / (rescaled num den q).2 = num / den / 2 ^ q := by
  have nonzero : (den : ℚ) ≠ 0 := by positivity
  rw [rescaled]
  split
  · next up =>
    obtain ⟨k, rfl⟩ := Int.eq_ofNat_of_zero_le up
    simp only [Int.toNat_natCast, zpow_natCast, Nat.cast_mul, cast_pow2]
    field_simp
  · next down =>
    obtain ⟨k, rfl⟩ := Int.exists_eq_neg_ofNat (le_of_not_ge down)
    simp only [neg_neg, Int.toNat_natCast, zpow_neg, zpow_natCast, Nat.cast_mul, cast_pow2]
    field_simp

theorem le_log {r : ℚ} {s : Int} {k : Nat} (positive : 0 < r) (low : 2 ^ k ≤ r / 2 ^ s) :
    s + k ≤ Int.log 2 r := by
  refine (Int.zpow_le_iff_le_log (by decide) positive).mp ?_
  rwa [Nat.cast_ofNat, zpow_add₀ (by norm_num), zpow_natCast, ← le_div_iff₀' (by positivity)]

theorem log_lt {r : ℚ} {s : Int} {k : Nat} (positive : 0 < r) (high : r / 2 ^ s < 2 ^ k) :
    Int.log 2 r < s + k := by
  refine (Int.lt_zpow_iff_log_lt (by decide) positive).mp ?_
  rwa [Nat.cast_ofNat, zpow_add₀ (by norm_num), zpow_natCast, ← div_lt_iff₀' (by positivity)]

/-- The sizes of two naturals give the size of their quotient, or one more. -/
theorem log_div_bounds (some_num : 0 < num) (positive : 0 < den) :
    (num.log2 : Int) - den.log2 - 1 ≤ Int.log 2 (num / den : ℚ) ∧
      Int.log 2 (num / den : ℚ) ≤ num.log2 - den.log2 := by
  have quotient : (0 : ℚ) < num / den := by positivity
  have num_low : (2 : ℚ) ^ num.log2 ≤ num := by
    exact_mod_cast Nat.log2_self_le (Nat.ne_of_gt some_num)
  have num_high : (num : ℚ) < 2 ^ (num.log2 + 1) := by exact_mod_cast Nat.lt_log2_self
  have den_low : (2 : ℚ) ^ den.log2 ≤ den := by
    exact_mod_cast Nat.log2_self_le (Nat.ne_of_gt positive)
  have den_high : (den : ℚ) < 2 ^ (den.log2 + 1) := by exact_mod_cast Nat.lt_log2_self
  constructor
  · refine (Int.zpow_le_iff_le_log (by decide) quotient).mp ?_
    have split : ((2 : ℕ) : ℚ) ^ ((num.log2 : Int) - den.log2 - 1) =
        2 ^ num.log2 / 2 ^ (den.log2 + 1) := by
      rw [sub_sub, zpow_sub₀ (by norm_num)]
      norm_cast
    rw [split]
    gcongr
  · rw [← Int.lt_add_one_iff]
    refine (Int.lt_zpow_iff_log_lt (by decide) quotient).mp ?_
    have split : ((2 : ℕ) : ℚ) ^ ((num.log2 : Int) - den.log2 + 1) =
        2 ^ (num.log2 + 1) / 2 ^ den.log2 := by
      rw [sub_add_eq_add_sub, zpow_sub₀ (by norm_num)]
      norm_cast
    rw [split]
    gcongr

/-- At its scale a quotient has fifty-three bits, or fewer at the least scale. -/
theorem roundingScale_eq (some_num : 0 < num) (positive : 0 < den) :
    roundingScale num den = max (Int.log 2 (num / den : ℚ) - 52) (-1074) := by
  have bounds := log_div_bounds some_num positive
  have quotient : (0 : ℚ) < num / den := by positivity
  -- Fewer than fifty-three bits are left at a scale.
  have fewer (guess : Int) :
      (rescaled num den guess).1 < (rescaled num den guess).2 * pow2 52 ↔
        Int.log 2 (num / den : ℚ) < guess + 52 := by
    have den_pos : (0 : ℚ) < (rescaled num den guess).2 := by
      exact_mod_cast rescaled_den_pos positive num guess
    have unit : (0 : ℚ) < 2 ^ guess := by positivity
    calc (rescaled num den guess).1 < (rescaled num den guess).2 * pow2 52
        ↔ ((rescaled num den guess).1 / (rescaled num den guess).2 : ℚ) < 2 ^ (52 : Int) := by
          rw [div_lt_iff₀' den_pos, ← Nat.cast_lt (α := ℚ), Nat.cast_mul, cast_pow2]
          rfl
      _ ↔ (num / den : ℚ) < 2 ^ (guess + 52) := by
          rw [rescaled_eq positive, div_lt_iff₀' unit, zpow_add₀ (by norm_num)]
      _ ↔ Int.log 2 (num / den : ℚ) < guess + 52 :=
          Int.lt_zpow_iff_log_lt (by decide) quotient
  simp only [roundingScale, fewer]
  split
  · omega
  · omega

/-- The pattern of a quotient, from its scale and the significand it rounds to. -/
theorem ofRatio_eq {m : Nat} (some_num : 0 < num) (positive : 0 < den)
    (scale : roundingScale num den = q) (low : (m - 1 / 2 : ℚ) ≤ num / den / 2 ^ q)
    (high : (num / den / 2 ^ q : ℚ) ≤ m + 1 / 2)
    (odd : m % 2 = 1 → (m - 1 / 2 : ℚ) < num / den / 2 ^ q ∧ (num / den / 2 ^ q : ℚ) < m + 1 / 2)
    (finite : (q + 1074).toNat * pow2 52 + m < 2047 * pow2 52) (negative : Bool) :
    ofRatio negative num den = ofNatBits negative ((q + 1074).toNat * pow2 52 + m) := by
  have den_pos := rescaled_den_pos positive num q
  rw [← rescaled_eq positive] at low high odd
  rw [ofRatio, if_neg (Nat.ne_of_gt some_num), scale]
  dsimp only
  generalize (rescaled num den q).1 = n at low high odd ⊢
  generalize (rescaled num den q).2 = d at low high odd den_pos ⊢
  have den_pos' : (0 : ℚ) < d := by exact_mod_cast den_pos
  rw [le_div_iff₀ den_pos'] at low
  rw [div_le_iff₀ den_pos'] at high
  rw [lt_div_iff₀ den_pos', div_lt_iff₀ den_pos'] at odd
  have rounded : divHalfEven n d = m := by
    refine divHalfEven_eq den_pos ?_ ?_ fun isOdd => ⟨?_, ?_⟩
    · exact_mod_cast (by linarith : (2 * (m * d) : ℚ) ≤ 2 * n + d)
    · exact_mod_cast (by linarith : (2 * n : ℚ) ≤ 2 * (m * d) + d)
    · exact_mod_cast (by linarith [(odd isOdd).1] : (2 * (m * d) : ℚ) < 2 * n + d)
    · exact_mod_cast (by linarith [(odd isOdd).2] : (2 * n : ℚ) < 2 * (m * d) + d)
  rw [rounded, if_neg (Nat.not_le_of_lt finite)]

end Scale

/-! ## Fields -/

section Fields

variable {x : Binary64}

theorem fraction_lt (x : Binary64) : x.fraction < 4503599627370496 := Nat.mod_lt _ (by decide)

theorem biased_lt (finite : x.isFinite = true) : x.biased < 2047 := by
  have bound : x.biased < 2048 := Nat.mod_lt _ (by decide)
  have other : x.biased ≠ 2047 := by simpa [isFinite] using finite
  omega

theorem significand_lt (x : Binary64) : x.significand < 9007199254740992 := by
  have bound := x.fraction_lt
  rw [significand, pow2_52]
  split <;> omega

/-- Above the least scale the leading bit is set. -/
theorem significand_ge (above : -1074 < x.scale) : 4503599627370496 ≤ x.significand := by
  rw [scale] at above
  rw [significand, if_neg (by omega), pow2_52]
  omega

theorem pattern_lt (x : Binary64) (finite : x.isFinite = true) :
    (x.scale + 1074).toNat * pow2 52 + x.significand < 2047 * pow2 52 := by
  have exponent := biased_lt finite
  have bits := x.significand_lt
  rw [scale, pow2_52]
  omega

theorem scale_ge (x : Binary64) : -1074 ≤ x.scale := by
  rw [scale]
  omega

/-- The pattern of a number from its fields: the leading bit counts as one exponent more. -/
theorem ofNatBits_fields (x : Binary64) :
    ofNatBits x.negative ((x.scale + 1074).toNat * pow2 52 + x.significand) = x := by
  have bound := x.bits.toNat_lt
  have magnitude : (x.scale + 1074).toNat * pow2 52 + x.significand = x.bits.toNat % pow2 63 := by
    simp only [scale, significand, biased, fraction, pow2_52,
      show pow2 11 = 2048 from rfl, show pow2 63 = 9223372036854775808 from rfl]
    split <;> omega
  have whole : (if x.negative then pow2 63 + x.bits.toNat % pow2 63 else x.bits.toNat % pow2 63) =
      x.bits.toNat := by
    simp only [negative, show pow2 63 = 9223372036854775808 from rfl, decide_eq_true_eq]
    split <;> omega
  rw [magnitude, ofNatBits, whole, UInt64.ofNat_toNat]

end Fields

/-! ## Nearness -/

/-- How far below its magnitude a number reaches, in steps: the step is half as wide below a power
of two. -/
def reachBelow (x : Binary64) : ℚ := if x.fraction = 0 ∧ 1 < x.biased then 1 / 4 else 1 / 2

theorem reachBelow_le (x : Binary64) : x.reachBelow ≤ 1 / 2 := by
  rw [reachBelow]
  split <;> norm_num

/-- A quotient that is nearer to the magnitude of a number than to any other. -/
structure IsNear (x : Binary64) (r : ℚ) : Prop where
  low : x.significand - x.reachBelow ≤ r / 2 ^ x.scale
  high : r / 2 ^ x.scale ≤ x.significand + 1 / 2
  odd : x.significand % 2 = 1 →
    x.significand - x.reachBelow < r / 2 ^ x.scale ∧ r / 2 ^ x.scale < x.significand + 1 / 2

/-- A quotient below the numbers of its scale is near to a power of two only, and reaches it at
the scale below. -/
theorem IsNear.powerOfTwo {x : Binary64} {r : ℚ} (near : x.IsNear r) (above : -1074 < x.scale)
    (less : r / 2 ^ x.scale < 4503599627370496) :
    x.significand = 4503599627370496 ∧ 4503599627370496 - 1 / 4 ≤ r / 2 ^ x.scale := by
  have leading := significand_ge above
  have reach := x.reachBelow_le
  have least : x.significand = 4503599627370496 := by
    have bound : (x.significand : ℚ) < 4503599627370497 := by linarith [near.low]
    have bound' : x.significand < 4503599627370497 := by exact_mod_cast bound
    omega
  have quarter : x.reachBelow = 1 / 4 := by
    rw [scale] at above
    rw [significand, if_neg (by omega), pow2_52] at least
    exact if_pos ⟨by omega, by omega⟩
  have low := near.low
  rw [quarter, least] at low
  exact ⟨least, by exact_mod_cast low⟩

section Rounding

variable {x : Binary64} {num den : Nat}

theorem IsNear.roundingScale_below (near : x.IsNear (num / den)) (some_num : 0 < num)
    (positive : 0 < den) (above : -1074 < x.scale)
    (less : (num / den / 2 ^ x.scale : ℚ) < 4503599627370496) :
    roundingScale num den = x.scale - 1 := by
  have quotient : (0 : ℚ) < num / den := by positivity
  have low := (near.powerOfTwo above less).2
  have lower := le_log (k := 51) quotient (le_trans (by norm_num) low)
  have upper := log_lt (k := 52) quotient (less.trans_eq (by norm_num))
  rw [roundingScale_eq some_num positive]
  omega

theorem IsNear.roundingScale_same (near : x.IsNear (num / den)) (some_num : 0 < num)
    (positive : 0 < den)
    (enough : -1074 < x.scale → (4503599627370496 : ℚ) ≤ num / den / 2 ^ x.scale) :
    roundingScale num den = x.scale := by
  have quotient : (0 : ℚ) < num / den := by positivity
  have bits : (x.significand : ℚ) + 1 ≤ 9007199254740992 := by exact_mod_cast x.significand_lt
  have upper := log_lt (r := num / den) (s := x.scale) (k := 53) quotient (by linarith [near.high])
  rw [roundingScale_eq some_num positive]
  rcases Int.lt_or_eq_of_le x.scale_ge with above | least
  · have lower := le_log (r := num / den) (s := x.scale) (k := 52) quotient
      (le_trans (by norm_num) (enough above))
    omega
  · omega

/-- What is near to a number is rounded to it. -/
theorem IsNear.ofRatio_eq (near : x.IsNear (num / den)) (finite : x.isFinite = true)
    (some_num : 0 < num) (positive : 0 < den) : ofRatio x.negative num den = x := by
  have fits := x.pattern_lt finite
  suffices rounded : ofRatio x.negative num den =
      ofNatBits x.negative ((x.scale + 1074).toNat * pow2 52 + x.significand) from
    rounded.trans x.ofNatBits_fields
  by_cases less : -1074 < x.scale ∧ (num / den / 2 ^ x.scale : ℚ) < 4503599627370496
  · obtain ⟨above, less⟩ := less
    obtain ⟨least, low⟩ := near.powerOfTwo above less
    have scale := near.roundingScale_below some_num positive above less
    have doubled : (num / den / 2 ^ (x.scale - 1) : ℚ) = 2 * (num / den / 2 ^ x.scale) := by
      rw [zpow_sub_one₀ (by norm_num)]
      field_simp
    -- The carry of the rounded significand makes up for the lesser scale.
    have same : (x.scale + 1074).toNat * pow2 52 + x.significand =
        (x.scale - 1 + 1074).toNat * pow2 52 + 9007199254740992 := by
      rw [least, pow2_52]
      omega
    rw [same] at fits ⊢
    refine Binary64.ofRatio_eq some_num positive scale ?_ ?_
      (fun isOdd => absurd isOdd (by decide)) fits x.negative
    · rw [doubled]
      norm_num
      linarith
    · rw [doubled]
      norm_num
      linarith
  · have scale := near.roundingScale_same some_num positive fun above =>
      not_lt.mp fun small => less ⟨above, small⟩
    have reach := x.reachBelow_le
    refine Binary64.ofRatio_eq some_num positive scale ?_ near.high (fun isOdd => ⟨?_, ?_⟩) fits
      x.negative
    · linarith [near.low]
    · linarith [(near.odd isOdd).1]
    · exact (near.odd isOdd).2

end Rounding

end Binary64

end SqlMapper
