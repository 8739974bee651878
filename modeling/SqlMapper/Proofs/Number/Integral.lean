import SqlMapper.Proofs.Number.Rounding

/-! # Integral numbers

A finite number is its significand at a power of two, with its sign. It is integral exactly if that
is an integer, and clamping it to a range clamps this integer. An unsigned word beyond the signed
ones is rounded to an integer that is beyond them too.
-/

namespace SqlMapper.Binary64

/-- The size of a finite number. -/
def magnitude (x : Binary64) : ℚ := x.significand * 2 ^ x.scale

/-- What a finite number stands for. -/
def value (x : Binary64) : ℚ := if x.negative then -x.magnitude else x.magnitude

variable {x : Binary64}

theorem magnitude_nonneg (x : Binary64) : 0 ≤ x.magnitude := by
  rw [magnitude]
  positivity

/-! ## Integers among the numbers -/

/-- The magnitude is a natural where the division of the magnitude leaves no rest. -/
theorem magnitude_eq_iff (x : Binary64) (k : Nat) :
    x.magnitude = k ↔ (rescaled x.significand 1 (-x.scale)).1 %
      (rescaled x.significand 1 (-x.scale)).2 = 0 ∧ x.floorMagnitude = k := by
  have positive : 0 < (rescaled x.significand 1 (-x.scale)).2 :=
    rescaled_den_pos Nat.one_pos x.significand (-x.scale)
  have quotient : x.magnitude = ((rescaled x.significand 1 (-x.scale)).1 : ℚ) /
      (rescaled x.significand 1 (-x.scale)).2 := by
    rw [rescaled_eq Nat.one_pos, zpow_neg, div_inv_eq_mul, Nat.cast_one, div_one, magnitude]
  have floor : x.floorMagnitude = (rescaled x.significand 1 (-x.scale)).1 /
      (rescaled x.significand 1 (-x.scale)).2 := rfl
  rw [quotient, floor]
  generalize (rescaled x.significand 1 (-x.scale)).1 = n
  generalize (rescaled x.significand 1 (-x.scale)).2 = d at positive
  have nonzero : (d : ℚ) ≠ 0 := by positivity
  rw [div_eq_iff nonzero]
  constructor
  · intro same
    have product : n = k * d := by exact_mod_cast same
    rw [product]
    exact ⟨Nat.mul_mod_left k d, Nat.mul_div_cancel k positive⟩
  · rintro ⟨exact, rfl⟩
    exact_mod_cast (Nat.div_mul_cancel (Nat.dvd_of_mod_eq_zero exact)).symm

theorem value_eq_iff (x : Binary64) (n : Int) :
    x.value = n ↔ ∃ k : Nat, x.magnitude = k ∧ n = if x.negative then -(k : Int) else k := by
  have nonneg := x.magnitude_nonneg
  constructor
  · intro same
    refine ⟨n.natAbs, ?_, ?_⟩
    · rw [Nat.cast_natAbs, Int.cast_abs, ← same, value]
      split
      · rw [abs_neg, abs_of_nonneg nonneg]
      · rw [abs_of_nonneg nonneg]
    · rw [value] at same
      split at same
      · have sign : n ≤ 0 := by exact_mod_cast (show (n : ℚ) ≤ 0 by linarith)
        rw [if_pos ‹_›]
        omega
      · have sign : 0 ≤ n := by exact_mod_cast (show (0 : ℚ) ≤ n by linarith)
        rw [if_neg ‹_›]
        omega
  · rintro ⟨k, same, rfl⟩
    rw [value, same]
    split <;> simp

/-- The integral numbers are the finite ones that are integers. -/
theorem isIntegral_iff :
    x.isIntegral = true ↔ x.isFinite = true ∧ ∃ n : Int, x.value = n := by
  have unfolded : x.isIntegral = true ↔ x.isFinite = true ∧
      (rescaled x.significand 1 (-x.scale)).1 % (rescaled x.significand 1 (-x.scale)).2 = 0 := by
    rw [isIntegral, Bool.and_eq_true, beq_iff_eq]
  rw [unfolded]
  refine and_congr_right fun _ => ⟨fun exact => ?_, ?_⟩
  · have whole := (x.magnitude_eq_iff x.floorMagnitude).mpr ⟨exact, rfl⟩
    exact ⟨_, (x.value_eq_iff _).mpr ⟨_, whole, rfl⟩⟩
  · rintro ⟨n, same⟩
    obtain ⟨k, whole, _⟩ := (x.value_eq_iff n).mp same
    exact ((x.magnitude_eq_iff k).mp whole).1

/-- Clamping an integral number clamps the integer that it is. -/
theorem clampToInt_eq {n : Int} (same : x.value = n) (low high : Int) :
    x.clampToInt low high = max low (min high n) := by
  obtain ⟨k, whole, rfl⟩ := (x.value_eq_iff n).mp same
  rw [clampToInt, ((x.magnitude_eq_iff k).mp whole).2]

/-! ## Words beyond the signed ones -/

/-- The fields of a pattern whose leading bit counts as one exponent more. -/
theorem value_ofNatBits {e m : Nat} (leading : 4503599627370496 ≤ m) (bits : m < 9007199254740992)
    (bound : e < 2046) :
    (ofNatBits false (e * pow2 52 + m)).isFinite = true ∧
      (ofNatBits false (e * pow2 52 + m)).value = m * 2 ^ ((e : Int) - 1074) := by
  have pattern : (ofNatBits false (e * pow2 52 + m)).bits.toNat = e * 4503599627370496 + m := by
    rw [ofNatBits, if_neg Bool.false_ne_true, pow2_52, UInt64.toNat_ofNat_of_lt']
    rw [UInt64.size]
    omega
  generalize ofNatBits false (e * pow2 52 + m) = x at pattern
  have biased : x.biased = e + 1 := by
    rw [Binary64.biased, pattern, pow2_52, show pow2 11 = 2048 from rfl]
    omega
  have fraction : x.fraction = m - 4503599627370496 := by
    rw [Binary64.fraction, pattern, pow2_52]
    omega
  have positive : x.negative = false := by
    rw [negative, pattern, decide_eq_false_iff_not, show pow2 63 = 9223372036854775808 from rfl]
    omega
  have significand : x.significand = m := by
    rw [Binary64.significand, biased, if_neg (Nat.succ_ne_zero e), fraction, pow2_52]
    omega
  have scale : x.scale = (e : Int) - 1074 := by
    rw [Binary64.scale, biased]
    omega
  constructor
  · rw [isFinite, biased]
    simpa using (by omega : e ≠ 2046)
  · rw [value, positive, if_neg Bool.false_ne_true, magnitude, significand, scale]

/-- The half-even quotient is one of the two next to the exact one. -/
theorem divHalfEven_bounds (n d : Nat) : n / d ≤ divHalfEven n d ∧ divHalfEven n d ≤ n / d + 1 := by
  simp only [divHalfEven]
  split <;> omega

/-- An unsigned word beyond the signed ones becomes an integer beyond them. -/
theorem ofInt_large {n : Int} (low : 9223372036854775808 ≤ n) (high : n < 18446744073709551616) :
    (ofInt n).isFinite = true ∧ ∃ k : Int, (ofInt n).value = k ∧ 9223372036854775808 ≤ k := by
  obtain ⟨n, rfl⟩ := Int.eq_ofNat_of_zero_le (by omega : 0 ≤ n)
  have scale : roundingScale n 1 = 11 := by
    have size : Nat.log 2 n = 63 :=
      (Nat.log_eq_iff (.inl (by decide))).mpr ⟨by omega, by omega⟩
    rw [roundingScale_eq (by omega) Nat.one_pos, Nat.cast_one, div_one, Int.log_natCast, size]
    rfl
  obtain ⟨least, most⟩ := divHalfEven_bounds n 2048
  have pattern : ofInt n = ofNatBits false (1085 * pow2 52 + divHalfEven n 2048) := by
    have positive : decide ((n : Int) < 0) = false := decide_eq_false (by omega)
    have steps : rescaled n 1 11 = (n, 2048) := rfl
    have bounded : ¬ 2047 * pow2 52 ≤ 1085 * pow2 52 + divHalfEven n 2048 := by
      rw [pow2_52]
      omega
    rw [ofInt, positive, Int.natAbs_natCast, ofRatio, if_neg (by omega), scale]
    simp only [steps]
    exact if_neg bounded
  rw [pattern]
  -- A significand that rounds up to `2 ^ 53` is that of the next power of two.
  rcases Nat.lt_or_ge (divHalfEven n 2048) 9007199254740992 with fits | carried
  · obtain ⟨finite, same⟩ := value_ofNatBits (by omega) fits (by decide : 1085 < 2046)
    refine ⟨finite, divHalfEven n 2048 * 2048, ?_, by omega⟩
    rw [same]
    norm_num
  · have twice : 1085 * pow2 52 + divHalfEven n 2048 = 1086 * pow2 52 + 4503599627370496 := by
      rw [pow2_52]
      omega
    obtain ⟨finite, same⟩ := value_ofNatBits (m := 4503599627370496) (by decide) (by decide)
      (by decide : 1086 < 2046)
    rw [twice]
    refine ⟨finite, 18446744073709551616, ?_, by decide⟩
    rw [same]
    norm_num

end SqlMapper.Binary64
