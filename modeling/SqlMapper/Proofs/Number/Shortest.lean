import SqlMapper.Number.Shortest
import SqlMapper.Proofs.Number.Rounding

/-! # Shortest decimals read back

The search for a short decimal looks at finer and finer grids. What it takes from a grid is near to
the number, and at seventeen digits, where the steps of the grid are narrower than those of the
format, there is always something to take. So the shortest decimal of a number is near to it.
-/

namespace SqlMapper

theorem pow10_pos (n : Nat) : 0 < pow10 n := Nat.pow_pos (by decide)

theorem cast_pow10 (n : Nat) : (pow10 n : ℚ) = 10 ^ n := by simp [pow10]

/-! ## The value of a decimal -/

namespace Decimal

def value (y : Decimal) : ℚ := y.digits * 10 ^ y.exponent

theorem value_stripZeros (fuel : Nat) (y : Decimal) : (stripZeros fuel y).value = y.value := by
  induction fuel generalizing y with
  | zero => rfl
  | succ fuel ih =>
    rw [stripZeros]
    split
    · next zero =>
      have tenfold : y.digits = 10 * (y.digits / 10) := by omega
      rw [ih, value, value, zpow_add_one₀ (by norm_num)]
      conv_rhs => rw [tenfold]
      push_cast
      ring
    · rfl

end Decimal

/-! ## Digits of a natural -/

theorem lt_pow_digitCount (n : Nat) : n < 10 ^ digitCount n :=
  (Nat.length_toDigits_le_iff (by decide) Nat.length_toDigits_pos).mp le_rfl

theorem pow_digitCount_le {n : Nat} (positive : 0 < n) : 10 ^ (digitCount n - 1) ≤ n := by
  rcases Nat.eq_zero_or_pos (digitCount n - 1) with none | more
  · rw [none]
    exact positive
  · by_contra less
    have short := (Nat.length_toDigits_le_iff (b := 10) (by decide) more).mpr (not_le.mp less)
    have count : (Nat.toDigits 10 n).length = digitCount n := rfl
    omega

namespace Binary64

variable {x : Binary64} {rule : HalfwayRule}

/-! ## The rounding interval -/

theorem significand_pos (nonzero : x.isZero = false) : 0 < x.significand := by
  rw [isZero, Bool.and_eq_false_iff] at nonzero
  simp only [beq_eq_false_iff_ne] at nonzero
  rw [significand, pow2_52]
  split <;> omega

/-- The denominator of the interval over its unit is four steps. -/
theorem interval_unit (x : Binary64) :
    (0 : ℚ) < (rescaled 1 1 (2 - x.scale)).1 ∧ (0 : ℚ) < (rescaled 1 1 (2 - x.scale)).2 ∧
      (2 : ℚ) ^ x.scale = 4 * (rescaled 1 1 (2 - x.scale)).1 / (rescaled 1 1 (2 - x.scale)).2 := by
  have den_pos : (0 : ℚ) < (rescaled 1 1 (2 - x.scale)).2 := by
    exact_mod_cast rescaled_den_pos Nat.one_pos 1 (2 - x.scale)
  have steps : (2 : ℚ) ^ x.scale =
      4 * (rescaled 1 1 (2 - x.scale)).1 / (rescaled 1 1 (2 - x.scale)).2 := by
    rw [mul_div_assoc, rescaled_eq Nat.one_pos, zpow_sub₀ (by norm_num)]
    norm_num
    ring
  refine ⟨?_, den_pos, steps⟩
  have step_pos : (0 : ℚ) < 2 ^ x.scale := by positivity
  rw [steps, div_pos_iff_of_pos_right den_pos] at step_pos
  linarith

/-- A bound of the interval, counted in quarters of a step, is compared by cross-multiplying. -/
theorem quarters_eq (x : Binary64) (num : Nat) {den : Nat} (positive : 0 < den) (quarters : Nat) :
    ∃ unit : ℚ, 0 < unit ∧
      ((quarters * (rescaled 1 1 (2 - x.scale)).1 * den : Nat) : ℚ) = quarters / 4 * unit ∧
      ((num * (rescaled 1 1 (2 - x.scale)).2 : Nat) : ℚ) = num / den / 2 ^ x.scale * unit := by
  obtain ⟨one_pos, den_pos, steps⟩ := x.interval_unit
  have positive' : (0 : ℚ) < den := by exact_mod_cast positive
  refine ⟨4 * (rescaled 1 1 (2 - x.scale)).1 * den, by positivity, ?_, ?_⟩
  · push_cast
    ring
  · rw [steps]
    push_cast
    field_simp

theorem quarters_le_iff (x : Binary64) {num den : Nat} (positive : 0 < den) (quarters : Nat) :
    quarters * (rescaled 1 1 (2 - x.scale)).1 * den ≤ num * (rescaled 1 1 (2 - x.scale)).2 ↔
      (quarters / 4 : ℚ) ≤ num / den / 2 ^ x.scale := by
  obtain ⟨unit, unit_pos, bound, decimal⟩ := x.quarters_eq num positive quarters
  rw [← Nat.cast_le (α := ℚ), bound, decimal, mul_le_mul_iff_left₀ unit_pos]

theorem le_quarters_iff (x : Binary64) {num den : Nat} (positive : 0 < den) (quarters : Nat) :
    num * (rescaled 1 1 (2 - x.scale)).2 ≤ quarters * (rescaled 1 1 (2 - x.scale)).1 * den ↔
      (num / den / 2 ^ x.scale : ℚ) ≤ quarters / 4 := by
  obtain ⟨unit, unit_pos, bound, decimal⟩ := x.quarters_eq num positive quarters
  rw [← Nat.cast_le (α := ℚ), bound, decimal, mul_le_mul_iff_left₀ unit_pos]

theorem quarters_lt_iff (x : Binary64) {num den : Nat} (positive : 0 < den) (quarters : Nat) :
    quarters * (rescaled 1 1 (2 - x.scale)).1 * den < num * (rescaled 1 1 (2 - x.scale)).2 ↔
      (quarters / 4 : ℚ) < num / den / 2 ^ x.scale := by
  rw [← not_le, le_quarters_iff x positive, not_le]

theorem lt_quarters_iff (x : Binary64) {num den : Nat} (positive : 0 < den) (quarters : Nat) :
    num * (rescaled 1 1 (2 - x.scale)).2 < quarters * (rescaled 1 1 (2 - x.scale)).1 * den ↔
      (num / den / 2 ^ x.scale : ℚ) < quarters / 4 := by
  rw [← not_le, quarters_le_iff x positive, not_le]

theorem low_eq (nonzero : x.isZero = false) :
    ((4 * x.significand - (if x.fraction = 0 ∧ 1 < x.biased then 1 else 2) : Nat) : ℚ) / 4 =
      x.significand - x.reachBelow := by
  have positive := significand_pos nonzero
  rw [reachBelow]
  split
  · rw [Nat.cast_sub (by omega)]
    push_cast
    ring
  · rw [Nat.cast_sub (by omega)]
    push_cast
    ring

theorem high_eq (x : Binary64) :
    ((4 * x.significand + 2 : Nat) : ℚ) / 4 = x.significand + 1 / 2 := by
  push_cast
  ring

/-- The decimals of the interval are the ones near to the number. -/
theorem contains_roundingInterval (nonzero : x.isZero = false) {num den : Nat}
    (positive : 0 < den) :
    x.roundingInterval.contains num den = true ↔ x.IsNear (num / den) := by
  by_cases even : x.significand % 2 = 0
  · have closed : (x.significand % 2 == 0) = true := by simp [even]
    simp only [RoundingInterval.contains, roundingInterval, closed, if_true, decide_eq_true_eq,
      quarters_le_iff x positive, le_quarters_iff x positive, low_eq nonzero, high_eq]
    exact ⟨fun ⟨low, high⟩ => ⟨low, high, by omega⟩, fun near => ⟨near.low, near.high⟩⟩
  · have opened : (x.significand % 2 == 0) = false := by simp [even]
    simp only [RoundingInterval.contains, roundingInterval, opened, Bool.false_eq_true, if_false,
      decide_eq_true_eq, quarters_lt_iff x positive, lt_quarters_iff x positive, low_eq nonzero,
      high_eq]
    exact ⟨fun ⟨low, high⟩ => ⟨low.le, high.le, fun _ => ⟨low, high⟩⟩,
      fun near => near.odd (by omega)⟩

theorem value_roundingInterval (x : Binary64) :
    (x.roundingInterval.value : ℚ) / x.roundingInterval.den = x.significand * 2 ^ x.scale := by
  obtain ⟨_, _, steps⟩ := x.interval_unit
  rw [steps]
  simp only [roundingInterval]
  push_cast
  ring

theorem den_roundingInterval_pos (x : Binary64) : 0 < x.roundingInterval.den :=
  rescaled_den_pos Nat.one_pos 1 (2 - x.scale)

/-! ## Grids -/

namespace RoundingInterval

/-- Two naturals whose quotient is the step of a grid, the divisor first. -/
def gridUnits (e : Int) : Nat × Nat :=
  if 0 ≤ e then (1, pow10 e.toNat) else (pow10 (-e).toNat, 1)

theorem gridUnits_pos (e : Int) : 0 < (gridUnits e).1 ∧ 0 < (gridUnits e).2 := by
  rw [gridUnits]
  split
  · exact ⟨Nat.one_pos, pow10_pos _⟩
  · exact ⟨pow10_pos _, Nat.one_pos⟩

theorem gridUnits_eq (e : Int) : ((gridUnits e).2 : ℚ) / (gridUnits e).1 = 10 ^ e := by
  rw [gridUnits]
  split
  · next up =>
    obtain ⟨k, rfl⟩ := Int.eq_ofNat_of_zero_le up
    simp [cast_pow10]
  · next down =>
    obtain ⟨k, rfl⟩ := Int.exists_eq_neg_ofNat (le_of_not_ge down)
    simp [cast_pow10]

/-- The largest multiple of the step that does not exceed the number. -/
def gridFloor (r : RoundingInterval) (e : Int) : Nat :=
  r.value * (gridUnits e).1 / (r.den * (gridUnits e).2)

/-- Whether a multiple of the step reads back. -/
def hasMultiple (r : RoundingInterval) (e : Int) (k : Nat) : Bool :=
  r.contains (k * (gridUnits e).2) (gridUnits e).1

/-- A grid is asked for the neighbours of the number; where both read back, one is chosen. -/
theorem onGrid?_eq (rule : HalfwayRule) (r : RoundingInterval) (e : Int) :
    ∃ upward : Bool, r.onGrid? rule e =
      if r.hasMultiple e (r.gridFloor e) && r.hasMultiple e (r.gridFloor e + 1) then
        some ⟨if upward then r.gridFloor e + 1 else r.gridFloor e, e⟩
      else if r.hasMultiple e (r.gridFloor e) then some ⟨r.gridFloor e, e⟩
      else if r.hasMultiple e (r.gridFloor e + 1) then some ⟨r.gridFloor e + 1, e⟩
      else none := ⟨_, rfl⟩

/-- What is taken from a grid reads back. -/
theorem onGrid?_eq_some {rule : HalfwayRule} {r : RoundingInterval} {e : Int} {y : Decimal}
    (found : r.onGrid? rule e = some y) : y.exponent = e ∧ r.hasMultiple e y.digits = true := by
  obtain ⟨upward, same⟩ := onGrid?_eq rule r e
  rw [same] at found
  split at found
  · next both =>
    rw [Bool.and_eq_true] at both
    cases found
    cases upward
    · exact ⟨rfl, both.1⟩
    · exact ⟨rfl, both.2⟩
  · split at found
    · next below =>
      cases found
      exact ⟨rfl, below⟩
    · split at found
      · next above =>
        cases found
        exact ⟨rfl, above⟩
      · cases found

/-- Something is taken from a grid on which a neighbour reads back. -/
theorem onGrid?_isSome (rule : HalfwayRule) {r : RoundingInterval} {e : Int}
    (neighbour : r.hasMultiple e (r.gridFloor e) = true ∨
      r.hasMultiple e (r.gridFloor e + 1) = true) : (r.onGrid? rule e).isSome = true := by
  obtain ⟨upward, same⟩ := onGrid?_eq rule r e
  rw [same]
  rcases neighbour with below | above
  · cases above : r.hasMultiple e (r.gridFloor e + 1) <;> simp [below]
  · cases below : r.hasMultiple e (r.gridFloor e) <;> simp [above]

/-- A grid that gives a decimal is reached if there are enough tries. -/
theorem search_reaches {rule : HalfwayRule} {r : RoundingInterval} {tries steps : Nat} {e : Int}
    (enough : steps < tries) (given : (r.onGrid? rule (e - steps)).isSome = true) :
    ∃ e', r.onGrid? rule e' = some (r.search rule tries e) := by
  induction tries generalizing e steps with
  | zero => exact absurd enough (Nat.not_lt_zero _)
  | succ tries ih =>
    rw [search]
    cases first : r.onGrid? rule e with
    | some y => exact ⟨e, first⟩
    | none =>
      cases steps with
      | zero =>
        rw [Nat.cast_zero, sub_zero, first] at given
        cases given
      | succ steps =>
        refine ih (Nat.lt_of_succ_lt_succ enough) ?_
        rwa [Nat.cast_succ, add_comm, ← sub_sub] at given

/-- The leading digit of the number is not above it. -/
theorem leadingExponent_le {r : RoundingInterval} (value_pos : 0 < r.value) (den_pos : 0 < r.den) :
    (10 : ℚ) ^ r.leadingExponent ≤ r.value / r.den := by
  have den_pos' : (0 : ℚ) < r.den := by exact_mod_cast den_pos
  rw [leadingExponent, le_div_iff₀ den_pos']
  split
  · next whole =>
    have low := pow_digitCount_le (Nat.div_pos whole den_pos)
    have exponent : ((digitCount (r.value / r.den) : Int) - 1) =
        ((digitCount (r.value / r.den) - 1 : Nat) : Int) := by
      have some_digit : 0 < digitCount (r.value / r.den) := Nat.length_toDigits_pos
      omega
    rw [exponent, zpow_natCast]
    exact_mod_cast (Nat.le_div_iff_mul_le den_pos).mp low
  · next part =>
    have high := lt_pow_digitCount ((r.den - 1) / r.value)
    rw [Nat.div_lt_iff_lt_mul value_pos] at high
    rw [zpow_neg, zpow_natCast, inv_mul_le_iff₀ (by positivity)]
    exact_mod_cast (by omega : r.den ≤ 10 ^ digitCount ((r.den - 1) / r.value) * r.value)

end RoundingInterval

/-! ## The shortest decimal -/

/-- The multiples of a step that read back are the ones near to the number. -/
theorem hasMultiple_iff (nonzero : x.isZero = false) (e : Int) (k : Nat) :
    x.roundingInterval.hasMultiple e k = true ↔ x.IsNear (k * 10 ^ e) := by
  rw [RoundingInterval.hasMultiple,
    contains_roundingInterval nonzero (RoundingInterval.gridUnits_pos e).1, Nat.cast_mul,
    mul_div_assoc, RoundingInterval.gridUnits_eq]

/-- The number lies between its neighbours on a grid. -/
theorem gridFloor_bounds (x : Binary64) (e : Int) :
    (x.roundingInterval.gridFloor e * 10 ^ e : ℚ) ≤ x.significand * 2 ^ x.scale ∧
      (x.significand * 2 ^ x.scale : ℚ) < (x.roundingInterval.gridFloor e + 1) * 10 ^ e := by
  obtain ⟨one_pos, unit_pos⟩ := RoundingInterval.gridUnits_pos e
  have step_pos : (0 : ℚ) < 10 ^ e := by positivity
  have den_pos := Nat.mul_pos x.den_roundingInterval_pos unit_pos
  have den_pos' : (0 : ℚ) < x.roundingInterval.den * (RoundingInterval.gridUnits e).2 := by
    exact_mod_cast den_pos
  have quotient : (x.roundingInterval.value * (RoundingInterval.gridUnits e).1 : ℚ) /
      (x.roundingInterval.den * (RoundingInterval.gridUnits e).2) =
        x.significand * 2 ^ x.scale / 10 ^ e := by
    rw [← x.value_roundingInterval, ← RoundingInterval.gridUnits_eq, mul_div_mul_comm,
      div_eq_mul_inv _ ((RoundingInterval.gridUnits e).2 / (RoundingInterval.gridUnits e).1 : ℚ),
      inv_div]
  have low := Nat.div_mul_le_self
    (x.roundingInterval.value * (RoundingInterval.gridUnits e).1)
    (x.roundingInterval.den * (RoundingInterval.gridUnits e).2)
  have high := Nat.lt_div_mul_add (a := x.roundingInterval.value * (RoundingInterval.gridUnits e).1)
    den_pos
  rw [← RoundingInterval.gridFloor, ← Nat.cast_le (α := ℚ)] at low
  rw [← RoundingInterval.gridFloor, ← Nat.succ_mul, ← Nat.cast_lt (α := ℚ)] at high
  push_cast at low high
  rw [← le_div_iff₀ step_pos, ← div_lt_iff₀ step_pos, ← quotient, le_div_iff₀ den_pos',
    div_lt_iff₀ den_pos']
  exact ⟨low, high⟩

/-- Strictly between its bounds every quotient is near. -/
theorem IsNear.of_lt {r : ℚ} (low : x.significand - x.reachBelow < r / 2 ^ x.scale)
    (high : r / 2 ^ x.scale < x.significand + 1 / 2) : x.IsNear r :=
  ⟨low.le, high.le, fun _ => ⟨low, high⟩⟩

/-- On a grid of seventeen digits a neighbour is near. -/
theorem near_of_narrow {e : Int} (narrow : (10 : ℚ) ^ (e + 16) ≤ x.significand * 2 ^ x.scale) :
    x.IsNear (x.roundingInterval.gridFloor e * 10 ^ e) ∨
      x.IsNear ((x.roundingInterval.gridFloor e + 1 : Nat) * 10 ^ e) := by
  obtain ⟨below, above⟩ := x.gridFloor_bounds e
  generalize x.roundingInterval.gridFloor e = floor at below above ⊢
  have unit : (0 : ℚ) < 2 ^ x.scale := by positivity
  have bits : (x.significand : ℚ) < 9007199254740992 := by exact_mod_cast x.significand_lt
  rw [zpow_add₀ (by norm_num), ← div_le_iff₀ unit, mul_div_right_comm] at narrow
  rw [← div_le_iff₀ unit, mul_div_assoc] at below
  rw [← lt_div_iff₀ unit, mul_div_assoc] at above
  have near (k : Nat) (low : x.significand - x.reachBelow < k * (10 ^ e / 2 ^ x.scale))
      (high : (k * (10 ^ e / 2 ^ x.scale) : ℚ) < x.significand + 1 / 2) :
      x.IsNear (k * 10 ^ e) :=
    .of_lt (by rwa [mul_div_assoc]) (by rwa [mul_div_assoc])
  generalize (10 ^ e / 2 ^ x.scale : ℚ) = step at narrow below above near
  norm_num at narrow
  by_cases power : x.fraction = 0 ∧ 1 < x.biased
  · have reach : x.reachBelow = 1 / 4 := if_pos power
    have least : (x.significand : ℚ) = 4503599627370496 := by
      rw [significand, if_neg (by omega), power.1, pow2_52]
      norm_num
    refine .inr (near _ ?_ ?_)
    · push_cast
      linarith
    · push_cast
      linarith
  · have reach : x.reachBelow = 1 / 2 := if_neg power
    rcases lt_or_ge (x.significand - 1 / 2 : ℚ) (floor * step) with close | far
    · exact .inl (near _ (by linarith) (by linarith))
    · refine .inr (near _ ?_ ?_)
      · push_cast
        linarith
      · push_cast
        linarith

/-- The shortest decimal of a number is near to it. -/
theorem near_shortest (nonzero : x.isZero = false) (rule : HalfwayRule) :
    x.IsNear (x.shortest rule).value := by
  have value_pos : 0 < x.roundingInterval.value := by
    have one_pos : 0 < (rescaled 1 1 (2 - x.scale)).1 := by
      exact_mod_cast x.interval_unit.1
    exact Nat.mul_pos (Nat.mul_pos (by decide) (significand_pos nonzero)) one_pos
  have lead := RoundingInterval.leadingExponent_le value_pos x.den_roundingInterval_pos
  rw [x.value_roundingInterval] at lead
  have narrow := near_of_narrow (x := x) (e := x.roundingInterval.leadingExponent - (16 : Nat))
    (by rwa [Nat.cast_ofNat, sub_add_cancel])
  simp only [← hasMultiple_iff nonzero] at narrow
  obtain ⟨e, found⟩ := RoundingInterval.search_reaches (by decide : 16 < 17)
    (RoundingInterval.onGrid?_isSome rule narrow)
  obtain ⟨exponent, reads⟩ := RoundingInterval.onGrid?_eq_some found
  rw [shortest, Decimal.value_stripZeros, Decimal.value, exponent]
  exact (hasMultiple_iff nonzero e _).mp reads

end Binary64

end SqlMapper
