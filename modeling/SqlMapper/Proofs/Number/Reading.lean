import SqlMapper.Proofs.Number.Shortest
import SqlMapper.Proofs.Text.Digits

/-! # Written numbers are read back

The text of a finite number is its sign and its shortest decimal. A reader takes the digits without
the point for a natural and rounds it at the power of ten that the point says. What it rounds is the
shortest decimal, which is near to the number, so it gets back every bit.
-/

namespace SqlMapper

namespace Text

variable {digits : List Char}

/-! ## Sizes -/

theorem digitsValue_toDigits (n : Nat) : digitsValue (Nat.toDigits 10 n) = n :=
  Nat.ofDigitChars_ten_toDigits

theorem digitsValue_append_zeros (digits : List Char) (count : Nat) :
    digitsValue (digits ++ zeros count) = digitsValue digits * 10 ^ count := by
  induction count with
  | zero => simp [zeros]
  | succ count ih =>
    rw [zeros, List.replicate_succ', ← List.append_assoc, digitsValue_concat, ← zeros, ih]
    have zero : digitValue '0' = 0 := rfl
    rw [zero, pow_succ]
    ring

theorem digitValue_lt {c : Char} (digit : c.isDigit = true) : digitValue c < 10 := by
  have bounds : isDigit c = true := digit
  simp only [isDigit, Bool.and_eq_true, decide_eq_true_eq] at bounds
  rw [digitValue]
  omega

theorem digitsValue_lt (all : AllDigits digits) : digitsValue digits < 10 ^ digits.length := by
  induction digits using List.reverseRecOn with
  | nil => decide
  | append_singleton digits c ih =>
    have front := ih (all.subset (List.subset_append_left ..))
    have last := digitValue_lt (all c (by simp))
    rw [digitsValue_concat, List.length_append, List.length_singleton, pow_succ]
    omega

/-- Without leading zeros a row of digits is at least the power of ten of its first one. -/
theorem le_digitsValue {c : Char} (digit : c.isDigit = true) (nonzero : c ≠ '0')
    (digits : List Char) : 10 ^ digits.length ≤ digitsValue (c :: digits) := by
  induction digits using List.reverseRecOn with
  | nil =>
    have bounds : isDigit c = true := digit
    simp only [isDigit, Bool.and_eq_true, decide_eq_true_eq] at bounds
    have other : c.toNat ≠ 48 := fun same => nonzero (Char.toNat_inj.mp same)
    simp only [digitsValue, List.foldl_cons, List.foldl_nil, digitValue, List.length_nil]
    omega
  | append_singleton digits last ih =>
    rw [← List.cons_append, digitsValue_concat, List.length_append, List.length_singleton, pow_succ]
    omega

theorem digitsValue_dropZeros (digits : List Char) :
    digitsValue (digits.dropWhile (· == '0')) = digitsValue digits := by
  induction digits with
  | nil => rfl
  | cons c digits ih =>
    by_cases zero : c = '0'
    · subst zero
      rw [List.dropWhile_cons_of_pos rfl, ih]
      exact (digitsValue_zeros 1 digits).symm
    · rw [List.dropWhile_cons_of_neg (by simpa using zero)]

end Text

namespace Binary64

variable {x : Binary64}

open Text

/-! ## Rounding a row of digits -/

/-- The powers of two that bound the format, by powers of ten. -/
theorem two_pow_lt : (2 : ℚ) ^ 1075 < 10 ^ 400 := by
  have natural : 2 ^ 1075 < 10 ^ 400 := by decide +kernel
  exact_mod_cast natural

/-- What is near to a finite number is far from what the format cannot hold. -/
theorem IsNear.lt {r : ℚ} (near : x.IsNear r) (finite : x.isFinite = true) : r < 10 ^ 400 := by
  have bits : (x.significand : ℚ) + 1 ≤ 2 ^ 53 := by exact_mod_cast x.significand_lt
  have exponent : x.scale ≤ (971 : Nat) := by
    have bound := biased_lt finite
    rw [scale]
    omega
  have step : (2 : ℚ) ^ x.scale ≤ 2 ^ 971 := by
    rw [← zpow_natCast]
    exact zpow_le_zpow_right₀ (by norm_num) exponent
  have high := near.high
  rw [div_le_iff₀ (by positivity)] at high
  calc r ≤ (x.significand + 1 / 2) * 2 ^ x.scale := high
    _ ≤ 2 ^ 53 * 2 ^ 971 := by
      gcongr
      linarith
    _ = 2 ^ 1024 := (pow_add ..).symm
    _ ≤ 2 ^ 1075 := pow_le_pow_right₀ (by norm_num) (by norm_num)
    _ < 10 ^ 400 := two_pow_lt

/-- What is near to a number other than zero is far from zero. -/
theorem IsNear.gt {r : ℚ} (near : x.IsNear r) (nonzero : x.isZero = false) : (10 ^ 400)⁻¹ < r := by
  have bits : (1 : ℚ) ≤ x.significand := by exact_mod_cast significand_pos nonzero
  have step : ((2 : ℚ) ^ 1074)⁻¹ ≤ 2 ^ x.scale := by
    rw [← zpow_natCast, ← zpow_neg]
    exact zpow_le_zpow_right₀ (by norm_num) x.scale_ge
  have half : (1 / 2 : ℚ) ≤ x.significand - x.reachBelow := by linarith [x.reachBelow_le]
  have low := near.low
  rw [le_div_iff₀ (by positivity)] at low
  calc ((10 : ℚ) ^ 400)⁻¹ < (2 ^ 1075)⁻¹ := by
        gcongr
        exact two_pow_lt
    _ = 1 / 2 * (2 ^ 1074)⁻¹ := by rw [pow_succ, mul_inv, one_div, mul_comm]
    _ ≤ (x.significand - x.reachBelow) * 2 ^ x.scale := by gcongr
    _ ≤ r := low

/-- The nearest number to a natural at a power of ten. -/
theorem ofDecimal_eq (finite : x.isFinite = true) {n : Nat} {e : Int} (positive : 0 < n)
    (near : x.IsNear (n * 10 ^ e)) : ofDecimal x.negative n e = x := by
  rw [ofDecimal]
  split
  · next up =>
    obtain ⟨k, rfl⟩ := Int.eq_ofNat_of_zero_le up
    refine IsNear.ofRatio_eq ?_ finite (Nat.mul_pos positive (pow10_pos _)) Nat.one_pos
    simpa [cast_pow10] using near
  · next down =>
    obtain ⟨k, rfl⟩ := Int.exists_eq_neg_ofNat (le_of_not_ge down)
    refine IsNear.ofRatio_eq ?_ finite positive (pow10_pos _)
    simpa [cast_pow10, div_eq_mul_inv] using near

/-- The digits of a decimal and its exponent tell its size. -/
theorem size_bounds {c : Char} {digits : List Char} (nonzero : c ≠ '0')
    (all : AllDigits (c :: digits)) {e : Int}
    (low : ((10 : ℚ) ^ 400)⁻¹ < digitsValue (c :: digits) * 10 ^ e)
    (high : (digitsValue (c :: digits) * 10 ^ e : ℚ) < 10 ^ 400) :
    -400 ≤ ((c :: digits).length : Int) + e ∧ ((c :: digits).length : Int) + e ≤ 400 := by
  have least : (10 : ℚ) ^ (digits.length : Int) ≤ digitsValue (c :: digits) := by
    rw [zpow_natCast]
    exact_mod_cast le_digitsValue (all c List.mem_cons_self) nonzero digits
  have most : (digitsValue (c :: digits) : ℚ) < 10 ^ ((c :: digits).length : Int) := by
    rw [zpow_natCast]
    exact_mod_cast digitsValue_lt all
  constructor
  · have above : (10 : ℚ) ^ (-(400 : Nat) : Int) < 10 ^ (((c :: digits).length : Int) + e) := by
      rw [zpow_neg, zpow_natCast, zpow_add₀ (by norm_num)]
      exact low.trans (by gcongr)
    exact ((zpow_lt_zpow_iff_right₀ (by norm_num)).mp above).le
  · have below : (10 : ℚ) ^ ((digits.length : Int) + e) < 10 ^ ((400 : Nat) : Int) := by
      rw [zpow_natCast, zpow_add₀ (by norm_num)]
      exact lt_of_le_of_lt (by gcongr) high
    have exponent := (zpow_lt_zpow_iff_right₀ (by norm_num)).mp below
    rw [List.length_cons]
    omega

/-- Digits whose value is near to a number at a power of ten are rounded to it. -/
theorem roundDecimal_eq (finite : x.isFinite = true) (nonzero : x.isZero = false)
    {digits : List Char} (all : AllDigits digits) {e : Int}
    (near : x.IsNear (digitsValue digits * 10 ^ e)) :
    roundDecimal x.negative digits e = x := by
  have low := near.gt nonzero
  rw [← digitsValue_dropZeros] at near low
  have all' := all.subset (List.dropWhile_suffix (· == '0')).subset
  have head : ∀ c ∈ (digits.dropWhile (· == '0')).head?, c ≠ '0' := fun c first => by
    have kept := List.head?_dropWhile_not (· == '0') digits
    rw [first] at kept
    simpa using kept
  rw [roundDecimal]
  generalize digits.dropWhile (· == '0') = significant at *
  have positive : 0 < digitsValue significant := by
    by_contra none
    rw [Nat.eq_zero_of_not_pos none, Nat.cast_zero, zero_mul] at low
    exact absurd low (not_lt.mpr (by positivity))
  cases significant with
  | nil => exact absurd positive (Nat.lt_irrefl 0)
  | cons c significant =>
    obtain ⟨least, most⟩ := size_bounds (head c rfl) all' low (near.lt finite)
    rw [if_neg (List.cons_ne_nil _ _), if_neg (not_lt.mpr most), if_neg (not_lt.mpr least)]
    exact ofDecimal_eq finite positive near

end Binary64

namespace Text

/-! ## The text of a number -/

theorem spanDigits_all {digits : List Char} (all : AllDigits digits) :
    spanDigits digits = (digits, []) := by
  have read : spanDigits (digits ++ []) = (digits, []) := spanDigits_append all nofun
  rwa [List.append_nil] at read

/-- A numeral without a sign and an exponent is rounded at the power of ten of its last digit. -/
theorem unsignedReal?_digits {whole fraction : List Char} (nonempty : whole ≠ [])
    (digits : AllDigits (whole ++ fraction)) (negative : Bool) :
    unsignedReal? negative (whole ++ pointed fraction) =
      some (roundDecimal negative (whole ++ fraction) (-fraction.length)) := by
  have front := digits.subset (List.subset_append_left ..)
  have back := digits.subset (List.subset_append_right ..)
  by_cases none : fraction = []
  · rw [none, pointed, if_pos rfl, List.append_nil, unsignedReal?, spanDigits_all front]
    simp [nonempty, exponentPart?]
  · have point : ∀ c ∈ ('.' :: fraction).head?, c.isDigit = false := fun c first =>
      Option.some_inj.mp first ▸ rfl
    rw [pointed, if_neg none, unsignedReal?, spanDigits_append front point]
    simp [nonempty, spanDigits_all back, exponentPart?]

theorem toLower_digit {c : Char} (digit : c.isDigit = true) : c.toLower = c := by
  have bounds : isDigit c = true := digit
  simp only [isDigit, Bool.and_eq_true, decide_eq_true_eq] at bounds
  have lower : ¬ (c.val ≥ 'A'.val ∧ c.val ≤ 'Z'.val) := by
    rintro ⟨upper, _⟩
    have letter : 65 ≤ c.toNat := upper
    omega
  exact dif_neg lower

/-- Digits begin no word, and they have no sign. -/
theorem real?_digits {c : Char} (digit : c.isDigit = true) (rest : List Char) :
    real? (c :: rest) = unsignedReal? false (c :: rest) ∧
      real? ('-' :: c :: rest) = unsignedReal? true (c :: rest) := by
  have minus : c ≠ '-' := ne_of_isDigit digit (by decide)
  have plus : c ≠ '+' := ne_of_isDigit digit (by decide)
  have noWord (first : Char) (word : List Char) (letter : first.isDigit = false) :
      String.ofList ((c :: rest).map Char.toLower) ≠ String.ofList (first :: word) := by
    intro same
    rw [String.ofList_inj, List.map_cons, List.cons.injEq, toLower_digit digit] at same
    exact ne_of_isDigit digit letter same.1
  have inf := noWord 'i' ['n', 'f'] rfl
  have infinity := noWord 'i' ['n', 'f', 'i', 'n', 'i', 't', 'y'] rfl
  have nan := noWord 'n' ['a', 'n'] rfl
  constructor
  · rw [real?, if_neg (not_or.mpr ⟨inf, infinity⟩), if_neg nan]
    · exact fun _ same => minus (List.cons.inj same).1
    · exact fun _ same => plus (List.cons.inj same).1
  · simp only [real?]
    rw [if_neg (not_or.mpr ⟨inf, infinity⟩), if_neg nan]

end Text

open Text

/-- Leading zeros do not count, and the zeros behind the digits make up for the exponent. -/
theorem Decimal.value_padded (y : Decimal) (leading : Nat) :
    (digitsValue (zeros leading ++ (Nat.toDigits 10 y.digits ++ zeros y.exponent.toNat)) *
      10 ^ (-((-y.exponent).toNat : Int)) : ℚ) = y.value := by
  have exponent : (y.exponent.toNat : Int) + -((-y.exponent).toNat : Int) = y.exponent := by omega
  rw [zeros, digitsValue_zeros, digitsValue_append_zeros, digitsValue_toDigits, Nat.cast_mul,
    Nat.cast_pow, Nat.cast_ofNat, ← zpow_natCast, mul_assoc, ← zpow_add₀ (by norm_num), exponent,
    Decimal.value]

namespace Binary64

theorem eq_zero {x : Binary64} (zero : x.isZero = true) : x = Binary64.zero x.negative := by
  have pattern := x.ofNatBits_fields
  simp only [isZero, Bool.and_eq_true, beq_iff_eq] at zero
  rw [scale, significand, zero.1, if_pos rfl, zero.2] at pattern
  exact pattern.symm

/-- The text of a finite number is read back as it, the sign of zero included. -/
theorem real?_plainText {x : Binary64} (finite : x.isFinite = true) :
    real? x.plainText.toList = some x := by
  obtain ⟨whole, fraction, written, nonempty, digits, rounded⟩ :
      ∃ whole fraction, (if x.isZero then ['0'] else (x.shortest .up).positional) =
        whole ++ pointed fraction ∧ whole ≠ [] ∧ AllDigits (whole ++ fraction) ∧
        roundDecimal x.negative (whole ++ fraction) (-fraction.length) = x := by
    cases zero : x.isZero with
    | true =>
      have same : roundDecimal x.negative ['0'] 0 = Binary64.zero x.negative := rfl
      exact ⟨['0'], [], rfl, by simp, by simp [AllDigits], same.trans (eq_zero zero).symm⟩
    | false =>
      obtain ⟨whole, fraction, leading, written, nonempty, padded, places⟩ :=
        (x.shortest .up).positional_parts
      have digits : AllDigits (whole ++ fraction) := padded ▸ Decimal.allDigits_padded _ _ _
      refine ⟨whole, fraction, written, nonempty, digits, roundDecimal_eq finite zero digits ?_⟩
      rw [padded, places, Decimal.value_padded]
      exact near_shortest zero .up
  obtain ⟨c, whole, rfl⟩ := List.exists_cons_of_ne_nil nonempty
  have read := real?_digits (digits c List.mem_cons_self) (whole ++ pointed fraction)
  rw [← List.cons_append, unsignedReal?_digits nonempty digits,
    unsignedReal?_digits nonempty digits] at read
  rw [plainText_parts finite, written, signed]
  cases sign : x.negative with
  | true => rw [if_pos rfl, read.2, ← sign, rounded]
  | false => rw [if_neg Bool.false_ne_true, read.1, ← sign, rounded]

end Binary64

end SqlMapper
