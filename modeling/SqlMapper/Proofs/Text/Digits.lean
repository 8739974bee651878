import SqlMapper.Proofs.Lexis.Numeral
import SqlMapper.Text.Real
import SqlMapper.Text.Word

/-! # Digits read back

What is written for a natural, an integer or a word is read as it. Leading zeros do not matter, so
neither does padding. A row of digits is read to its end if no digit follows. An integer is read
from nothing but a row of digits with an optional sign, and a word from nothing but its integer.
-/

namespace SqlMapper

namespace Text

/-! ## The value of digits -/

theorem digitValue_digitChar (n : Nat) : digitValue (digitChar n) = n % 10 := by
  have small : ∀ k < 10, digitValue (Char.ofNat (48 + k)) = k := by decide
  exact small (n % 10) (Nat.mod_lt _ (by decide))

theorem digitsValue_concat (digits : List Char) (c : Char) :
    digitsValue (digits ++ [c]) = 10 * digitsValue digits + digitValue c := by
  simp [digitsValue]

theorem digitsValue_natDigits (n : Nat) : digitsValue (natDigits n) = n := by
  induction n using natDigits.induct with
  | case1 n small =>
    rw [natDigits, if_pos small]
    have value := digitsValue_concat [] (digitChar n)
    rw [digitValue_digitChar, Nat.mod_eq_of_lt small] at value
    simpa [digitsValue] using value
  | case2 n large ih =>
    rw [natDigits, if_neg large, digitsValue_concat, ih, digitValue_digitChar]
    omega

theorem digitsValue_zeros (count : Nat) (digits : List Char) :
    digitsValue (List.replicate count '0' ++ digits) = digitsValue digits := by
  induction count with
  | zero => rfl
  | succ count ih =>
    rw [List.replicate_succ, List.cons_append, ← ih]
    rfl

theorem length_natDigits_le {n width : Nat} (positive : 0 < width) (small : n < 10 ^ width) :
    (natDigits n).length ≤ width := by
  induction width generalizing n with
  | zero => exact absurd positive (Nat.lt_irrefl 0)
  | succ width ih =>
    rw [natDigits]
    split
    · simp
    · rw [List.length_append, List.length_singleton]
      refine Nat.add_le_add_right (ih ?_ ?_) 1
      · rcases Nat.eq_zero_or_pos width with rfl | positive
        · omega
        · exact positive
      · rw [Nat.pow_succ] at small
        omega

/-! ## Padded digits -/

theorem digitsValue_paddedDigits (width n : Nat) : digitsValue (paddedDigits width n) = n := by
  rw [paddedDigits, digitsValue_zeros, digitsValue_natDigits]

theorem allDigits_paddedDigits (width n : Nat) : AllDigits (paddedDigits width n) := by
  refine AllDigits.append (fun c member => ?_) (allDigits_natDigits n)
  rw [List.eq_of_mem_replicate member]
  decide

theorem length_paddedDigits {width n : Nat} (positive : 0 < width) (small : n < 10 ^ width) :
    (paddedDigits width n).length = width := by
  have bound := length_natDigits_le positive small
  rw [paddedDigits, List.length_append, List.length_replicate]
  omega

theorem paddedDigits_ne_nil (width n : Nat) : paddedDigits width n ≠ [] := by
  simp [paddedDigits, natDigits_ne_nil]

/-! ## Reading digits -/

/-- A digit is no sign and no mark. -/
theorem ne_of_isDigit {c d : Char} (digit : c.isDigit = true) (other : d.isDigit = false) :
    c ≠ d := by
  rintro rfl
  rw [digit] at other
  cases other

/-- Digits are read until something else comes. -/
theorem spanDigits_append {digits rest : List Char} (all : AllDigits digits)
    (ends : ∀ c ∈ rest.head?, c.isDigit = false) : spanDigits (digits ++ rest) = (digits, rest) := by
  induction digits with
  | nil =>
    cases rest with
    | nil => rfl
    | cons c rest =>
      have other : isDigit c = false := ends c rfl
      simp [spanDigits, other]
  | cons c digits ih =>
    have digit : isDigit c = true := all c List.mem_cons_self
    have tail := ih fun other member => all other (List.mem_cons_of_mem _ member)
    simp only [spanDigits, Prod.mk.injEq] at tail
    simp [spanDigits, digit, tail.1, tail.2]

/-- A row of digits is read as what it stands for in decimal. -/
theorem digits?_eq_some_iff {cs : List Char} {n : Nat} :
    digits? cs = some n ↔ (cs ≠ [] ∧ AllDigits cs) ∧ n = Nat.ofDigitChars 10 cs 0 := by
  have all : cs.all isDigit = true ↔ AllDigits cs := List.all_eq_true
  rw [digits?, Option.ite_none_right_eq_some, all, Option.some.injEq, eq_comm (b := n)]
  rfl

theorem digits?_eq_some {digits : List Char} (nonempty : digits ≠ []) (all : AllDigits digits) :
    digits? digits = some (digitsValue digits) :=
  digits?_eq_some_iff.mpr ⟨⟨nonempty, all⟩, rfl⟩

theorem digits?_natDigits (n : Nat) : digits? (natDigits n) = some n := by
  rw [digits?_eq_some (natDigits_ne_nil n) (allDigits_natDigits n), digitsValue_natDigits]

/-- A row of digits spells a natural, with a plus before it or not. -/
inductive SpellsNat : List Char → Nat → Prop
  | digits {cs} (nonempty : cs ≠ []) (all : AllDigits cs) :
      SpellsNat cs (Nat.ofDigitChars 10 cs 0)
  | plus {cs} (nonempty : cs ≠ []) (all : AllDigits cs) :
      SpellsNat ('+' :: cs) (Nat.ofDigitChars 10 cs 0)

/-- A natural is read exactly if it is spelled. -/
theorem nat?_eq_some_iff {cs : List Char} {n : Nat} : nat? cs = some n ↔ SpellsNat cs n := by
  constructor
  · intro read
    rw [nat?.eq_def] at read
    split at read
    · obtain ⟨⟨nonempty, all⟩, rfl⟩ := digits?_eq_some_iff.mp read
      exact .plus nonempty all
    · obtain ⟨⟨nonempty, all⟩, rfl⟩ := digits?_eq_some_iff.mp read
      exact .digits nonempty all
  · intro spelled
    cases spelled with
    | plus nonempty all => exact digits?_eq_some_iff.mpr ⟨⟨nonempty, all⟩, rfl⟩
    | digits nonempty all =>
      rw [nat?.eq_def]
      split
      · exact absurd rfl (ne_of_isDigit (all '+' List.mem_cons_self) rfl)
      · exact digits?_eq_some_iff.mpr ⟨⟨nonempty, all⟩, rfl⟩

/-! ## Reading integers -/

/-- A row of digits spells an integer, with a sign before it or not. -/
inductive Spells : List Char → Int → Prop
  | digits {cs} (nonempty : cs ≠ []) (all : AllDigits cs) : Spells cs (Nat.ofDigitChars 10 cs 0)
  | plus {cs} (nonempty : cs ≠ []) (all : AllDigits cs) :
      Spells ('+' :: cs) (Nat.ofDigitChars 10 cs 0)
  | minus {cs} (nonempty : cs ≠ []) (all : AllDigits cs) :
      Spells ('-' :: cs) (-(Nat.ofDigitChars 10 cs 0 : Int))

theorem int?_minus (cs : List Char) :
    int? ('-' :: cs) = (digits? cs).map fun n => -Int.ofNat n := by
  rw [int?]
  cases digits? cs <;> rfl

theorem int?_plus (cs : List Char) : int? ('+' :: cs) = (digits? cs).map Int.ofNat := by
  rw [int?]
  cases digits? cs <;> rfl

theorem int?_unsigned {cs : List Char} (minus : cs.head? ≠ some '-') (plus : cs.head? ≠ some '+') :
    int? cs = (digits? cs).map Int.ofNat := by
  rw [int?.eq_def]
  split
  · exact absurd rfl minus
  · exact absurd rfl plus
  · cases digits? cs <;> rfl

/-- Without a sign an integer is read as digits. -/
theorem int?_digits {digits : List Char} (all : AllDigits digits) :
    int? digits = (digits? digits).map Int.ofNat := by
  have noSign (c : Char) (other : c.isDigit = false) : digits.head? ≠ some c := fun first =>
    ne_of_isDigit (all c (List.mem_of_head? first)) other rfl
  exact int?_unsigned (noSign '-' rfl) (noSign '+' rfl)

/-- An integer is read exactly if it is spelled. -/
theorem int?_eq_some_iff {cs : List Char} {n : Int} : int? cs = some n ↔ Spells cs n := by
  have row {cs : List Char} {f : Nat → Int} : (digits? cs).map f = some n ↔
      (cs ≠ [] ∧ AllDigits cs) ∧ n = f (Nat.ofDigitChars 10 cs 0) := by
    simp only [Option.map_eq_some_iff, digits?_eq_some_iff, and_assoc, exists_and_left,
      exists_eq_left, eq_comm (b := n)]
  constructor
  · intro read
    by_cases minus : cs.head? = some '-'
    · obtain ⟨rest, rfl⟩ := List.head?_eq_some_iff.mp minus
      rw [int?_minus, row] at read
      obtain ⟨⟨nonempty, all⟩, rfl⟩ := read
      exact .minus nonempty all
    · by_cases plus : cs.head? = some '+'
      · obtain ⟨rest, rfl⟩ := List.head?_eq_some_iff.mp plus
        rw [int?_plus, row] at read
        obtain ⟨⟨nonempty, all⟩, rfl⟩ := read
        exact .plus nonempty all
      · rw [int?_unsigned minus plus, row] at read
        obtain ⟨⟨nonempty, all⟩, rfl⟩ := read
        exact .digits nonempty all
  · intro spelled
    cases spelled with
    | digits nonempty all => exact int?_digits all ▸ row.mpr ⟨⟨nonempty, all⟩, rfl⟩
    | plus nonempty all => exact int?_plus _ ▸ row.mpr ⟨⟨nonempty, all⟩, rfl⟩
    | minus nonempty all => exact int?_minus _ ▸ row.mpr ⟨⟨nonempty, all⟩, rfl⟩

theorem int?_intDigits (n : Int) : int? (intDigits n) = some n := by
  rw [intDigits]
  split
  · next negative =>
    rw [int?_minus, digits?_natDigits]
    exact congrArg some (by omega : -(n.natAbs : Int) = n)
  · next positive =>
    rw [int?_digits (allDigits_natDigits _), digits?_natDigits]
    exact congrArg some (by omega : (n.natAbs : Int) = n)

/-! ## Reading words -/

theorem toInt64?_eq_some_iff {n : Int} {w : Int64} : toInt64? n = some w ↔ w.toInt = n := by
  have low := w.le_toInt
  have high := w.toInt_lt
  rw [toInt64?, Option.ite_none_right_eq_some, Option.some.injEq]
  constructor
  · rintro ⟨range, rfl⟩
    exact Int64.toInt_ofInt_of_le (by omega) (by omega)
  · rintro rfl
    exact ⟨by omega, Int64.ofInt_toInt w⟩

theorem toUInt64?_eq_some_iff {n : Nat} {w : UInt64} : toUInt64? n = some w ↔ w.toNat = n := by
  have high := w.toNat_lt
  rw [toUInt64?, Option.ite_none_right_eq_some, Option.some.injEq]
  constructor
  · rintro ⟨range, rfl⟩
    exact UInt64.toNat_ofNat_of_lt' (by simp only [UInt64.size]; omega)
  · rintro rfl
    exact ⟨by omega, UInt64.ofNat_toNat⟩

/-- A word without sign is read exactly if its natural is spelled. -/
theorem uint64?_eq_some_iff {cs : List Char} {w : UInt64} :
    uint64? cs = some w ↔ SpellsNat cs w.toNat := by
  rw [uint64?, Option.bind_eq_some_iff, ← nat?_eq_some_iff]
  constructor
  · rintro ⟨n, read, word⟩
    rwa [toUInt64?_eq_some_iff.mp word]
  · intro read
    exact ⟨_, read, toUInt64?_eq_some_iff.mpr rfl⟩

/-- A word is read exactly if its integer is spelled. -/
theorem int64?_eq_some_iff {cs : List Char} {w : Int64} :
    int64? cs = some w ↔ Spells cs w.toInt := by
  rw [int64?, Option.bind_eq_some_iff, ← int?_eq_some_iff]
  constructor
  · rintro ⟨n, read, word⟩
    rwa [toInt64?_eq_some_iff.mp word]
  · intro read
    exact ⟨_, read, toInt64?_eq_some_iff.mpr rfl⟩

theorem int64?_intDigits (n : Int64) : int64? (intDigits n.toInt) = some n :=
  int64?_eq_some_iff.mpr (int?_eq_some_iff.mp (int?_intDigits n.toInt))

end Text

end SqlMapper
