import Mathlib.Tactic.SplitIfs
import SqlMapper.Json.Document
import SqlMapper.Json.Writer
import SqlMapper.Proofs.Text.Digits

/-! # Strings and integers in JSON text

A written string is read back character by character: each is written as itself, as an escape of
two characters or by its number, and behind any of these the reader is between characters again. A
written integer has no leading zero, so it is read to its last digit, and it is an integer again if
it fits a signed or an unsigned word.
-/

namespace SqlMapper.Json

open Text

/-! ## Strings -/

section Strings

variable {s next : QuoteState} {c e : Char}

theorem quotation_emit (emits : quoteStep .strict c s = .emit e next) (rest : List Char) :
    quotation .strict s (c :: rest) =
      (quotation .strict next rest).map fun read => (e :: read.1, read.2) := by
  rw [quotation, emits]
  dsimp only
  cases quotation .strict next rest <;> rfl

theorem quotation_go (goes : quoteStep .strict c s = .go next) (rest : List Char) :
    quotation .strict s (c :: rest) = quotation .strict next rest := by
  rw [quotation, goes]

theorem hexValue?_hexDigit {d : Nat} (small : d < 16) : hexValue? (hexDigit d) = some d := by
  have all : ∀ k < 16, hexValue? (hexDigit k) = some k := by decide
  exact all d small

theorem utf8Size_hexDigit {d : Nat} (small : d < 16) : (hexDigit d).utf8Size = 1 := by
  have all : ∀ k < 16, (hexDigit k).utf8Size = 1 := by decide
  exact all d small

/-- An escape of two characters. -/
theorem quotation_short (escape : escapeOf? e = some c) (other : e ≠ 'u') (rest : List Char) :
    quotation .strict .plain ('\\' :: e :: rest) =
      (quotation .strict .plain rest).map fun read => (c :: read.1, read.2) := by
  have emits : quoteStep .strict e .backslash = .emit c .plain := by
    simp [quoteStep, other, escape]
  exact (quotation_go rfl _).trans (quotation_emit emits rest)

/-- An escape by number. -/
theorem quotation_number (control : c.toNat < 0x20) (rest : List Char) :
    quotation .strict .plain ('\\' :: 'u' :: '0' :: '0' :: hexDigit (c.toNat / 16) ::
        hexDigit (c.toNat % 16) :: rest) =
      (quotation .strict .plain rest).map fun read => (c :: read.1, read.2) := by
  have high : c.toNat / 16 < 16 := by omega
  have low : c.toNat % 16 < 16 := Nat.mod_lt _ (by decide)
  have third : quoteStep .strict (hexDigit (c.toNat / 16)) (.hex 2 (some 0) none) =
      .go (.hex 3 (some (c.toNat / 16)) none) := by
    simp [quoteStep, utf8Size_hexDigit high, hexValue?_hexDigit high]
  have fourth : quoteStep .strict (hexDigit (c.toNat % 16)) (.hex 3 (some (c.toNat / 16)) none) =
      .emit c .plain := by
    have whole : 16 * (c.toNat / 16) + c.toNat % 16 = c.toNat := Nat.div_add_mod ..
    have notHigh : isHighSurrogate c.toNat = false := by simp [isHighSurrogate]; omega
    have notLow : isLowSurrogate c.toNat = false := by simp [isLowSurrogate]; omega
    simp [quoteStep, utf8Size_hexDigit low, hexValue?_hexDigit low, whole, closeHex, notHigh,
      notLow, Char.ofNat_toNat]
  calc quotation .strict .plain ('\\' :: 'u' :: '0' :: '0' :: hexDigit (c.toNat / 16) ::
        hexDigit (c.toNat % 16) :: rest)
    _ = quotation .strict (.hex 2 (some 0) none) (hexDigit (c.toNat / 16) ::
          hexDigit (c.toNat % 16) :: rest) := rfl
    _ = _ := (quotation_go third _).trans (quotation_emit fourth rest)

/-- A character of a string, with what is written for it. -/
theorem quotation_escapedChar (c : Char) (rest : List Char) :
    quotation .strict .plain (escapedChar c ++ rest) =
      (quotation .strict .plain rest).map fun read => (c :: read.1, read.2) := by
  rw [escapedChar]
  split_ifs with quote backslash backspace formFeed newline carriage tab control
  · exact quotation_short (by simp [quote, escapeOf?]) (by decide) rest
  · exact quotation_short (by simp [backslash, escapeOf?]) (by decide) rest
  · exact quotation_short (by simp [backspace, escapeOf?]) (by decide) rest
  · exact quotation_short (by simp [formFeed, escapeOf?]) (by decide) rest
  · exact quotation_short (by simp [newline, escapeOf?]) (by decide) rest
  · exact quotation_short (by simp [carriage, escapeOf?]) (by decide) rest
  · exact quotation_short (by simp [tab, escapeOf?]) (by decide) rest
  · exact quotation_number control rest
  · exact quotation_emit (by simp [quoteStep, quote, backslash, control]) rest

/-- A written string is read up to its last quote, whatever is in it. -/
theorem quotation_quoted (s rest : List Char) :
    quotation .strict .plain (s.flatMap escapedChar ++ '"' :: rest) = .ok (s, rest) := by
  induction s with
  | nil => rfl
  | cons c s ih =>
    rw [List.flatMap_cons, List.append_assoc, quotation_escapedChar, ih]
    rfl

end Strings

/-! ## Integers -/

section Integers

variable {rest : List Char}

/-- What follows a value in a document. -/
def Delimits (rest : List Char) : Prop := ∀ c ∈ rest.head?, c = ',' ∨ c = ']' ∨ c = '\x7d'

theorem head?_natDigits {n : Nat} (positive : 0 < n) : (natDigits n).head? ≠ some '0' := by
  induction n using natDigits.induct with
  | case1 n small =>
    have all : ∀ k < 10, 0 < k → digitChar k ≠ '0' := by decide
    rw [natDigits, if_pos small]
    simpa using all n small positive
  | case2 n large ih =>
    have first := ih (by omega)
    obtain ⟨c, more, written⟩ := List.exists_cons_of_ne_nil (natDigits_ne_nil (n / 10))
    rw [natDigits, if_neg large, written]
    rwa [written] at first

/-- A written natural has no leading zero. -/
theorem wholePart_natDigits (n : Nat) (delimits : Delimits rest) :
    wholePart .strict (natDigits n ++ rest) = .ok (natDigits n, rest) := by
  have ends : ∀ c ∈ rest.head?, c.isDigit = false := by
    intro c first
    rcases delimits c first with rfl | rfl | rfl <;> rfl
  have digits : someDigits .strict (natDigits n ++ rest) = .ok (natDigits n, rest) := by
    rw [someDigits, spanDigits_append (allDigits_natDigits n) ends]
    cases written : natDigits n with
    | nil => exact absurd written (natDigits_ne_nil n)
    | cons c more => rfl
  have plain : ¬ ((natDigits n).head? = some '0' ∧ 1 < (natDigits n).length) := by
    rintro ⟨zero, long⟩
    rcases Nat.eq_zero_or_pos n with rfl | positive
    · rw [natDigits] at long
      exact absurd long (by decide)
    · exact head?_natDigits positive zero
  rw [wholePart, digits]
  exact if_neg plain

theorem fractionPart_delimits (delimits : Delimits rest) :
    fractionPart .strict rest = .ok (none, rest) := by
  rw [fractionPart.eq_def]
  split
  · next point => exact absurd (delimits '.' rfl) (by decide)
  · rfl

theorem exponentPart_delimits (delimits : Delimits rest) :
    exponentPart .strict rest = .ok (none, rest) := by
  cases rest with
  | nil => rfl
  | cons c rest =>
    rcases delimits c rfl with rfl | rfl | rfl <;> rfl

/-- A written integer is read to its last digit. -/
theorem numeral_intDigits (n : Int) (delimits : Delimits rest) :
    numeral .strict (intDigits n ++ rest) =
      .ok (⟨decide (n < 0), natDigits n.natAbs, none, none⟩, rest) := by
  have whole := wholePart_natDigits n.natAbs delimits
  have fraction := fractionPart_delimits delimits
  have exponent := exponentPart_delimits delimits
  rw [intDigits]
  split
  · next negative =>
    simp [numeral, bind, Except.bind, whole, fraction, exponent, negative]
  · next positive =>
    obtain ⟨c, digits, written⟩ := List.exists_cons_of_ne_nil (natDigits_ne_nil n.natAbs)
    have unsigned : c ≠ '-' :=
      ne_of_isDigit (allDigits_natDigits n.natAbs c (written ▸ List.mem_cons_self)) (by decide)
    rw [written, List.cons_append] at whole ⊢
    simp [numeral, unsigned, bind, Except.bind, whole, fraction, exponent, positive]

/-- A number of 64 bits, with or without a sign, is an integer. -/
theorem number_intDigits {n : Int} (low : -2 ^ 63 ≤ n) (high : n < 2 ^ 64)
    (delimits : Delimits rest) :
    Reading.number .strict (intDigits n ++ rest) = ⟨.int n, .ok rest⟩ := by
  have value : Numeral.value? ⟨decide (n < 0), natDigits n.natAbs, none, none⟩ =
      some (.int n) := by
    rw [Numeral.value?, digitsValue_natDigits]
    by_cases negative : n < 0
    · have fits : 0 < n.natAbs ∧ n.natAbs ≤ pow2 63 := by
        simp only [pow2, Nat.pow_eq]
        omega
      have value : -(n.natAbs : Int) = n := by omega
      simpa [negative, fits] using value
    · have fits : n.natAbs ≤ maxWord := by
        simp only [maxWord]
        omega
      have value : (n.natAbs : Int) = n := by omega
      simpa [negative, fits] using value
  rw [Reading.number, numeral_intDigits n delimits]
  simp only [value]

end Integers

end SqlMapper.Json
