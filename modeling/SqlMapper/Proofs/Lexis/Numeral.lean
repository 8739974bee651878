import Mathlib.Data.Nat.Digits.Defs
import SqlMapper.Number.Layout
import SqlMapper.Proofs.Lexis.Token

/-! # Written numbers are single tokens

An integer is written as digits behind an optional minus, and a finite float the same with an
optional point between digits. Such a numeral is one token, and it starts no comment: a minus is
followed by a digit.
-/

namespace SqlMapper

namespace Text

def AllDigits (cs : List Char) : Prop := ∀ c ∈ cs, c.isDigit = true

/-- Digits, with a minus in front or not and with a point and more digits behind them or not. -/
def IsNumeral (cs : List Char) : Prop :=
  ∃ sign whole part, cs = sign ++ whole ++ part ∧ (sign = [] ∨ sign = ['-']) ∧
    whole ≠ [] ∧ AllDigits whole ∧
    (part = [] ∨ ∃ digits, part = '.' :: digits ∧ digits ≠ [] ∧ AllDigits digits)

theorem AllDigits.append {xs ys : List Char} (front : AllDigits xs) (back : AllDigits ys) :
    AllDigits (xs ++ ys) := fun c member =>
  (List.mem_append.mp member).elim (front c) (back c)

theorem AllDigits.subset {xs ys : List Char} (digits : AllDigits ys) (sub : xs ⊆ ys) :
    AllDigits xs := fun c member => digits c (sub member)

theorem isDigit_digitChar (n : Nat) : (digitChar n).isDigit = true := by
  have small : ∀ k < 10, (Char.ofNat (48 + k)).isDigit = true := by decide
  exact small (n % 10) (Nat.mod_lt _ (by decide))

theorem allDigits_natDigits (n : Nat) : AllDigits (natDigits n) := by
  induction n using natDigits.induct with
  | case1 n small =>
    rw [natDigits, if_pos small]
    simpa [AllDigits] using isDigit_digitChar n
  | case2 n large ih =>
    rw [natDigits, if_neg large]
    exact ih.append (by simpa [AllDigits] using isDigit_digitChar n)

theorem natDigits_ne_nil (n : Nat) : natDigits n ≠ [] := by
  rw [natDigits]
  split <;> simp

theorem isNumeral_natDigits (n : Nat) : IsNumeral (natDigits n) :=
  ⟨[], natDigits n, [], by simp, .inl rfl, natDigits_ne_nil n, allDigits_natDigits n, .inl rfl⟩

theorem isNumeral_intDigits (n : Int) : IsNumeral (intDigits n) := by
  rw [intDigits]
  split
  · exact ⟨['-'], natDigits n.natAbs, [], by simp, .inr rfl, natDigits_ne_nil _,
      allDigits_natDigits _, .inl rfl⟩
  · exact isNumeral_natDigits _

/-- A fraction behind its point, nothing if there is none. -/
def pointed (fraction : List Char) : List Char :=
  if fraction = [] then [] else '.' :: fraction

theorem isNumeral_parts {sign whole fraction : List Char} (signed : sign = [] ∨ sign = ['-'])
    (nonempty : whole ≠ []) (digits : AllDigits (whole ++ fraction)) :
    IsNumeral (sign ++ (whole ++ pointed fraction)) := by
  refine ⟨sign, whole, _, (List.append_assoc ..).symm, signed, nonempty,
    digits.subset (List.subset_append_left ..), ?_⟩
  rw [pointed]
  split
  · exact .inl rfl
  · next part => exact .inr ⟨_, rfl, part, digits.subset (List.subset_append_right ..)⟩

end Text

open Text

namespace Decimal

theorem allDigits_toDigits (n : Nat) : AllDigits (Nat.toDigits 10 n) := fun _ member =>
  Nat.isDigit_of_mem_toDigits (by decide) (by decide) member

theorem toDigits_ne_nil (n : Nat) : Nat.toDigits 10 n ≠ [] := by
  have positive : 0 < (Nat.toDigits 10 n).length := Nat.length_toDigits_pos
  exact List.ne_nil_of_length_pos positive

theorem allDigits_zeros (n : Nat) : AllDigits (zeros n) := fun c member => by
  rw [List.eq_of_mem_replicate member]
  decide

/-- The positional form of a decimal has its digits, with zeros around them, and a point where the
fraction begins. -/
theorem positional_parts (x : Decimal) :
    ∃ whole fraction leading, x.positional = whole ++ pointed fraction ∧ whole ≠ [] ∧
      whole ++ fraction = zeros leading ++ (Nat.toDigits 10 x.digits ++ zeros x.exponent.toNat) ∧
      fraction.length = (-x.exponent).toNat := by
  have someDigit := toDigits_ne_nil x.digits
  simp only [positional]
  split
  · exact ⟨Nat.toDigits 10 x.digits ++ zeros x.exponent.toNat, [], 0, by simp [pointed],
      by simp [someDigit], by simp [zeros], by rw [List.length_nil]; omega⟩
  · next negative =>
    have integer : x.exponent.toNat = 0 := by omega
    have places : 0 < (-x.exponent).toNat := by omega
    split
    · next inside =>
      have cut : (Nat.toDigits 10 x.digits).length -
          ((Nat.toDigits 10 x.digits).length - (-x.exponent).toNat) = (-x.exponent).toNat := by
        omega
      have part : (Nat.toDigits 10 x.digits).drop
          ((Nat.toDigits 10 x.digits).length - (-x.exponent).toNat) ≠ [] :=
        List.ne_nil_of_length_pos (by rw [List.length_drop, cut]; exact places)
      refine ⟨_, _, 0, by rw [pointed, if_neg part], ?_, ?_, by rw [List.length_drop, cut]⟩
      · exact List.ne_nil_of_length_pos (by rw [List.length_take]; omega)
      · rw [integer, List.take_append_drop]
        simp [zeros]
    · next outside =>
      have part : zeros ((-x.exponent).toNat - (Nat.toDigits 10 x.digits).length) ++
          Nat.toDigits 10 x.digits ≠ [] := by simp [someDigit]
      refine ⟨['0'], _, (-x.exponent).toNat - (Nat.toDigits 10 x.digits).length + 1,
        by rw [pointed, if_neg part]; rfl, by simp, ?_, ?_⟩
      · rw [integer]
        simp [zeros, List.replicate_succ]
      · rw [List.length_append, zeros, List.length_replicate]
        omega

theorem allDigits_padded (leading n trailing : Nat) :
    AllDigits (zeros leading ++ (Nat.toDigits 10 n ++ zeros trailing)) :=
  (allDigits_zeros _).append ((allDigits_toDigits n).append (allDigits_zeros _))

end Decimal

/-- The text of a number behind its sign. -/
theorem Binary64.plainText_parts {x : Binary64} (finite : x.isFinite = true) :
    x.plainText.toList = x.signed (if x.isZero then ['0'] else (x.shortest .up).positional) := by
  have number : x.isNan = false := by
    simp only [isFinite, bne_iff_ne, ne_eq] at finite
    simp [isNan, finite]
  simp only [plainText, number, finite, Bool.not_true, Bool.false_eq_true, if_false,
    String.toList_ofList]

theorem Binary64.isNumeral_plainText {x : Binary64} (finite : x.isFinite = true) :
    IsNumeral x.plainText.toList := by
  have body : ∃ whole fraction, (if x.isZero then ['0'] else (x.shortest .up).positional) =
      whole ++ pointed fraction ∧ whole ≠ [] ∧ AllDigits (whole ++ fraction) := by
    split
    · exact ⟨['0'], [], rfl, by simp, by simp [AllDigits]⟩
    · obtain ⟨whole, fraction, leading, written, nonempty, digits, _⟩ :=
        (x.shortest .up).positional_parts
      exact ⟨whole, fraction, written, nonempty, digits ▸ Decimal.allDigits_padded _ _ _⟩
  obtain ⟨whole, fraction, written, nonempty, digits⟩ := body
  rw [plainText_parts finite, written, signed]
  split
  · exact isNumeral_parts (.inr rfl) nonempty digits
  · exact isNumeral_parts (.inl rfl) nonempty digits

namespace Dialect

variable {d : Dialect}

theorem scan_integer (d : Dialect) {cs : List Char} (digits : AllDigits cs) (read : List Char) :
    d.scan (.integer read) cs = some ([], .integer (read ++ cs)) :=
  scan_collect (fun read c digit => by simp [step, digit]) digits read

theorem scan_fraction (d : Dialect) {cs : List Char} (digits : AllDigits cs) (read : List Char) :
    d.scan (.fraction read) cs = some ([], .fraction (read ++ cs)) :=
  scan_collect (fun read c digit => by simp [step, digit]) digits read

theorem start_digit (known : d.IsKnown) {c : Char} (digit : c.isDigit = true) :
    d.start c = some ([], .integer [c]) := by
  have name : c ≠ d.identifierQuote := by
    rw [known.identifierQuote]
    rintro rfl
    exact absurd digit (by decide)
  have text : c ≠ d.stringQuote := by
    rcases known.stringQuote with quote | quote <;> rw [quote] <;> rintro rfl <;>
      exact absurd digit (by decide)
  have space : isSpace c = false := by
    simp only [isSpace, Bool.or_eq_false_iff, decide_eq_false_iff_not]
    refine ⟨⟨⟨?_, ?_⟩, ?_⟩, ?_⟩ <;> rintro rfl <;> exact absurd digit (by decide)
  simp [start, name, text, space, digit]

theorem scan_whole (known : d.IsKnown) {sign whole : List Char} (signed : sign = [] ∨ sign = ['-'])
    (nonempty : whole ≠ []) (digits : AllDigits whole) :
    d.scan .between (sign ++ whole) = some ([], .integer (sign ++ whole)) := by
  obtain ⟨c, rest, rfl⟩ := List.exists_cons_of_ne_nil nonempty
  have digit := digits c (List.mem_cons_self ..)
  have tail := scan_integer d fun other member => digits other (List.mem_cons_of_mem _ member)
  rcases signed with rfl | rfl
  · have first : d.step .between c = some ([], .integer [c]) := start_digit known digit
    exact scan_cons first (tail [c])
  · have minus : d.step .between '-' = some ([], .sign) := by
      rcases known with rfl | rfl <;> rfl
    have first : d.step .sign c = some ([], .integer ['-', c]) := by simp [step, digit]
    exact scan_cons minus (scan_cons first (tail ['-', c]))

theorem spells_numeral (known : d.IsKnown) {cs : List Char} (numeral : IsNumeral cs) :
    d.Spells cs (.number (String.ofList cs)) := by
  obtain ⟨sign, whole, part, rfl, signed, nonempty, digits, rest⟩ := numeral
  have front := scan_whole known signed nonempty digits
  rcases rest with rfl | ⟨more, rfl, someDigit, fraction⟩
  · rw [List.append_nil]
    exact ⟨_, front, rfl⟩
  · obtain ⟨c, more, rfl⟩ := List.exists_cons_of_ne_nil someDigit
    have point : d.step (.integer (sign ++ whole)) '.' =
        some ([], .point (sign ++ whole ++ ['.'])) := by simp [step]
    have first : d.step (.point (sign ++ whole ++ ['.'])) c =
        some ([], .fraction (sign ++ whole ++ ['.'] ++ [c])) := by
      simp [step, fraction c (List.mem_cons_self ..)]
    have later := fun other member => fraction other (List.mem_cons_of_mem _ member)
    have tail := scan_fraction d later (sign ++ whole ++ ['.'] ++ [c])
    exact ⟨_, scan_trans front (scan_cons point (scan_cons first tail)), by simp [Cursor.finish?]⟩

/-- A numeral is one token. -/
theorem tokens?_numeral (known : d.IsKnown) {cs : List Char} (numeral : IsNumeral cs) :
    d.tokens? cs = some [.number (String.ofList cs)] := (spells_numeral known numeral).tokens?

end Dialect

end SqlMapper
