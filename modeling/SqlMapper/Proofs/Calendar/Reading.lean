import Mathlib.Data.List.TakeWhile
import SqlMapper.Calendar.Format
import SqlMapper.Proofs.Calendar.Days
import SqlMapper.Proofs.Text.Digits
import SqlMapper.Storage

/-! # Stored dates are read back

A stored date is no date of the internet standard, since it has no offset, so the form with a space
decides. Its fields are read to their last digits, whatever sign and however many digits the year
has, and together they are the instant at its whole second.
-/

namespace SqlMapper

open Text

/-! ## Blanks around digits -/

namespace Text

variable {digits rest : List Char}

theorem isBlank_digit {c : Char} (digit : c.isDigit = true) : isBlank c = false := by
  have bounds : isDigit c = true := digit
  simp only [isDigit, Bool.and_eq_true, decide_eq_true_eq] at bounds
  simp [isBlank]
  omega

theorem trimStart_cons {c : Char} (solid : isBlank c = false) (cs : List Char) :
    trimStart (c :: cs) = c :: cs := by
  simp [trimStart, solid]

theorem trimStart_digits (nonempty : digits ≠ []) (all : AllDigits digits) (rest : List Char) :
    trimStart (digits ++ rest) = digits ++ rest := by
  obtain ⟨c, digits, rfl⟩ := List.exists_cons_of_ne_nil nonempty
  exact trimStart_cons (isBlank_digit (all c List.mem_cons_self)) _

/-- A text without blanks at its ends is trimmed to itself. -/
theorem trim_eq_self {first : Char} {middle last : List Char} (solid : isBlank first = false)
    (nonempty : last ≠ []) (all : AllDigits last) :
    trim (first :: middle ++ last) = first :: middle ++ last := by
  have reversed : (last.reverse ++ (first :: middle).reverse).dropWhile isBlank =
      last.reverse ++ (first :: middle).reverse :=
    trimStart_digits (by simpa using nonempty) (fun c member => all c (by simpa using member)) _
  rw [trim, List.cons_append, trimStart_cons solid, ← List.cons_append, List.reverse_append,
    reversed, ← List.reverse_append, List.reverse_reverse]

end Text

/-! ## Fields -/

namespace Scan

variable {digits : List Char} {width : Nat}

theorem upTo_digits (nonempty : digits ≠ []) (all : AllDigits digits)
    (size : digits.length = width) (rest : List Char) :
    upTo width (digits ++ rest) = some (digitsValue digits, rest) := by
  have taken : (digits ++ rest).take width = digits := by rw [← size, List.take_left]
  have span : digits.takeWhile isDigit = digits := List.takeWhile_eq_self_iff.mpr all
  simp [upTo, trimStart_digits nonempty all, taken, span, nonempty]

theorem fixed_digits (all : AllDigits digits) (size : digits.length = width) (rest : List Char) :
    fixed width (digits ++ rest) = some (digitsValue digits, rest) := by
  subst size
  have every : digits.all isDigit = true := List.all_eq_true.mpr all
  simp [fixed, every]

theorem fixed_nondigit {c : Char} (other : c.isDigit = false) (positive : 0 < width)
    (cs : List Char) : fixed width (c :: cs) = none := by
  obtain ⟨width, rfl⟩ := Nat.exists_eq_add_of_lt positive
  have refused : isDigit c = false := other
  simp [fixed, refused]

/-- A field of two digits. -/
theorem upTo_padded {n : Nat} (small : n < 100) (rest : List Char) :
    upTo 2 (paddedDigits 2 n ++ rest) = some (n, rest) := by
  rw [upTo_digits (paddedDigits_ne_nil 2 n) (allDigits_paddedDigits 2 n)
    (length_paddedDigits (by decide) small), digitsValue_paddedDigits]

theorem fixed_padded {n : Nat} (small : n < 100) (rest : List Char) :
    fixed 2 (paddedDigits 2 n ++ rest) = some (n, rest) := by
  rw [fixed_digits (allDigits_paddedDigits 2 n) (length_paddedDigits (by decide) small),
    digitsValue_paddedDigits]

/-- A sign is followed by any number of digits. -/
theorem signed_padded (sign : Int) (width n : Nat) (rest : List Char) :
    year.signed sign (paddedDigits width n ++ '-' :: rest) = some (sign * n, '-' :: rest) := by
  have ends : ∀ c ∈ ('-' :: rest).head?, c.isDigit = false := fun c first =>
    Option.some_inj.mp first ▸ rfl
  rw [year.signed, spanDigits_append (allDigits_paddedDigits width n) ends]
  split
  · next none => exact absurd (congrArg Prod.fst none) (paddedDigits_ne_nil width n)
  · next digits other _ same =>
    cases same
    rw [digitsValue_paddedDigits]

theorem year_yearChars (y : Int) (rest : List Char) :
    year (yearChars y ++ '-' :: rest) = some (y, '-' :: rest) := by
  rw [yearChars]
  split
  · next plain =>
    have small : y.toNat < 10 ^ 4 := by omega
    have digits := allDigits_paddedDigits 4 y.toNat
    have field := upTo_digits (paddedDigits_ne_nil 4 y.toNat) digits
      (length_paddedDigits (by decide) small) ('-' :: rest)
    rw [digitsValue_paddedDigits] at field
    rw [year, trimStart_digits (paddedDigits_ne_nil 4 y.toNat) digits]
    obtain ⟨c, cs, written⟩ := List.exists_cons_of_ne_nil (paddedDigits_ne_nil 4 y.toNat)
    have digit := digits c (written ▸ List.mem_cons_self)
    have minus : c ≠ '-' := ne_of_isDigit digit (by decide)
    have plus : c ≠ '+' := ne_of_isDigit digit (by decide)
    rw [written, List.cons_append] at field ⊢
    simp [minus, plus, field, plain.1]
  · next signed =>
    by_cases negative : y < 0
    · have read := signed_padded (-1) 4 y.natAbs rest
      have value : -1 * (y.natAbs : Int) = y := by omega
      rw [value] at read
      rwa [if_pos negative, List.cons_append, year, trimStart_cons rfl]
    · have read := signed_padded 1 4 y.natAbs rest
      have value : 1 * (y.natAbs : Int) = y := by omega
      rw [value] at read
      rwa [if_neg negative, List.cons_append, year, trimStart_cons rfl]

end Scan

/-! ## Dates and times of day -/

/-- The fields of a date that exists have at most two digits. -/
theorem Date.IsValid.bounds {d : Date} (valid : d.IsValid) : d.month < 100 ∧ d.day < 100 := by
  obtain ⟨_, _, _, month, _, day⟩ := valid
  have longest : daysInMonth d.year d.month ≤ 31 := by
    rw [daysInMonth]
    split
    · split <;> decide
    · split <;> decide
  omega

namespace Instant

theorem scanDate_chars {d : Date} (month : d.month < 100) (day : d.day < 100) (rest : List Char) :
    scanDate (d.chars ++ rest) = some (d, rest) := by
  simp only [scanDate, Date.chars, List.append_assoc, List.cons_append, Scan.year_yearChars,
    Scan.char, if_true, Scan.upTo_padded month, Scan.upTo_padded day, bind, Option.bind]

/-- The fields of the time of day have two digits, and they are the second of the day. -/
theorem clock_bounds (t : Instant) :
    t.hour < 24 ∧ t.minute < 60 ∧ t.second ≤ 60 ∧ (t.second = 60 ↔ t.isLeapSecond = true) ∧
      t.hour * 3600 + t.minute * 60 + (if t.second = 60 then 59 else t.second) =
        t.secondOfDay := by
  have day : t.secondOfDay < 86400 := by
    rw [secondOfDay]
    omega
  have last : t.isLeapSecond = true → t.secondOfDay % 60 = 59 := by
    intro leap
    have minuteEnd := t.leapAtMinuteEnd.2 (of_decide_eq_true leap)
    rw [secondOfDay]
    omega
  rw [hour, minute]
  by_cases leap : t.isLeapSecond = true
  · have sixty : t.second = 60 := by rw [second, if_pos leap, last leap]
    have minuteEnd := last leap
    simp only [sixty, leap, if_true, le_refl, true_and]
    omega
  · have below : t.second = t.secondOfDay % 60 := by rw [second, if_neg leap, Nat.add_zero]
    have common : t.second ≠ 60 := by omega
    simp only [common, leap, if_false, iff_self, true_and, Bool.false_eq_true]
    omega

theorem scanClock_chars (t : Instant) :
    scanClock Scan.optionalFraction t.clockChars = some (⟨t.hour, t.minute, t.second, 0⟩, []) := by
  obtain ⟨hour, minute, second, _, _⟩ := t.clock_bounds
  have last := Scan.upTo_padded (n := t.second) (by omega) []
  rw [List.append_nil] at last
  simp only [scanClock, clockChars, Scan.upTo_padded (n := t.hour) (by omega),
    Scan.upTo_padded (n := t.minute) (by omega), last, Scan.char, if_true, Scan.optionalFraction,
    bind, Option.bind]

/-- An instant without the part of a second. A leap second remains one. -/
def truncated (t : Instant) : Instant where
  seconds := t.seconds
  nanos := if t.isLeapSecond then 1000000000 else 0
  inRange := t.inRange
  leapAtMinuteEnd := by
    cases isLeap : t.isLeapSecond with
    | false => simp
    | true => simpa using t.leapAtMinuteEnd.2 (of_decide_eq_true isLeap)

theorem of?_fields (t : Instant) : of? t.seconds t.nanos = some t :=
  dif_pos ⟨t.inRange, t.leapAtMinuteEnd⟩

theorem isValid_date (t : Instant) : t.date.IsValid := by
  have range := t.inRange
  rw [minSeconds, maxSeconds] at range
  exact Date.isValid_ofDayNumber (by rw [dayNumber]; omega) (by rw [dayNumber]; omega)

/-- The date and the time of day of an instant are those of its whole second. -/
theorem ofCivil?_fields (t : Instant) :
    ofCivil? t.date ⟨t.hour, t.minute, t.second, 0⟩ 0 = some t.truncated := by
  obtain ⟨hour, minute, second, leap, ofDay⟩ := t.clock_bounds
  have clock : ClockTime.IsValid ⟨t.hour, t.minute, t.second, 0⟩ :=
    ⟨hour, minute, second, Nat.zero_lt_succ _⟩
  have seconds : t.date.dayNumber * 86400 + ((t.hour * 3600 + t.minute * 60 +
      if t.second = 60 then 59 else t.second : Nat) : Int) - 0 = t.truncated.seconds := by
    have days : t.date.dayNumber = t.seconds / 86400 := Date.dayNumber_ofDayNumber _
    have inDay : (t.secondOfDay : Int) = t.seconds % 86400 :=
      Int.toNat_of_nonneg (Int.emod_nonneg _ (by decide))
    change _ = t.seconds
    rw [days, ofDay, inDay]
    omega
  have nanos : (if t.second = 60 then 0 + 1000000000 else 0) = t.truncated.nanos := by
    simp only [truncated, leap]
  rw [ofCivil?, if_pos ⟨t.isValid_date, clock⟩, ← of?_fields t.truncated, ← nanos, ← seconds]

/-! ## The whole text -/

theorem yearChars_starts (y : Int) : ∃ c cs, yearChars y = c :: cs ∧ isBlank c = false := by
  rw [yearChars]
  split
  · obtain ⟨c, cs, written⟩ := List.exists_cons_of_ne_nil (paddedDigits_ne_nil 4 y.toNat)
    have digit := allDigits_paddedDigits 4 y.toNat c (written ▸ List.mem_cons_self)
    exact ⟨c, cs, written, isBlank_digit digit⟩
  · split <;> exact ⟨_, _, rfl, rfl⟩

theorem trim_storedChars (t : Instant) : trim t.storedChars = t.storedChars := by
  obtain ⟨c, cs, written, solid⟩ := yearChars_starts t.date.year
  have text : t.storedChars = c :: (cs ++ '-' :: (paddedDigits 2 t.date.month ++ '-' ::
      (paddedDigits 2 t.date.day ++ ' ' :: (paddedDigits 2 t.hour ++ ':' ::
        (paddedDigits 2 t.minute ++ [':']))))) ++ paddedDigits 2 t.second := by
    simp [storedChars, Date.chars, clockChars, written]
  rw [text, trim_eq_self solid (paddedDigits_ne_nil 2 _) (allDigits_paddedDigits 2 _)]

theorem date_bounds (t : Instant) : t.date.month < 100 ∧ t.date.day < 100 := t.isValid_date.bounds

/-- A stored date has no offset. -/
theorem readInternet?_stored (t : Instant) : readInternet? t.storedChars = none := by
  obtain ⟨month, day⟩ := t.date_bounds
  obtain ⟨hour, minute, second, _, _⟩ := t.clock_bounds
  rw [readInternet?, storedChars, Date.chars, yearChars]
  split
  · next plain =>
    have digits := Scan.fixed_digits (allDigits_paddedDigits 4 t.date.year.toNat)
      (length_paddedDigits (by decide) (by omega))
    have last := Scan.fixed_padded (n := t.second) (by omega) []
    rw [List.append_nil] at last
    simp only [clockChars, List.append_assoc, List.cons_append, digits, Scan.fixed_padded month,
      Scan.fixed_padded day, Scan.fixed_padded (n := t.hour) (by omega),
      Scan.fixed_padded (n := t.minute) (by omega), last, Scan.char, if_true,
      Scan.optionalFraction, Scan.offset, Scan.whole?, bind, Option.bind]
  · split <;> rw [List.cons_append, List.cons_append, Scan.fixed_nondigit rfl (by decide)] <;> rfl

theorem readCivil?_stored (t : Instant) :
    readCivil? (fun cs => some ((), trimStart cs)) t.storedChars = some t.truncated := by
  obtain ⟨month, day⟩ := t.date_bounds
  have spaced : trimStart (' ' :: t.clockChars) = t.clockChars :=
    trimStart_digits (paddedDigits_ne_nil 2 t.hour) (allDigits_paddedDigits 2 t.hour) _
  simp only [readCivil?, storedChars, scanDate_chars month day, spaced, scanClock_chars,
    Scan.whole?, ofCivil?_fields, bind, Option.bind]

/-- A stored date is read back as its instant, to the second. -/
theorem read?_stored (t : Instant) : read? t.stored = some t.truncated := by
  rw [read?, stored, String.toList_ofList, trim_storedChars, readInternet?_stored,
    readCivil?_stored]
  rfl

/-- Milliseconds are no leap second, and a part of one is dropped towards the past. -/
theorem truncated_ofMillis? {t : Instant} {millis : Int} (counted : ofMillis? millis = some t) :
    t.truncated.seconds = millis / 1000 ∧ t.truncated.nanos = 0 := by
  rw [ofMillis?, of?] at counted
  split at counted
  · next fits =>
    cases counted
    have common : ¬ 1000000000 ≤ (millis % 1000).toNat * 1000000 := by omega
    exact ⟨rfl, by simp [truncated, isLeapSecond, common]⟩
  · cases counted

end Instant

/-- A date column gives an instant back at its whole second, and a leap second as a leap second,
whether the instant was given as such or counted in milliseconds. -/
theorem restore_store_date {p : Property} (dated : p.kind = .date) (t : Instant) :
    Instant.read? t.stored = some t.truncated ∧
      restore (some p) (store (some p) (.date t)) = .date t.truncated ∧
      ∀ millis : Int64, Instant.ofMillis? millis.toInt = some t →
        restore (some p) (.int millis) = .date t ∧
          restore (some p) (store (some p) (.int millis)) = .date t.truncated ∧
          t.truncated.seconds = millis.toInt / 1000 ∧ t.truncated.nanos = 0 := by
  have read := t.read?_stored
  have restored : restore (some p) (.text t.stored) = .date t.truncated := by
    simp [restore, dated, restoreDate, read]
  refine ⟨read, ?_, fun millis counted => ⟨?_, ?_, Instant.truncated_ofMillis? counted⟩⟩
  · have stored : store (some p) (.date t) = .text t.stored := by
      simp [store, Value.isNull, dated, storeDate, Value.instant?]
    rw [stored, restored]
  · simp [restore, dated, restoreDate, counted]
  · have stored : store (some p) (.int millis) = .text t.stored := by
      simp [store, Value.isNull, dated, storeDate, Value.instant?, counted]
    rw [stored, restored]

/-- A leap second of the first year that can be represented, and the millisecond before 1970. -/
theorem restore_store_date_early :
    restore (some .date) (store (some .date)
        (.date ⟨-8334601142401, 1500000000, by decide, by decide⟩)) =
      .date ⟨-8334601142401, 1000000000, by decide, by decide⟩ ∧
    Instant.ofMillis? (-1) = some ⟨-1, 999000000, by decide, by decide⟩ ∧
    restore (some .date) (store (some .date) (.int (-1))) =
      .date ⟨-1, 0, by decide, by decide⟩ :=
  have counted : Instant.ofMillis? (-1) = some ⟨-1, 999000000, by decide, by decide⟩ := rfl
  ⟨(restore_store_date rfl _).2.1, counted, ((restore_store_date rfl _).2.2 (-1) counted).2.1⟩

end SqlMapper
