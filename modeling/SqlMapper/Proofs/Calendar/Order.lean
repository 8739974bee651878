import Mathlib.Order.Monotone.Basic
import SqlMapper.Proofs.Calendar.Reading
import SqlMapper.Proofs.Number.Reading
import SqlMapper.Query.Predicate

/-! # Stored dates are in order as texts

In years of four digits every field of a stored date has a fixed width, so texts are compared field
by field and the fields as numbers: first the date, then the time of day. Dates compared this way
are in the order of their days, since a month begins with the day after the last one of the month
before. So the order of the texts is that of the instants at their whole seconds, and a leap second
comes after the second that it follows and before the next minute.
-/

namespace SqlMapper

open Text

/-! ## Rows of digits -/

namespace Text

/-- Behind parts of one length, texts are in the order of these parts, and then in that of what
follows. -/
theorem append_lt_append_iff {xs ys : List Char} (size : xs.length = ys.length)
    (as bs : List Char) : xs ++ as < ys ++ bs ↔ xs < ys ∨ xs = ys ∧ as < bs := by
  induction xs generalizing ys with
  | nil =>
    obtain rfl := List.length_eq_zero_iff.mp size.symm
    simp
  | cons x xs ih =>
    cases ys with
    | nil => cases size
    | cons y ys =>
      have rest := ih (Nat.succ.inj size)
      simp only [List.cons_append, List.cons_lt_cons_iff, List.cons.injEq, rest]
      tauto

theorem digitsValue_cons (c : Char) (digits : List Char) :
    digitsValue (c :: digits) = 10 ^ digits.length * digitValue c + digitsValue digits :=
  Nat.ofDigitChars_cons.trans (Nat.ofDigitChars_eq_ofDigitChars_zero.trans (by simp; rfl))

/-- Digits are in the order of what they stand for. -/
theorem digit_compare {c d : Char} (first : c.isDigit = true) (second : d.isDigit = true) :
    (c < d ↔ digitValue c < digitValue d) ∧ (c = d ↔ digitValue c = digitValue d) := by
  have low : isDigit c = true := first
  have high : isDigit d = true := second
  simp only [isDigit, Bool.and_eq_true, decide_eq_true_eq] at low high
  have order : c < d ↔ c.toNat < d.toNat := Iff.rfl
  rw [order, ← Char.toNat_inj, digitValue, digitValue]
  omega

/-- Numbers of two parts of which the second is below a bound are in the order of these parts. -/
theorem parts_lt_iff {bound a b x y : Nat} (small : x < bound) (small' : y < bound) :
    bound * a + x < bound * b + y ↔ a < b ∨ a = b ∧ x < y := by
  rcases Nat.lt_trichotomy a b with less | rfl | more
  · have step := Nat.mul_le_mul_left bound less
    rw [Nat.mul_succ] at step
    omega
  · omega
  · have step := Nat.mul_le_mul_left bound more
    rw [Nat.mul_succ] at step
    omega

/-- Rows of digits of one length are in the order of what they stand for. -/
theorem digits_lt_iff {xs ys : List Char} (first : AllDigits xs) (second : AllDigits ys)
    (size : xs.length = ys.length) : xs < ys ↔ digitsValue xs < digitsValue ys := by
  induction xs generalizing ys with
  | nil =>
    obtain rfl := List.length_eq_zero_iff.mp size.symm
    simp
  | cons x xs ih =>
    cases ys with
    | nil => cases size
    | cons y ys =>
      have sizes := Nat.succ.inj size
      have tail : AllDigits xs := first.subset (List.subset_cons_self ..)
      have tail' : AllDigits ys := second.subset (List.subset_cons_self ..)
      obtain ⟨less, same⟩ :=
        digit_compare (first x List.mem_cons_self) (second y List.mem_cons_self)
      have small := digitsValue_lt tail
      rw [sizes] at small
      rw [List.cons_lt_cons_iff, ih tail tail' sizes, less, same, digitsValue_cons,
        digitsValue_cons, sizes, parts_lt_iff small (digitsValue_lt tail')]

/-- Padded fields at the front are compared as numbers. -/
theorem paddedDigits_lt_iff {width m n : Nat} (positive : 0 < width) (small : m < 10 ^ width)
    (small' : n < 10 ^ width) (as bs : List Char) :
    paddedDigits width m ++ as < paddedDigits width n ++ bs ↔ m < n ∨ m = n ∧ as < bs := by
  have size : (paddedDigits width m).length = (paddedDigits width n).length := by
    rw [length_paddedDigits positive small, length_paddedDigits positive small']
  have same : paddedDigits width m = paddedDigits width n ↔ m = n := by
    constructor
    · intro same
      rw [← digitsValue_paddedDigits width m, same, digitsValue_paddedDigits]
    · exact congrArg _
  rw [append_lt_append_iff size, digits_lt_iff (allDigits_paddedDigits width m)
    (allDigits_paddedDigits width n) size, digitsValue_paddedDigits, digitsValue_paddedDigits, same]

end Text

/-! ## Dates -/

namespace Date

/-- Dates are compared by year, month and day. -/
instance : LT Date :=
  ⟨fun d e => d.year < e.year ∨ d.year = e.year ∧
    (d.month < e.month ∨ d.month = e.month ∧ d.day < e.day)⟩

theorem lt_iff {d e : Date} : d < e ↔ d.year < e.year ∨ d.year = e.year ∧
    (d.month < e.month ∨ d.month = e.month ∧ d.day < e.day) := Iff.rfl

/-- The first of March is the day after the last one of February. -/
theorem daysInFebruary (year : Int) :
    (daysInMonth year 2 : Int) = 365 + year / 4 - year / 100 + year / 400 -
      ((year - 1) / 4 - (year - 1) / 100 + (year - 1) / 400) - 337 := by
  by_cases leap : isLeap year = true
  · simp only [daysInMonth, leap, if_true]
    simp only [isLeap, Bool.and_eq_true, Bool.or_eq_true, beq_iff_eq, bne_iff_ne] at leap
    omega
  · simp only [daysInMonth, leap, if_true, Bool.false_eq_true, if_false]
    simp only [isLeap, Bool.and_eq_true, Bool.or_eq_true, beq_iff_eq, bne_iff_ne] at leap
    omega

/-- A month begins with the day after the last one of the month before. -/
theorem dayNumber_nextMonth (year : Int) {month : Nat} (first : 1 ≤ month) (last : month ≤ 11) :
    dayNumber ⟨year, month + 1, 1⟩ = dayNumber ⟨year, month, 1⟩ + daysInMonth year month := by
  have february := daysInFebruary year
  interval_cases month
  case «2» =>
    rw [february]
    simp [dayNumber, daysBeforeMonth]
    omega
  all_goals
    simp [dayNumber, daysBeforeMonth, daysInMonth]
  all_goals omega

/-- The number of a month, counted through all years from January of year 0. -/
def monthIndex (d : Date) : Int := 12 * d.year + d.month - 1

/-- The number of the first day of a month. -/
def monthStart (index : Int) : Int := dayNumber ⟨index / 12, (index % 12).toNat + 1, 1⟩

theorem monthStart_succ (index : Int) :
    monthStart (index + 1) =
      monthStart index + daysInMonth (index / 12) ((index % 12).toNat + 1) := by
  have month : (index % 12).toNat ≤ 11 := by omega
  rw [monthStart, monthStart]
  rcases Nat.lt_or_eq_of_le month with earlier | december
  · have sameYear : (index + 1) / 12 = index / 12 := by omega
    have next : ((index + 1) % 12).toNat = (index % 12).toNat + 1 := by omega
    rw [sameYear, next, dayNumber_nextMonth _ (by omega) earlier]
  · have nextYear : (index + 1) / 12 = index / 12 + 1 := by omega
    have january : ((index + 1) % 12).toNat = 0 := by omega
    rw [nextYear, january, december]
    simp [dayNumber, daysBeforeMonth, daysInMonth]
    omega

/-- No month begins before an earlier one. -/
theorem monthStart_le {first second : Int} (le : first ≤ second) :
    monthStart first ≤ monthStart second := by
  refine monotone_int_of_le_succ (fun index => ?_) le
  rw [monthStart_succ]
  omega

/-- A date is in its month. -/
theorem monthStart_bounds {d : Date} (valid : d.IsValid) :
    d.dayNumber = monthStart d.monthIndex + d.day - 1 ∧
      d.dayNumber < monthStart (d.monthIndex + 1) := by
  obtain ⟨_, _, low, high, _, day⟩ := valid
  have year : d.monthIndex / 12 = d.year := by
    rw [monthIndex]
    omega
  have month : (d.monthIndex % 12).toNat + 1 = d.month := by
    rw [monthIndex]
    omega
  have start : d.dayNumber = monthStart d.monthIndex + d.day - 1 := by
    rw [monthStart, year, month]
    simp only [dayNumber]
    omega
  rw [monthStart_succ, year, month]
  exact ⟨start, by omega⟩

/-- The numbers of dates are in the order of the dates. -/
theorem dayNumber_lt {d e : Date} (valid : d.IsValid) (valid' : e.IsValid) (less : d < e) :
    d.dayNumber < e.dayNumber := by
  obtain ⟨start, inside⟩ := monthStart_bounds valid
  obtain ⟨start', _⟩ := monthStart_bounds valid'
  obtain ⟨_, _, low, high, _, _⟩ := valid
  obtain ⟨_, _, low', high', first, _⟩ := valid'
  have months : d.monthIndex < e.monthIndex ∨ d.monthIndex = e.monthIndex ∧ d.day < e.day := by
    rw [lt_iff] at less
    rw [monthIndex, monthIndex]
    omega
  rcases months with earlier | ⟨same, day⟩
  · have next := monthStart_le (show d.monthIndex + 1 ≤ e.monthIndex by omega)
    omega
  · rw [same] at start
    omega

theorem eq_iff {d e : Date} : d = e ↔ d.year = e.year ∧ d.month = e.month ∧ d.day = e.day := by
  cases d
  cases e
  rw [mk.injEq]

theorem dayNumber_lt_iff {d e : Date} (valid : d.IsValid) (valid' : e.IsValid) :
    d.dayNumber < e.dayNumber ↔ d < e := by
  constructor
  · intro less
    by_contra notLess
    have other : e < d ∨ d = e := by
      rw [lt_iff] at notLess ⊢
      rw [eq_iff]
      omega
    rcases other with more | rfl
    · exact absurd (dayNumber_lt valid' valid more) (by omega)
    · exact absurd less (by omega)
  · exact dayNumber_lt valid valid'

end Date

/-! ## Instants -/

namespace Instant

/-- Instants are compared by their seconds, and then by what is past the second, a leap second
included. -/
instance : LT Instant :=
  ⟨fun t u => t.seconds < u.seconds ∨ t.seconds = u.seconds ∧ t.nanos < u.nanos⟩

instance : LE Instant :=
  ⟨fun t u => t.seconds < u.seconds ∨ t.seconds = u.seconds ∧ t.nanos ≤ u.nanos⟩

theorem lt_iff {t u : Instant} :
    t < u ↔ t.seconds < u.seconds ∨ t.seconds = u.seconds ∧ t.nanos < u.nanos := Iff.rfl

theorem not_lt {t u : Instant} : ¬ t < u ↔ u ≤ t := by
  change ¬ (t.seconds < u.seconds ∨ t.seconds = u.seconds ∧ t.nanos < u.nanos) ↔
    u.seconds < t.seconds ∨ u.seconds = t.seconds ∧ u.nanos ≤ t.nanos
  omega

/-- The year is written with four digits and no sign. -/
def HasPlainYear (t : Instant) : Prop := 0 ≤ t.date.year ∧ t.date.year ≤ 9999

theorem dayNumber_date (t : Instant) : t.date.dayNumber = t.dayNumber :=
  Date.dayNumber_ofDayNumber t.dayNumber

theorem date_lt_iff (t u : Instant) : t.date < u.date ↔ t.dayNumber < u.dayNumber := by
  rw [← Date.dayNumber_lt_iff t.isValid_date u.isValid_date, dayNumber_date, dayNumber_date]

theorem date_eq_iff (t u : Instant) : t.date = u.date ↔ t.dayNumber = u.dayNumber := by
  constructor
  · intro same
    rw [← dayNumber_date, same, dayNumber_date]
  · exact congrArg Date.ofDayNumber

/-- Texts of plain years are compared by date, and then by time of day. -/
theorem storedChars_lt_iff {t u : Instant} (plain : t.HasPlainYear) (plain' : u.HasPlainYear) :
    t.storedChars < u.storedChars ↔ t.date < u.date ∨ t.date = u.date ∧
      (t.hour < u.hour ∨ t.hour = u.hour ∧
        (t.minute < u.minute ∨ t.minute = u.minute ∧ t.second < u.second)) := by
  obtain ⟨month, day⟩ := t.date_bounds
  obtain ⟨month', day'⟩ := u.date_bounds
  obtain ⟨hour, minute, second, _, _⟩ := t.clock_bounds
  obtain ⟨hour', minute', second', _, _⟩ := u.clock_bounds
  have last := @paddedDigits_lt_iff 2 t.second u.second (by decide) (by omega) (by omega) [] []
  simp only [List.append_nil, List.lt_irrefl, and_false, or_false] at last
  unfold HasPlainYear at plain plain'
  simp only [storedChars, Date.chars, yearChars, if_pos plain, if_pos plain', clockChars,
    List.append_assoc, List.cons_append]
  simp (disch := omega) only [paddedDigits_lt_iff, List.cons_lt_cons_self, last]
  rw [Date.lt_iff, Date.eq_iff]
  omega

/-- The time of day is that of the second, and a leap second is the last one of its minute. -/
theorem clock_lt_iff (t u : Instant) :
    (t.hour < u.hour ∨ t.hour = u.hour ∧
      (t.minute < u.minute ∨ t.minute = u.minute ∧ t.second < u.second)) ↔
    t.secondOfDay < u.secondOfDay ∨ t.secondOfDay = u.secondOfDay ∧
      t.isLeapSecond = false ∧ u.isLeapSecond = true := by
  obtain ⟨_, minute, second, leap, ofDay⟩ := t.clock_bounds
  obtain ⟨_, minute', second', leap', ofDay'⟩ := u.clock_bounds
  rw [← leap', ← Bool.not_eq_true, ← leap]
  split at ofDay <;> split at ofDay' <;> omega

theorem seconds_eq (t : Instant) : t.seconds = 86400 * t.dayNumber + t.secondOfDay := by
  rw [dayNumber, secondOfDay]
  omega

theorem truncated_lt_iff (t u : Instant) :
    t.truncated < u.truncated ↔ t.seconds < u.seconds ∨ t.seconds = u.seconds ∧
      t.isLeapSecond = false ∧ u.isLeapSecond = true := by
  rw [lt_iff]
  cases leap : t.isLeapSecond <;> cases leap' : u.isLeapSecond <;> simp [truncated, leap, leap']

/-- The texts of stored dates are in the order of their instants at the whole second. -/
theorem stored_lt_iff {t u : Instant} (plain : t.HasPlainYear) (plain' : u.HasPlainYear) :
    t.stored < u.stored ↔ t.truncated < u.truncated := by
  have chars : t.stored < u.stored ↔ t.storedChars < u.storedChars := by
    rw [stored, stored, String.lt_iff, String.toList_ofList, String.toList_ofList]
  have inDay : t.secondOfDay < 86400 := by
    rw [secondOfDay]
    omega
  have inDay' : u.secondOfDay < 86400 := by
    rw [secondOfDay]
    omega
  rw [chars, storedChars_lt_iff plain plain', date_lt_iff, date_eq_iff, clock_lt_iff,
    truncated_lt_iff, seconds_eq t, seconds_eq u]
  by_cases leaps : t.isLeapSecond = false ∧ u.isLeapSecond = true
  · simp only [leaps, and_self, and_true]
    omega
  · simp only [leaps, and_false, or_false]
    omega

theorem stored_le_iff {t u : Instant} (plain : t.HasPlainYear) (plain' : u.HasPlainYear) :
    t.stored ≤ u.stored ↔ t.truncated ≤ u.truncated := by
  rw [← String.not_lt, stored_lt_iff plain' plain, not_lt]

/-- Stored dates are the same exactly if their instants are at the whole second. -/
theorem stored_eq_iff (t u : Instant) : t.stored = u.stored ↔ t.truncated = u.truncated := by
  constructor
  · intro same
    have read := t.read?_stored
    rw [same, read?_stored] at read
    exact (Option.some.inj read).symm
  · intro same
    have fields : t.seconds = u.seconds ∧ t.isLeapSecond = u.isLeapSecond := by
      simp only [truncated, mk.injEq] at same
      refine ⟨same.1, ?_⟩
      cases leap : t.isLeapSecond <;> cases leap' : u.isLeapSecond <;> simp_all
    have clock : t.clockChars = u.clockChars := by
      simp only [clockChars, hour, minute, second, secondOfDay, fields]
    rw [stored, stored, storedChars, storedChars, date, date, dayNumber, dayNumber, fields.1, clock]

end Instant

/-! ## Comparisons in a column -/

/-- Whether a value compares with a bound as an operator asks. -/
def Operator.Compares {α : Type} [LT α] [LE α] : Operator → α → α → Prop
  | .gt, a, bound => bound < a
  | .gte, a, bound => bound ≤ a
  | .lt, a, bound => a < bound
  | .lte, a, bound => a ≤ bound
  | _, _, _ => False

section Column

variable {p : Property} {d : Dialect} {field : String}

theorem store_date (dated : p.kind = .date) (t : Instant) :
    store (some p) (.date t) = .text t.stored := by
  simp [store, Value.isNull, dated, storeDate, Value.instant?]

theorem literal_date (dated : p.kind = .date) (t : Instant) :
    literal (some p) (.date t) = .cell (.text t.stored) := by
  rw [literal, store_date dated]
  simp

/-- A date column is compared with the text of a bound. -/
theorem operatorAtom_ordering (dated : p.kind = .date) {op : Operator}
    (ordering : op ∈ [Operator.gt, .gte, .lt, .lte]) (u : Instant) :
    operatorAtom d field (some p) op (.value (.date u)) =
      .ok (.compare field op.token (.cell (.text u.stored))) := by
  simp only [List.mem_cons, List.not_mem_nil, or_false] at ordering
  rcases ordering with rfl | rfl | rfl | rfl <;> simp only [operatorAtom, literal_date dated]

/-- The bounds of a range of dates are texts, each under the function for dates. -/
theorem operatorAtom_dates (dated : p.kind = .date) (u v : Instant) :
    operatorAtom d field (some p) .between (.list [.date u, .date v]) =
      .ok (.range field (some d.dateFunction) (.cell (.text u.stored))
        (.cell (.text v.stored))) := by
  simp only [operatorAtom, literal_date dated, Option.map_some, dated, if_true]

end Column

theorem Operator.compares_stored {t u : Instant} (plain : t.HasPlainYear) (plain' : u.HasPlainYear)
    (op : Operator) : op.Compares t.stored u.stored ↔ op.Compares t.truncated u.truncated := by
  cases op with
  | gt => exact Instant.stored_lt_iff plain' plain
  | gte => exact Instant.stored_le_iff plain' plain
  | lt => exact Instant.stored_lt_iff plain plain'
  | lte => exact Instant.stored_le_iff plain plain'
  | _ => exact Iff.rfl

/-- Years of four digits make text order the order of time. So where a date column is compared with
a bound, kept between two of them or sorted, each as text, the instants at their whole seconds are
compared. -/
theorem dates_ordered_as_texts {t u : Instant} (plain : t.HasPlainYear)
    (plain' : u.HasPlainYear) :
    (t.stored < u.stored ↔ t.truncated < u.truncated) ∧
      (t.stored = u.stored ↔ t.truncated = u.truncated) ∧
      (∀ p : Property, p.kind = .date → ∀ (d : Dialect) (field : String),
        store (some p) (.date t) = .text t.stored ∧
        (∀ op ∈ [Operator.gt, .gte, .lt, .lte],
          operatorAtom d field (some p) op (.value (.date u)) =
            .ok (.compare field op.token (.cell (.text u.stored))) ∧
          (op.Compares t.stored u.stored ↔ op.Compares t.truncated u.truncated)) ∧
        ∀ v : Instant, v.HasPlainYear →
          operatorAtom d field (some p) .between (.list [.date u, .date v]) =
            .ok (.range field (some d.dateFunction) (.cell (.text u.stored))
              (.cell (.text v.stored))) ∧
          (u.stored ≤ t.stored ∧ t.stored ≤ v.stored ↔
            u.truncated ≤ t.truncated ∧ t.truncated ≤ v.truncated)) ∧
      ∀ ts : List Instant, (∀ t ∈ ts, t.HasPlainYear) →
        ((ts.map Instant.stored).Pairwise (· ≤ ·) ↔
          (ts.map Instant.truncated).Pairwise (· ≤ ·)) := by
  refine ⟨Instant.stored_lt_iff plain plain', t.stored_eq_iff u, fun p dated d field =>
    ⟨store_date dated t, fun op ordering => ?_, fun v plain'' => ?_⟩, fun ts plains => ?_⟩
  · exact ⟨operatorAtom_ordering dated ordering u, op.compares_stored plain plain'⟩
  · refine ⟨operatorAtom_dates dated u v, ?_⟩
    rw [Instant.stored_le_iff plain' plain, Instant.stored_le_iff plain plain'']
  · rw [List.pairwise_map, List.pairwise_map]
    exact List.Pairwise.iff_of_mem fun first second =>
      Instant.stored_le_iff (plains _ first) (plains _ second)

/-- The last second of 2016, the leap second behind it and the first second of 2017. -/
theorem dates_ordered_as_texts_leap :
    let t : Instant := ⟨1483228799, 999999999, by decide, by decide⟩
    let u : Instant := ⟨1483228799, 1500000000, by decide, by decide⟩
    let v : Instant := ⟨1483228800, 0, by decide, by decide⟩
    t.HasPlainYear ∧ u.HasPlainYear ∧ v.HasPlainYear ∧
      t.stored = "2016-12-31 23:59:59" ∧ u.stored = "2016-12-31 23:59:60" ∧
      v.stored = "2017-01-01 00:00:00" ∧ t.truncated < u.truncated ∧ t.stored < u.stored ∧
      (u.stored < v.stored ↔ u.truncated < v.truncated) ∧
      operatorAtom .sqlite "at" (some .date) .gte (.value (.date u)) =
        .ok (.compare "at" ">=" (.cell (.text "2016-12-31 23:59:60"))) := by
  intro t u v
  have years : t.HasPlainYear ∧ u.HasPlainYear ∧ v.HasPlainYear := by
    unfold Instant.HasPlainYear
    decide
  obtain ⟨plain, plain', plain''⟩ := years
  have texts : t.stored = "2016-12-31 23:59:59" ∧ u.stored = "2016-12-31 23:59:60" ∧
      v.stored = "2017-01-01 00:00:00" := by decide +kernel
  have earlier : t.truncated < u.truncated := Instant.lt_iff.mpr (by decide)
  obtain ⟨less, _, column, _⟩ := dates_ordered_as_texts plain plain'
  have sent := ((column .date rfl .sqlite "at").2.1 .gte (by decide)).1
  rw [texts.2.1] at sent
  exact ⟨plain, plain', plain'', texts.1, texts.2.1, texts.2.2, earlier, less.mpr earlier,
    (dates_ordered_as_texts plain' plain'').1, sent⟩

end SqlMapper
