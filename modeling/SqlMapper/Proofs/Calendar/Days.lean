import Mathlib.Tactic.IntervalCases
import SqlMapper.Calendar.Date

/-! # Days and their numbers

The date of a number has that number, and it is a date that exists. Both are seen on the year that
begins in March: `ofDayNumber` finds the year and the day in it by taking off cycles, and only then
looks for the month, so the two steps are described one after the other.
-/

namespace SqlMapper.Date

/-- The date of a day of a year that begins in March, both counted from zero. -/
def ofYearDay (year inYear : Int) : Date :=
  let month := (5 * inYear + 2) / 153
  { year := if month < 10 then year else year + 1
    month := (if month < 10 then month + 3 else month - 9).toNat
    day := (inYear - daysBeforeMonth month + 1).toNat }

/-- Days from the first of March of year 0 to that of another year. -/
def daysBeforeYear (year : Int) : Int := 365 * year + year / 4 - year / 100 + year / 400

/-- The cycles of a number: a day in a year, and the last day only of a leap year. -/
theorem ofDayNumber_eq (n : Int) :
    ∃ year inYear : Int, ofDayNumber n = ofYearDay year inYear ∧
      0 ≤ inYear ∧ inYear ≤ 365 ∧ (inYear = 365 → isLeap (year + 1) = true) ∧
      daysBeforeYear year + inYear = n + 719468 := by
  let days := n + 719468
  let inEra := days % 146097
  let century := min 3 (inEra / 36524)
  let inCentury := inEra - 36524 * century
  let four := inCentury / 1461
  let inFour := inCentury - 1461 * four
  let one := min 3 (inFour / 365)
  let inYear := inFour - 365 * one
  let year := 400 * (days / 146097) + 100 * century + 4 * four + one
  have centuries : 0 ≤ century ∧ century ≤ 3 := by omega
  have fours : 0 ≤ four ∧ four ≤ 24 := by omega
  have ones : 0 ≤ one ∧ one ≤ 3 := by omega
  have inside : 0 ≤ inYear ∧ inYear ≤ 365 := by omega
  have total : n + 719468 = 146097 * (days / 146097) + 36524 * century + 1461 * four +
      365 * one + inYear := by omega
  -- A year has a last day only as the last of its four, and that only if a century follows
  -- that is the last of its era or none at all.
  have last : inYear = 365 → one = 3 ∧ (four = 24 → century = 3) := by omega
  refine ⟨year, inYear, rfl, inside.1, inside.2, fun full => ?_, ?_⟩
  · obtain ⟨closing, closes⟩ := last full
    have byFour : (year + 1) % 4 = 0 := by omega
    have byCentury : (year + 1) % 100 = 0 → (year + 1) % 400 = 0 := by omega
    simp only [isLeap, byFour, Bool.and_eq_true, Bool.or_eq_true, bne_iff_ne, beq_iff_eq]
    exact ⟨trivial, or_iff_not_imp_left.mpr fun century => byCentury (not_not.mp century)⟩
  · have quarter : year / 4 = 100 * (days / 146097) + 25 * century + four := by omega
    have hundredth : year / 100 = 4 * (days / 146097) + century := by omega
    have fourHundredth : year / 400 = days / 146097 := by omega
    rw [daysBeforeYear, quarter, hundredth, fourHundredth]
    omega

/-- The months of a year that begins in March. -/
theorem month_bounds {inYear month : Int} (low : 0 ≤ inYear) (high : inYear ≤ 365)
    (found : (5 * inYear + 2) / 153 = month) :
    0 ≤ month ∧ month ≤ 11 ∧ daysBeforeMonth month ≤ inYear := by
  rw [daysBeforeMonth]
  omega

theorem dayNumber_ofYearDay {year inYear : Int} (low : 0 ≤ inYear) (high : inYear ≤ 365) :
    (ofYearDay year inYear).dayNumber = daysBeforeYear year + inYear - 719468 := by
  simp only [ofYearDay]
  generalize found : (5 * inYear + 2) / 153 = month
  obtain ⟨first, last, before⟩ := month_bounds low high found
  by_cases early : month < 10
  · have number : ((month + 3).toNat : Int) - 3 = month := by omega
    have spring : 3 ≤ (month + 3).toNat := by omega
    simp only [dayNumber, early, if_true, spring, number, daysBeforeYear]
    omega
  · have number : ((month - 9).toNat : Int) + 9 = month := by omega
    have winter : ¬ 3 ≤ (month - 9).toNat := by omega
    simp only [dayNumber, early, if_false, winter, number, daysBeforeYear, add_sub_cancel_right]
    omega

/-- The month is one of twelve, and it has such a day. -/
theorem ofYearDay_day {year inYear : Int} (low : 0 ≤ inYear) (high : inYear ≤ 365)
    (leap : inYear = 365 → isLeap (year + 1) = true) :
    let d := ofYearDay year inYear
    1 ≤ d.month ∧ d.month ≤ 12 ∧ 1 ≤ d.day ∧ d.day ≤ daysInMonth d.year d.month := by
  simp only [ofYearDay]
  generalize found : (5 * inYear + 2) / 153 = month
  obtain ⟨first, last, before⟩ := month_bounds low high found
  simp only [daysBeforeMonth] at before ⊢
  interval_cases month
  case «11» =>
    by_cases common : isLeap (year + 1) = true
    · simp [daysInMonth, common]
      omega
    · have notLast : inYear ≠ 365 := fun full => common (leap full)
      simp [daysInMonth, common]
      omega
  all_goals
    simp [daysInMonth]
    omega

/-- The date of a number has that number. -/
theorem dayNumber_ofDayNumber (n : Int) : (ofDayNumber n).dayNumber = n := by
  obtain ⟨year, inYear, same, low, high, _, total⟩ := ofDayNumber_eq n
  rw [same, dayNumber_ofYearDay low high]
  omega

theorem isValid_ofDayNumber {n : Int} (low : -96465292 ≤ n) (high : n ≤ 95026236) :
    (ofDayNumber n).IsValid := by
  obtain ⟨year, inYear, same, first, last, leap, total⟩ := ofDayNumber_eq n
  have day := ofYearDay_day first last leap
  rw [daysBeforeYear] at total
  have bounds : -262144 ≤ year ∧ year ≤ 262142 := by omega
  -- The first and the last year are not complete: each is joined by January and February of a
  -- year that begins in March.
  have opening : year = -262144 → 306 ≤ inYear := by
    rintro rfl
    omega
  have closing : year = 262142 → inYear ≤ 305 := by
    rintro rfl
    omega
  have year_bounds : minYear ≤ (ofYearDay year inYear).year ∧
      (ofYearDay year inYear).year ≤ maxYear := by
    simp only [ofYearDay, minYear, maxYear]
    split <;> omega
  rw [same]
  exact ⟨year_bounds.1, year_bounds.2, day⟩

end SqlMapper.Date
