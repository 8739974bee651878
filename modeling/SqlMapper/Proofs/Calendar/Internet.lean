import SqlMapper.Proofs.Calendar.Order

/-! # Dates of the internet standard are read back

The form of the internet standard keeps the nanoseconds and names the offset of its clock. A date in
this form is read before any lenient form is tried, and it is read as its instant, whatever offset
it is written for: the fields show the local second, and taking the offset off again gives the
second in universal time. A whole number of minutes leaves the place of a second in its minute as it
is, so a leap second is one on every such clock.
-/

namespace SqlMapper

open Text

/-! ## Local time -/

def ClockTime.chars (c : ClockTime) : List Char :=
  paddedDigits 2 c.hour ++ ':' :: (paddedDigits 2 c.minute ++ ':' :: paddedDigits 2 c.second)

/-- An offset in minutes, written with a sign as hours and minutes. -/
def offsetChars (minutes : Int) : List Char :=
  (if minutes < 0 then '-' else '+') ::
    (paddedDigits 2 (minutes.natAbs / 60) ++ ':' :: paddedDigits 2 (minutes.natAbs % 60))

namespace Instant

/-- The date at an instant where clocks are some minutes ahead of universal time. -/
def localDate (t : Instant) (minutes : Int) : Date :=
  Date.ofDayNumber ((t.seconds + 60 * minutes) / 86400)

/-- The time of day at an instant where clocks are some minutes ahead of universal time. -/
def localClock (t : Instant) (minutes : Int) : ClockTime :=
  let ofDay := ((t.seconds + 60 * minutes) % 86400).toNat
  { hour := ofDay / 3600
    minute := ofDay / 60 % 60
    second := ofDay % 60 + if t.isLeapSecond then 1 else 0
    nanos := t.subsecond }

/-- The form of the internet standard on a clock that is some minutes ahead of universal time. -/
def internetAt (t : Instant) (minutes : Int) : String :=
  String.ofList ((t.localDate minutes).chars ++
    'T' :: ((t.localClock minutes).chars ++ (t.fractionChars ++ offsetChars minutes)))

theorem localDate_zero (t : Instant) : t.localDate 0 = t.date := by
  simp [localDate, date, dayNumber]

theorem internetAt_zero (t : Instant) : t.internetAt 0 = t.internet := by
  have clock : (t.localClock 0).chars = t.clockChars := by
    simp [ClockTime.chars, localClock, clockChars, hour, minute, second, secondOfDay]
  have offset : offsetChars 0 = ['+', '0', '0', ':', '0', '0'] := by decide +kernel
  rw [internetAt, internet, clock, localDate_zero, offset, List.append_assoc]

/-- The local second is the second of the instant, moved by the offset. -/
theorem local_bounds (t : Instant) (minutes : Int) :
    let c := t.localClock minutes
    c.IsValid ∧ (c.second = 60 ↔ t.isLeapSecond = true) ∧
      (t.localDate minutes).dayNumber * 86400 +
        ((c.hour * 3600 + c.minute * 60 + if c.second = 60 then 59 else c.second : Nat) : Int) =
          t.seconds + 60 * minutes := by
  have part : t.subsecond < 1000000000 := Nat.mod_lt _ (by decide)
  have days : (t.localDate minutes).dayNumber = (t.seconds + 60 * minutes) / 86400 :=
    Date.dayNumber_ofDayNumber _
  simp only [ClockTime.IsValid, localClock, days, part]
  by_cases leap : t.isLeapSecond = true
  · have minuteEnd := t.leapAtMinuteEnd.2 (of_decide_eq_true leap)
    have sixty : ((t.seconds + 60 * minutes) % 86400).toNat % 60 + 1 = 60 := by omega
    simp only [leap, if_true, sixty, and_true, true_and]
    omega
  · have common : ((t.seconds + 60 * minutes) % 86400).toNat % 60 ≠ 60 := by omega
    simp only [leap, if_false, Nat.add_zero, common, Bool.false_eq_true, and_true, true_and]
    omega

/-- An instant is the one at which a clock with an offset shows its local time. -/
theorem ofCivil?_local {t : Instant} {minutes : Int} (valid : (t.localDate minutes).IsValid) :
    ofCivil? (t.localDate minutes) (t.localClock minutes) (60 * minutes) = some t := by
  obtain ⟨clock, leap, total⟩ := t.local_bounds minutes
  have nanos : (if (t.localClock minutes).second = 60 then t.subsecond + 1000000000
      else t.subsecond) = t.nanos := by
    have bound := t.leapAtMinuteEnd.1
    simp only [leap, isLeapSecond, decide_eq_true_eq, subsecond]
    split <;> omega
  have seconds := Int.sub_eq_iff_eq_add.mpr total
  rw [ofCivil?, if_pos ⟨valid, clock⟩, ← of?_fields t, ← nanos, ← seconds]
  rfl

end Instant

/-! ## Fields -/

namespace Scan

/-- A fraction has the digits of its nanoseconds up to some place. -/
theorem fraction_padded (width n : Nat) (positive : 0 < width) (narrow : width ≤ 9)
    (small : n < 10 ^ width) {rest : List Char} (ends : ∀ c ∈ rest.head?, c.isDigit = false) :
    fraction ('.' :: (paddedDigits width n ++ rest)) = some (n * pow10 (9 - width), rest) := by
  have length := length_paddedDigits positive small
  have short : (paddedDigits width n).take 9 = paddedDigits width n :=
    List.take_of_length_le (by omega)
  rw [fraction, spanDigits_append (allDigits_paddedDigits width n) ends]
  split
  · next none => exact absurd (congrArg Prod.fst none) (paddedDigits_ne_nil width n)
  · next digits other _ same =>
    cases same
    rw [nanosOf, short, digitsValue_paddedDigits, length]

theorem optionalFraction_chars (t : Instant) (minutes : Int) :
    optionalFraction (t.fractionChars ++ offsetChars minutes) =
      some (t.subsecond, offsetChars minutes) := by
  have bound : t.subsecond < 1000000000 := Nat.mod_lt _ (by decide)
  have ends : ∀ c ∈ (offsetChars minutes).head?, c.isDigit = false := by
    intro c first
    obtain rfl : (if minutes < 0 then '-' else '+') = c := Option.some_inj.mp first
    split <;> rfl
  rw [Instant.fractionChars]
  split
  · next zero =>
    rw [zero, List.nil_append, offsetChars]
    split <;> rfl
  · split
    · next thousandths =>
      have field := fraction_padded 3 (t.subsecond / 1000000) (by decide) (by decide)
        (by omega) ends
      have value : t.subsecond / 1000000 * pow10 (9 - 3) = t.subsecond := by
        change t.subsecond / 1000000 * 1000000 = t.subsecond
        omega
      rwa [value] at field
    · split
      · next millionths =>
        have field := fraction_padded 6 (t.subsecond / 1000) (by decide) (by decide)
          (by omega) ends
        have value : t.subsecond / 1000 * pow10 (9 - 6) = t.subsecond := by
          change t.subsecond / 1000 * 1000 = t.subsecond
          omega
        rwa [value] at field
      · have field := fraction_padded 9 t.subsecond (by decide) (by decide) (by omega) ends
        have value : t.subsecond * pow10 (9 - 9) = t.subsecond := Nat.mul_one _
        rwa [value] at field

theorem hoursMinutes_chars (sign : Int) {minutes : Nat} (day : minutes < 1440) :
    offset.hoursMinutes sign
      (paddedDigits 2 (minutes / 60) ++ ':' :: paddedDigits 2 (minutes % 60)) =
        some (sign * (60 * minutes : Nat), []) := by
  have last := fixed_padded (n := minutes % 60) (by omega) []
  rw [List.append_nil] at last
  have range : minutes / 60 < 24 ∧ minutes % 60 < 60 := by omega
  have total : minutes / 60 * 3600 + minutes % 60 * 60 = 60 * minutes := by omega
  simp only [offset.hoursMinutes, fixed_padded (n := minutes / 60) (by omega), last, char, if_true,
    range, and_self, total, bind, Option.bind]

/-- An offset of less than a day. -/
theorem offset_chars {minutes : Int} (low : -1440 < minutes) (high : minutes < 1440) :
    offset (offsetChars minutes) = some (60 * minutes, []) := by
  have day : minutes.natAbs < 1440 := by omega
  rw [offsetChars]
  split
  · next behind =>
    have value : -1 * ((60 * minutes.natAbs : Nat) : Int) = 60 * minutes := by omega
    rw [offset, hoursMinutes_chars (-1) day, value]
  · next ahead =>
    have value : 1 * ((60 * minutes.natAbs : Nat) : Int) = 60 * minutes := by omega
    rw [offset, hoursMinutes_chars 1 day, value]

end Scan

/-! ## The whole text -/

/-- The date of a number exists if its year can be represented. -/
theorem Date.isValid_of_year {n : Int} (low : minYear ≤ (ofDayNumber n).year)
    (high : (ofDayNumber n).year ≤ maxYear) : (ofDayNumber n).IsValid := by
  obtain ⟨year, inYear, same, first, last, leap, _⟩ := ofDayNumber_eq n
  rw [same] at low high ⊢
  exact ⟨low, high, ofYearDay_day first last leap⟩

namespace Instant

variable {t : Instant} {minutes : Int}

theorem isValid_localDate (low : 0 ≤ (t.localDate minutes).year)
    (high : (t.localDate minutes).year ≤ 9999) : (t.localDate minutes).IsValid := by
  apply Date.isValid_of_year
  · exact le_trans (by decide) low
  · exact le_trans high (by decide)

/-- The form of the internet standard is read to its end, and with its offset taken off it is the
instant. -/
theorem readInternet?_internetAt (behind : -1440 < minutes) (ahead : minutes < 1440)
    (low : 0 ≤ (t.localDate minutes).year) (high : (t.localDate minutes).year ≤ 9999) :
    readInternet? (t.internetAt minutes).toList = some t := by
  have valid := isValid_localDate low high
  obtain ⟨⟨hour, minute, second, _⟩, _, _⟩ := t.local_bounds minutes
  obtain ⟨month, day⟩ := valid.bounds
  have year := Scan.fixed_digits (allDigits_paddedDigits 4 (t.localDate minutes).year.toNat)
    (length_paddedDigits (by decide) (by omega))
  have same : ((t.localDate minutes).year.toNat : Int) = (t.localDate minutes).year :=
    Int.toNat_of_nonneg low
  rw [internetAt, String.toList_ofList, readInternet?, Date.chars, yearChars, if_pos ⟨low, high⟩]
  simp only [ClockTime.chars, List.append_assoc, List.cons_append, year, digitsValue_paddedDigits,
    Scan.fixed_padded month, Scan.fixed_padded day,
    Scan.fixed_padded (n := (t.localClock minutes).hour) (by omega),
    Scan.fixed_padded (n := (t.localClock minutes).minute) (by omega),
    Scan.fixed_padded (n := (t.localClock minutes).second) (by omega), Scan.char, if_true,
    Scan.optionalFraction_chars, Scan.offset_chars behind ahead, Scan.whole?, bind, Option.bind,
    same]
  exact ofCivil?_local valid

theorem trim_internetAt (t : Instant) (minutes : Int) :
    trim (t.internetAt minutes).toList = (t.internetAt minutes).toList := by
  obtain ⟨c, cs, written, solid⟩ := yearChars_starts (t.localDate minutes).year
  have text : (t.internetAt minutes).toList = c :: (cs ++ '-' ::
      (paddedDigits 2 (t.localDate minutes).month ++ '-' ::
        (paddedDigits 2 (t.localDate minutes).day ++ 'T' :: ((t.localClock minutes).chars ++
          (t.fractionChars ++ (if minutes < 0 then '-' else '+') ::
            (paddedDigits 2 (minutes.natAbs / 60) ++ [':'])))))) ++
      paddedDigits 2 (minutes.natAbs % 60) := by
    simp [internetAt, Date.chars, offsetChars, written]
  rw [text, trim_eq_self solid (paddedDigits_ne_nil 2 _) (allDigits_paddedDigits 2 _)]

/-- No lenient form comes before that of the internet standard. -/
theorem read?_internetAt (behind : -1440 < minutes) (ahead : minutes < 1440)
    (low : 0 ≤ (t.localDate minutes).year) (high : (t.localDate minutes).year ≤ 9999) :
    read? (t.internetAt minutes) = some t := by
  rw [read?, trim_internetAt, readInternet?_internetAt behind ahead low high]
  rfl

/-- An instant of a plain year is read from its own form, to the nanosecond. -/
theorem read?_internet (plain : t.HasPlainYear) : read? t.internet = some t := by
  rw [← internetAt_zero]
  apply read?_internetAt (by decide) (by decide)
  · exact t.localDate_zero ▸ plain.1
  · exact t.localDate_zero ▸ plain.2

end Instant

/-- The text that an instant of a plain year becomes in a document is read as the same instant to
the nanosecond, so a date column stores the text as it stores the instant. The forms for other
offsets are read as this instant, too. -/
theorem date_survives_document {t : Instant} (plain : t.HasPlainYear) :
    (∃ text, (Value.date t).toJson = .string text ∧ text = t.internetAt 0 ∧
      Instant.read? text = some t) ∧
    (∀ p : Property, p.kind = .date →
      store (some p) (Value.ofJson (Value.date t).toJson) = store (some p) (.date t)) ∧
    ∀ minutes : Int, -1440 < minutes → minutes < 1440 →
      0 ≤ (t.localDate minutes).year → (t.localDate minutes).year ≤ 9999 →
        Instant.read? (t.internetAt minutes) = some t := by
  have read := Instant.read?_internet plain
  refine ⟨⟨t.internet, rfl, t.internetAt_zero.symm, read⟩, fun p dated => ?_,
    fun minutes behind ahead low high => Instant.read?_internetAt behind ahead low high⟩
  have text : store (some p) (.text t.internet) = .text t.stored := by
    simp [store, Value.isNull, dated, storeDate, Value.instant?, read]
  exact text.trans (store_date dated t).symm

/-- The leap second at the end of 2016, half of it past. On the clocks of India it is in 2017. -/
theorem date_survives_document_leap :
    let t : Instant := ⟨1483228799, 1500000000, by decide, by decide⟩
    t.HasPlainYear ∧ (t.localDate 330).year = 2017 ∧
      (Value.date t).toJson = .string "2016-12-31T23:59:60.500+00:00" ∧
      Instant.read? "2016-12-31T23:59:60.500+00:00" = some t ∧
      Instant.read? "2017-01-01T05:29:60.500+05:30" = some t ∧
      store (some .date) (.text "2016-12-31T23:59:60.500+00:00") =
        .text "2016-12-31 23:59:60" := by
  intro t
  have plain : t.HasPlainYear := by
    unfold Instant.HasPlainYear
    decide
  have year : (t.localDate 330).year = 2017 := by decide
  have universal : t.internet = "2016-12-31T23:59:60.500+00:00" := by decide +kernel
  have india : t.internetAt 330 = "2017-01-01T05:29:60.500+05:30" := by decide +kernel
  have stored : t.stored = "2016-12-31 23:59:60" := by decide +kernel
  obtain ⟨⟨text, written, _, read⟩, column, clocks⟩ := date_survives_document plain
  cases written
  have kept := (column .date rfl).trans (store_date rfl t)
  have elsewhere := clocks 330 (by decide) (by decide) (by decide) (by decide)
  rw [universal] at read
  rw [india] at elsewhere
  rw [stored] at kept
  exact ⟨plain, year, congrArg Json.string universal, read, elsewhere, universal ▸ kept⟩

end SqlMapper
