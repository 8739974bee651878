import SqlMapper.Proofs.Number.Integral
import SqlMapper.Proofs.Query.Update

/-! # The row of an update

The row that an update is for is the one of the integer under the key. A value denotes an integer if
it is one, is equal to one as a float, or spells one in decimal. What is taken for the identity is
the integer that is denoted, with one exception: a float beyond the words of 64 bits is taken for
the last word on its side, which is the identity of another row. A document hands over its large
unsigned integers as such floats.
-/

namespace SqlMapper

open Text

namespace Value

/-- The integer that a value is, is equal to, or spells without the blanks around it. -/
inductive Denotes : Value → Int → Prop
  | int (n : Int64) : Denotes (.int n) n.toInt
  | float {x : Binary64} {n : Int} (finite : x.isFinite = true) (same : x.value = n) :
      Denotes (.float x) n
  | text {s n} (spelled : Text.Spells (Text.trim s.toList) n) : Denotes (.text s) n

/-- A float beyond the words of 64 bits, with the last word on its side. -/
inductive Saturates : Value → Int64 → Prop
  | above {x} {n : Int} (denoted : Denotes (.float x) n) (large : 9223372036854775807 < n) :
      Saturates (.float x) Int64.maxValue
  | below {x} {n : Int} (denoted : Denotes (.float x) n) (small : n < -9223372036854775808) :
      Saturates (.float x) Int64.minValue

theorem denotes_float_iff {x : Binary64} {n : Int} :
    Denotes (.float x) n ↔ x.isFinite = true ∧ x.value = n := by
  constructor
  · rintro (_ | ⟨finite, same⟩)
    exact ⟨finite, same⟩
  · rintro ⟨finite, same⟩
    exact .float finite same

/-- A value denotes one integer at most. -/
theorem Denotes.unique {v : Value} {n k : Int} (first : v.Denotes n) (second : v.Denotes k) :
    n = k := by
  cases first with
  | int n =>
    cases second
    rfl
  | float finite same =>
    obtain ⟨_, same'⟩ := denotes_float_iff.mp second
    exact_mod_cast same.symm.trans same'
  | text spelled =>
    cases second with
    | text spelled' =>
      exact Option.some_inj.mp ((int?_eq_some_iff.mpr spelled).symm.trans
        (int?_eq_some_iff.mpr spelled'))

/-- What a float is taken for is not what it denotes if it is beyond the words. -/
theorem Saturates.not_denotes {v : Value} {n : Int64} (beyond : v.Saturates n) :
    ¬ v.Denotes n.toInt := by
  intro denoted
  have low := n.le_toInt
  have high := n.toInt_lt
  cases beyond with
  | above far large =>
    have same := far.unique denoted
    omega
  | below far small =>
    have same := far.unique denoted
    omega

theorem integer?_float {x : Binary64} {n : Int} (denoted : Denotes (.float x) n) :
    (Value.float x).integer? =
      some (Int64.ofInt (max (-9223372036854775808) (min 9223372036854775807 n))) := by
  obtain ⟨finite, same⟩ := denotes_float_iff.mp denoted
  rw [integer?, if_pos (Binary64.isIntegral_iff.mpr ⟨finite, n, same⟩),
    Binary64.clampToInt_eq same]

theorem integer?_float_iff (x : Binary64) (n : Int64) :
    (Value.float x).integer? = some n ↔
      (Value.float x).Denotes n.toInt ∨ (Value.float x).Saturates n := by
  constructor
  · intro taken
    have integral : x.isIntegral = true := by
      by_contra other
      rw [integer?, if_neg other] at taken
      cases taken
    obtain ⟨finite, k, same⟩ := Binary64.isIntegral_iff.mp integral
    have denoted : Denotes (.float x) k := .float finite same
    rw [integer?_float denoted, Option.some.injEq] at taken
    subst taken
    -- The clamped integer is the least word, the greatest one, or the integer itself.
    rcases lt_or_ge k (-9223372036854775808) with small | above
    · rw [min_eq_right (by omega), max_eq_left (by omega)]
      exact .inr (.below denoted small)
    · rcases lt_or_ge 9223372036854775807 k with large | below
      · rw [min_eq_left (by omega), max_eq_right (by omega)]
        exact .inr (.above denoted large)
      · rw [min_eq_right below, max_eq_right above,
          Int64.toInt_ofInt_of_le (by omega) (by omega)]
        exact .inl denoted
  · rintro (denoted | ⟨denoted, large⟩ | ⟨denoted, small⟩)
    · have low := n.le_toInt
      have high := n.toInt_lt
      rw [integer?_float denoted, min_eq_right (by omega), max_eq_right (by omega),
        Int64.ofInt_toInt]
    · rw [integer?_float denoted, min_eq_left (by omega)]
      rfl
    · rw [integer?_float denoted, min_eq_right (by omega), max_eq_left (by omega)]
      rfl

/-- The integer of a value is the one that it denotes, unless the value is a float beyond the words
of 64 bits. -/
theorem integer?_eq_some_iff {v : Value} {n : Int64} :
    v.integer? = some n ↔ v.Denotes n.toInt ∨ v.Saturates n := by
  cases v with
  | int k =>
    rw [integer?, Option.some.injEq]
    constructor
    · rintro rfl
      exact .inl (.int k)
    · rintro (denoted | beyond)
      · exact Int64.toInt_inj.mp ((Denotes.int k).unique denoted)
      · cases beyond
  | float x => exact integer?_float_iff x n
  | text s =>
    rw [integer?, int64?_eq_some_iff]
    constructor
    · exact fun spelled => .inl (.text spelled)
    · rintro (denoted | beyond)
      · cases denoted with
        | text spelled => exact spelled
      · cases beyond
  | _ =>
    constructor
    · nofun
    · rintro (denoted | beyond)
      · cases denoted
      · cases beyond

/-- A document hands over a signed word as it is. -/
theorem denotes_ofJson {n : Int} (low : -9223372036854775808 ≤ n)
    (high : n ≤ 9223372036854775807) : (Value.ofJson (.int n)).Denotes n := by
  have word : toInt64? n = some (Int64.ofInt n) := if_pos ⟨low, high⟩
  rw [ofJson, word]
  have same := Denotes.int (Int64.ofInt n)
  rwa [toInt64?_eq_some_iff.mp word] at same

/-- A document hands over a greater unsigned word as a float that is beyond the words. -/
theorem saturates_ofJson {n : Int} (low : 9223372036854775807 < n)
    (high : n < 18446744073709551616) : (Value.ofJson (.int n)).Saturates Int64.maxValue := by
  have noWord : toInt64? n = none := if_neg (by omega)
  obtain ⟨finite, k, same, large⟩ := Binary64.ofInt_large low high
  rw [ofJson, noWord]
  exact .above (.float finite same) large

end Value

namespace Mapper

/-- The row of an update is the one whose key is the integer that the data gives, exactly if the
value that gives it is no float beyond the words of 64 bits. For such a float the last word is
taken, and the large unsigned integers of a document become such floats. -/
theorem update_row_exact_iff {b : Mapper} {r : Record} {sql : String}
    (written : b.update r = .ok sql) :
    (∃ v id, Keyed.get? r idName = some v ∧ v.integer? = some id ∧
      b.dialect.idCondition id <:+ sql.toList ∧
      (b.dialect.IsKnown → ∃ u, b.dialect.tokens? sql.toList = some u.tokens ∧
        Update.ofTokens? u.tokens = some u ∧ u.key = idName ∧ u.row.stored? = some (.int id)) ∧
      (v.Denotes id.toInt ↔ ¬ v.Saturates id)) ∧
    (∀ v id, Value.integer? v = some id ↔ v.Denotes id.toInt ∨ v.Saturates id) ∧
    ∀ n : Int, -9223372036854775808 ≤ n → n < 18446744073709551616 →
      (Value.ofJson (.int n)).Denotes n ∧ n ≤ 9223372036854775807 ∨
        (Value.ofJson (.int n)).Saturates Int64.maxValue ∧ 9223372036854775807 < n := by
  refine ⟨?_, fun v id => Value.integer?_eq_some_iff, fun n low high => ?_⟩
  · obtain ⟨nonempty, id, identity, rfl⟩ := update_eq_ok written
    obtain ⟨v, given, taken⟩ := Option.bind_eq_some_iff.mp identity
    have text : (b.write (.update b.model.tableName (b.assignments r) id)).toList =
        b.dialect.statement (.update b.model.tableName (b.assignments r) id) :=
      String.toList_ofList
    have exact_iff : v.Denotes id.toInt ↔ ¬ v.Saturates id :=
      ⟨fun denoted beyond => beyond.not_denotes denoted,
        (Value.integer?_eq_some_iff.mp taken).resolve_right⟩
    refine ⟨v, id, given, taken, text ▸ List.suffix_append _ _, fun known => ?_, exact_iff⟩
    have read := Dialect.tokens?_update known b.model.tableName nonempty (assignments_cells r) id
    rw [← Update.tokens_ofAssignments] at read
    have row : (Stored.int id).token.stored? = some (.int id) :=
      Stored.stored?_token fun _ => Stored.noConfusion
    refine ⟨.ofAssignments b.model.tableName (b.assignments r) id, text ▸ read, ?_, rfl, row⟩
    rw [Update.tokens_ofAssignments]
    exact Update.ofTokens?_tokens b.model.tableName nonempty id
  · rcases lt_or_ge 9223372036854775807 n with large | small
    · exact .inr ⟨Value.saturates_ofJson large high, large⟩
    · exact .inl ⟨Value.denotes_ofJson low small, small⟩

/-- An identity given as text, with blanks around it, a sign and a leading zero. -/
theorem update_row_exact_iff_text :
    let b : Mapper := ⟨.sqlite, (Model.ofName "User").define "name" .string, .grouped⟩
    let r : Record := ⟨[("id", .text " -07\n"), ("name", .text "x")], by decide⟩
    let sql := "UPDATE `User` SET `name` = \x27x\x27 WHERE `id` = -7"
    b.update r = .ok sql ∧ (Value.text " -07\n").Denotes (-7) ∧
      b.dialect.idCondition (-7) <:+ sql.toList := by
  intro b r sql
  have identity : Record.id? r = some (-7) := by decide +kernel
  have declared : b.declaredFields r = [("name", .text "x")] := rfl
  have nonempty : b.declaredFields r ≠ [] := declared ▸ List.cons_ne_nil _ _
  have text : b.write (.update b.model.tableName (b.assignments r) (-7)) = sql := by decide +kernel
  have written : b.update r = .ok sql :=
    (update_assigned identity nonempty).trans (congrArg Except.ok text)
  obtain ⟨⟨v, id, given, taken, row, _, exact⟩, _⟩ := update_row_exact_iff written
  cases given
  obtain rfl : -7 = id := Option.some_inj.mp (identity.symm.trans taken)
  exact ⟨written, exact.mpr nofun, row⟩

/-- The greatest unsigned word comes out of a document as a float. The update is for the row of the
greatest signed word, which is neither of them. -/
theorem update_row_saturated :
    let b : Mapper := ⟨.sqlite, (Model.ofName "User").define "name" .string, .grouped⟩
    let large := Value.ofJson (.int 18446744073709551615)
    let r : Record := ⟨[("id", large), ("name", .text "x")], by decide⟩
    b.update r = .ok "UPDATE `User` SET `name` = \x27x\x27 WHERE `id` = 9223372036854775807" ∧
      large.integer? = some Int64.maxValue ∧ large.Denotes 18446744073709551616 ∧
      ¬ large.Denotes Int64.maxValue.toInt := by
  intro b large r
  have beyond : large.Saturates Int64.maxValue := Value.saturates_ofJson (by decide) (by decide)
  have identity : Record.id? r = some Int64.maxValue := Value.integer?_eq_some_iff.mpr (.inr beyond)
  have declared : b.declaredFields r = [("name", .text "x")] := rfl
  have nonempty : b.declaredFields r ≠ [] := declared ▸ List.cons_ne_nil _ _
  have text : b.write (.update b.model.tableName (b.assignments r) Int64.maxValue) =
      "UPDATE `User` SET `name` = \x27x\x27 WHERE `id` = 9223372036854775807" := by decide +kernel
  have rounded : Binary64.ofInt 18446744073709551615 =
      Binary64.ofNatBits false (1086 * pow2 52 + 4503599627370496) := by decide +kernel
  have float : large = .float (Binary64.ofNatBits false (1086 * pow2 52 + 4503599627370496)) :=
    congrArg Value.float rounded
  have denoted : large.Denotes 18446744073709551616 := by
    obtain ⟨finite, same⟩ := Binary64.value_ofNatBits (m := 4503599627370496) (by decide)
      (by decide) (by decide : 1086 < 2046)
    refine float ▸ .float finite (same.trans (by norm_num))
  exact ⟨(update_assigned identity nonempty).trans (congrArg Except.ok text), identity, denoted,
    beyond.not_denotes⟩

end Mapper

end SqlMapper
