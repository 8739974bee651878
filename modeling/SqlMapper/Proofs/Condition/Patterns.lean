import SqlMapper.Proofs.Condition.Refusal
import SqlMapper.Proofs.Lexis.Decoding

/-! # Which patterns are sent

A match against a pattern is asked for by the pattern itself, by an operator, or by a key that comes
to a match. The first two have their pattern checked; the operand of a key is text like any other
and is not. After the check a pattern is quoted, which drops its NUL characters. So what is sent is
a checked pattern as long as no key asks for a match and no pattern has a NUL character.
-/

namespace SqlMapper

open Text

/-- The tokens of a match against a pattern. -/
def matchTokens : List String := ["REGEXP", "NOT REGEXP"]

/-- The kinds of property whose column holds the text that a value has. -/
def Property.IsTextual (p : Property) : Prop := p.kind = .string ∨ p.kind = .text

/-- A field that is declared with text. -/
def Model.IsTextual (m : Model) (field : String) : Prop :=
  ∃ p, m.declaration? field = some p ∧ p.IsTextual

/-! ## Matches that are asked for -/

/-- An operator asks for a match against a literal. Its pattern is checked if the operator is the
one for patterns, and not if it is a key. -/
inductive Operator.Asks (declared : Option Property) : Operator → Operand → Bool → Literal → Prop
  | pattern {s pattern} (stands : StandsFor s pattern) :
      Asks declared .regex (.value (.text s)) true (.cell (.text pattern))
  | key {key token v} (isMatch : token ∈ matchTokens) (spelled : token.toList = normalized key) :
      Asks declared (.other key) (.value v) false (literal declared v)

/-- A test asks for a match against a literal. -/
inductive Test.Asks (declared : Option Property) : Test → Bool → Literal → Prop
  | pattern (pattern) : Asks declared (.regex pattern) true (.cell (.text pattern))
  | operators {ops op operand checked value} (member : (op, operand) ∈ ops)
      (asks : op.Asks declared operand checked value) :
      Asks declared (.operators ops) checked value

/-- Criteria ask, at whatever depth, for a match of a field against a pattern. -/
def Criteria.Asks (m : Model) (c : Criteria) (field : String) (checked : Bool) (pattern : String) :
    Prop :=
  ∃ t, (field, t) ∈ c.allTests ∧ t.Asks (m.declaration? field) checked (.cell (.text pattern))

section Asking

variable {declared : Option Property} {op : Operator} {operand : Operand} {t : Test}
  {checked : Bool} {token pattern : String} {value : Literal}

theorem Operator.ComparesBy.asks (compares : op.ComparesBy declared operand token value)
    (isMatch : token ∈ matchTokens) : ∃ checked, op.Asks declared operand checked value := by
  cases compares with
  | plain named =>
    have none : ∀ op ∈ [gt, gte, lt, lte, eq, neq, like, notLike], op.token ∉ matchTokens := by
      decide
    exact absurd isMatch (none _ named)
  | pattern stands => exact ⟨true, .pattern stands⟩
  | key _ spelled => exact ⟨false, .key isMatch spelled⟩

theorem Test.ComparesBy.asks (compares : t.ComparesBy declared token value)
    (isMatch : token ∈ matchTokens) : ∃ checked, t.Asks declared checked value := by
  cases compares with
  | equals => exact absurd isMatch (by decide)
  | pattern => exact ⟨true, .pattern _⟩
  | operators member compares =>
    obtain ⟨checked, asks⟩ := compares.asks isMatch
    exact ⟨checked, .operators member asks⟩

theorem Operator.Asks.compares (asks : op.Asks declared operand checked value)
    (sound : ¬ op.Malformed operand) :
    ∃ token ∈ matchTokens, op.ComparesBy declared operand token value := by
  cases asks with
  | pattern stands =>
    have valid := Bool.of_not_eq_false fun rejected => sound (.pattern stands rejected)
    exact ⟨"REGEXP", by decide, .pattern stands valid⟩
  | @key _ token _ isMatch spelled =>
    have listed : ∀ token ∈ matchTokens, token ∈ comparisonTokens := by decide
    exact ⟨token, isMatch, .key (listed token isMatch) spelled⟩

theorem Test.Asks.compares (asks : t.Asks declared checked value) (sound : ¬ t.Malformed) :
    ∃ token ∈ matchTokens, t.ComparesBy declared token value := by
  cases asks with
  | pattern pattern =>
    have valid := Bool.of_not_eq_false fun rejected => sound (.regex rejected)
    exact ⟨"REGEXP", by decide, .pattern valid⟩
  | operators member asks =>
    obtain ⟨token, isMatch, compares⟩ := asks.compares fun malformed =>
      sound (.operators member malformed)
    exact ⟨token, isMatch, .operators member compares⟩

/-- A pattern that is checked makes its test malformed if it is not accepted. -/
theorem Test.Asks.malformed (asks : t.Asks declared true (.cell (.text pattern)))
    (rejected : Pattern.isValid pattern = false) : t.Malformed := by
  cases asks with
  | pattern => exact .regex rejected
  | operators member asks =>
    cases asks with
    | pattern stands => exact .operators member (.pattern stands rejected)

/-- What a field with text is matched against is no float. -/
theorem Test.Asks.cell {p : Property} (textual : p.IsTextual)
    (asks : t.Asks (some p) checked value) :
    ∃ stored, value = .cell stored ∧ ∀ x, stored ≠ .float x := by
  have plain (v : Value) : ∀ x, store (some p) v ≠ .float x := by
    intro x
    rw [store]
    split
    · exact Stored.noConfusion
    · rcases textual with kind | kind
      all_goals
        rw [kind]
        exact storeText_ne_float v x
  cases asks with
  | pattern => exact ⟨_, rfl, fun _ => Stored.noConfusion⟩
  | operators _ asks =>
    cases asks with
    | pattern => exact ⟨_, rfl, fun _ => Stored.noConfusion⟩
    | key => exact ⟨_, rfl, plain _⟩

end Asking

/-! ## Matches that are sent -/

/-- A match of a field stands in a condition, and the literal that it is against is read there as a
pattern. -/
def Mapper.Sends (b : Mapper) (c : Criteria) (sql field pattern : String) : Prop :=
  ∃ p token value, b.predicate c = .ok (some p) ∧ .compare field token value ∈ p.atoms ∧
    token ∈ matchTokens ∧ ∃ front follow,
      sql.toList = front ++ (b.dialect.atom (.compare field token value) ++ follow) ∧
      (∀ c ∈ follow.head?, Dialect.delimits c = true) ∧
      b.dialect.readLiteral? (b.dialect.literal value ++ follow) = some (.text pattern, follow)

theorem Text.withoutNul_eq {s : String} (none : '\x00' ∉ s.toList) : withoutNul s = s := by
  have all : s.toList.filter (· ≠ '\x00') = s.toList := by
    refine List.filter_eq_self.mpr fun c member => decide_eq_true ?_
    rintro rfl
    exact none member
  rw [withoutNul, all, String.ofList_toList]

/-- A cell is read as a text exactly if it holds one, with its NUL characters or without them. -/
theorem Dialect.readLiteral?_text {d : Dialect} (known : d.IsKnown) {follow : List Char}
    (delimited : ∀ c ∈ follow.head?, delimits c = true) {stored : Stored}
    (exact : ∀ x, stored ≠ .float x) {s : String} :
    d.readLiteral? (d.cell stored ++ follow) = some (.text s, follow) ↔
      ∃ kept, stored = .text kept ∧ s = withoutNul kept := by
  rw [readLiteral?_cell known delimited exact]
  cases stored with
  | text kept => simp [Stored.asWritten, eq_comm]
  | _ => simp [Stored.asWritten]

namespace Mapper

variable {b : Mapper} {c : Criteria} {sql field pattern : String}

/-- What is sent for a field with text is what is asked for, without its NUL characters. -/
theorem sends_iff (known : b.dialect.IsKnown) (written : b.condition c = .ok sql)
    (textual : b.model.IsTextual field) :
    b.Sends c sql field pattern ↔
      ∃ checked asked, c.Asks b.model field checked asked ∧ pattern = withoutNul asked := by
  obtain ⟨p, declared, textual⟩ := textual
  constructor
  · rintro ⟨q, token, value, predicate, member, isMatch, _, follow, _, delimited, read⟩
    obtain ⟨t, test, compares⟩ := (Criteria.mem_predicate_compare predicate).mp member
    obtain ⟨checked, asks⟩ := compares.asks isMatch
    obtain ⟨stored, rfl, exact⟩ := (declared ▸ asks).cell textual
    obtain ⟨asked, rfl, same⟩ := (Dialect.readLiteral?_text known delimited exact).mp read
    exact ⟨checked, asked, ⟨t, test, asks⟩, same⟩
  · rintro ⟨checked, asked, ⟨t, test, asks⟩, same⟩
    have sound : ¬ t.Malformed := fun malformed =>
      (b.condition_refuses c).ok_iff.mp ⟨sql, written⟩ ⟨_, test, malformed⟩
    obtain ⟨token, isMatch, compares⟩ := asks.compares sound
    obtain ⟨q, predicate, member, front, follow, text, delimited⟩ :=
      compare_written written test compares
    exact ⟨q, token, _, predicate, member, isMatch, front, follow, text, delimited,
      (Dialect.readLiteral?_text known delimited fun _ => Stored.noConfusion).mpr
        ⟨asked, rfl, same⟩⟩

/-- A pattern that is asked for as one is turned down unless it is accepted. What is sent for fields
with text is what is asked for, without NUL characters; all of it is accepted exactly if that is so
for the operands of keys and for the patterns that have NUL characters, which no check sees as they
are sent. -/
theorem patterns_valid_iff {b : Mapper} (known : b.dialect.IsKnown) (c : Criteria) :
    (∀ field pattern, c.Asks b.model field true pattern → Pattern.isValid pattern = false →
      ∃ cause, b.condition c = .error (.invalidCondition cause)) ∧
    ∀ sql, b.condition c = .ok sql →
      (∀ field pattern, b.model.IsTextual field → (b.Sends c sql field pattern ↔
        ∃ checked asked, c.Asks b.model field checked asked ∧ pattern = withoutNul asked)) ∧
      ((∀ field pattern, b.model.IsTextual field → b.Sends c sql field pattern →
          Pattern.isValid pattern = true) ↔
        ∀ field checked asked, b.model.IsTextual field → c.Asks b.model field checked asked →
          checked = false ∨ '\x00' ∈ asked.toList → Pattern.isValid (withoutNul asked) = true) := by
  have refuses := b.condition_refuses c
  refine ⟨fun field pattern ⟨t, test, asks⟩ rejected => ?_, fun sql written => ?_⟩
  · obtain ⟨e, refused⟩ := refuses.error_iff.mpr ⟨_, test, asks.malformed rejected⟩
    obtain ⟨cause, rfl⟩ := refuses.cause refused
    exact ⟨cause, refused⟩
  refine ⟨fun field pattern => sends_iff known written, ?_, ?_⟩
  · intro valid field checked asked textual asks _
    exact valid field _ textual ((sends_iff known written textual).mpr ⟨checked, asked, asks, rfl⟩)
  · intro valid field pattern textual sent
    obtain ⟨checked, asked, asks, rfl⟩ := (sends_iff known written textual).mp sent
    -- A pattern that was checked and has no NUL character is sent as it was checked.
    by_cases unseen : checked = false ∨ '\x00' ∈ asked.toList
    · exact valid field checked asked textual asks unseen
    · obtain ⟨seen, none⟩ := not_or.mp unseen
      obtain rfl := Bool.of_not_eq_false seen
      obtain ⟨t, test, asks⟩ := asks
      rw [withoutNul_eq none]
      exact Bool.of_not_eq_false fun rejected =>
        refuses.ok_iff.mp ⟨sql, written⟩ ⟨_, test, asks.malformed rejected⟩

/-- A pattern between slashes and one under a key with blanks and small letters. -/
theorem patterns_valid_iff_accepted :
    let b : Mapper := ⟨.sqlite, (Model.ofName "User").define "name" .string, .grouped⟩
    let c : Criteria := ⟨[("name", .operators
      [(.regex, .value (.text "/^B/i")), (.other " not\t regexp", .value (.text "o+"))])], []⟩
    let sql := "WHERE `name` REGEXP \x27^B\x27 AND `name` NOT REGEXP \x27o+\x27"
    b.dialect.IsKnown ∧ b.condition c = .ok sql ∧ b.Sends c sql "name" "^B" ∧
      b.Sends c sql "name" "o+" ∧
      ∀ field pattern, b.model.IsTextual field → b.Sends c sql field pattern →
        Pattern.isValid pattern = true := by
  intro b c sql
  have known : b.dialect.IsKnown := .inr rfl
  have written : b.condition c = .ok sql := rfl
  have textual : b.model.IsTextual "name" := ⟨.string, rfl, .inl rfl⟩
  obtain ⟨sends, valid⟩ := (patterns_valid_iff known c).2 sql written
  have slashed : c.Asks b.model "name" true "^B" :=
    ⟨_, List.mem_cons_self, .operators List.mem_cons_self (.pattern (standsFor_iff.mpr rfl))⟩
  have isMatch : "NOT REGEXP" ∈ matchTokens := by decide
  have spelled : c.Asks b.model "name" false "o+" :=
    ⟨_, List.mem_cons_self, .operators (List.mem_cons_of_mem _ List.mem_cons_self)
      (.key isMatch rfl)⟩
  refine ⟨known, written, (sends _ _ textual).mpr ⟨_, _, slashed, rfl⟩,
    (sends _ _ textual).mpr ⟨_, _, spelled, rfl⟩, valid.mpr ?_⟩
  rintro field checked asked _ ⟨t, test, asks⟩ unseen
  cases List.mem_singleton.mp test
  obtain _ | ⟨member, asks⟩ := asks
  rcases List.mem_cons.mp member with first | second
  · cases first
    obtain ⟨stands⟩ := asks
    cases standsFor_iff.mp stands
    exact absurd unseen (by decide)
  · cases List.mem_singleton.mp second
    generalize operand : Literal.cell (.text asked) = value at asks
    obtain _ | _ := asks
    cases operand
    decide +kernel

/-- A key gets a pattern past the check, and a pattern with a NUL character is sent as another one
that is not accepted. -/
theorem rejected_pattern_sent :
    let b : Mapper := ⟨.sqlite, (Model.ofName "User").define "name" .string, .grouped⟩
    let keyed : Criteria := ⟨[("name", .operators [(.other "regexp", .value (.text "("))])], []⟩
    let nul : Criteria := ⟨[("name", .regex "[\x00]")], []⟩
    b.model.IsTextual "name" ∧
      (b.condition keyed = .ok "WHERE `name` REGEXP \x27(\x27" ∧
        b.Sends keyed "WHERE `name` REGEXP \x27(\x27" "name" "(" ∧ Pattern.isValid "(" = false) ∧
      b.condition nul = .ok "WHERE `name` REGEXP \x27[]\x27" ∧
        b.Sends nul "WHERE `name` REGEXP \x27[]\x27" "name" "[]" ∧
        Pattern.isValid "[]" = false := by
  intro b keyed nul
  have known : b.dialect.IsKnown := .inr rfl
  have textual : b.model.IsTextual "name" := ⟨.string, rfl, .inl rfl⟩
  have isMatch : "REGEXP" ∈ matchTokens := by decide
  have fromKey : b.condition keyed = .ok "WHERE `name` REGEXP \x27(\x27" := rfl
  have fromPattern : b.condition nul = .ok "WHERE `name` REGEXP \x27[]\x27" := rfl
  have asksKey : keyed.Asks b.model "name" false "(" :=
    ⟨_, List.mem_cons_self, .operators List.mem_cons_self (.key isMatch rfl)⟩
  have asksPattern : nul.Asks b.model "name" true "[\x00]" :=
    ⟨_, List.mem_cons_self, .pattern _⟩
  exact ⟨textual,
    ⟨fromKey, (sends_iff known fromKey textual).mpr ⟨_, _, asksKey, rfl⟩, by decide +kernel⟩,
    fromPattern, (sends_iff known fromPattern textual).mpr ⟨_, _, asksPattern, rfl⟩,
    by decide +kernel⟩

end Mapper

end SqlMapper
