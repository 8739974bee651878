import Mathlib.Data.List.Forall2
import SqlMapper.Proofs.Except
import SqlMapper.Proofs.Lexis.Reference
import SqlMapper.Proofs.Text.Blanks
import SqlMapper.Query.Filter

/-! # How an order is written

An order is a row of terms with commas between them and blanks around them. A term is a field with
its direction behind it, a field alone, which ascends, or a field with a minus before it, which
descends. The three overlap nowhere: a minus is part of the field where a direction follows, and
where nothing does. So an order is read exactly if each of its terms is written in one of these
ways, and as the terms that are written.
-/

namespace SqlMapper

open Text

/-- What the partner of each element tells of it holds of every element. -/
theorem forall_of_forall₂ {α β : Type} {R : α → β → Prop} {P : β → Prop} {items : List α}
    {found : List β} (related : List.Forall₂ R items found)
    (tells : ∀ a ∈ items, ∀ b, R a b → P b) : ∀ b ∈ found, P b := by
  induction related with
  | nil => nofun
  | cons first rest ih =>
    obtain ⟨head, tail⟩ := List.forall_mem_cons.mp tells
    exact List.forall_mem_cons.mpr ⟨head _ first, ih tail⟩

/-- The keyword of a direction. -/
def Direction.keyword : Direction → String
  | .ascending => "ASC"
  | .descending => "DESC"

namespace OrderTerm

/-- A term is written in one of three ways. -/
inductive Spells : List Char → OrderTerm → Prop
  /-- A field alone does not begin with a minus, unless it is nothing else. -/
  | field {word} (isWord : IsWord word) (plain : ∀ rest, IsWord rest → word ≠ '-' :: rest) :
      Spells word ⟨String.ofList word, .ascending⟩
  | minus {word} (isWord : IsWord word) : Spells ('-' :: word) ⟨String.ofList word, .descending⟩
  | directed {word gap keyword direction} (isWord : IsWord word) (nonempty : gap ≠ [])
      (blanks : IsBlankRow gap) (named : keyword.map Char.toUpper = direction.keyword.toList) :
      Spells (word ++ (gap ++ keyword)) ⟨String.ofList word, direction⟩

section Terms

variable {cs word : List Char} {t : OrderTerm}

theorem ofList_eq_iff {s : String} : String.ofList cs = s ↔ cs = s.toList := by
  rw [← String.toList_inj, String.toList_ofList]

theorem sameIgnoringCase_iff (cs : List Char) (s : String) :
    sameIgnoringCase (String.ofList cs) s = true ↔ cs.map Char.toUpper = (asciiUpper s).toList := by
  rw [sameIgnoringCase, beq_iff_eq, asciiUpper, String.toList_ofList, ofList_eq_iff]

/-- A direction is told by its keyword, in capitals or not. -/
theorem readDirection_iff {keyword : List Char} {field : String} {cause : QueryError} :
    (if sameIgnoringCase (String.ofList keyword) "asc" then .ok ⟨field, .ascending⟩
      else if sameIgnoringCase (String.ofList keyword) "desc" then .ok ⟨field, .descending⟩
      else .error cause : Except QueryError OrderTerm) = .ok t ↔
      field = t.field ∧ keyword.map Char.toUpper = t.direction.keyword.toList := by
  have asc : asciiUpper "asc" = Direction.ascending.keyword := by decide
  have desc : asciiUpper "desc" = Direction.descending.keyword := by decide
  have apart : Direction.ascending.keyword.toList ≠ Direction.descending.keyword.toList := by decide
  simp only [sameIgnoringCase_iff, asc, desc]
  obtain ⟨name, direction⟩ := t
  split
  · next ascends => cases direction <;> simp [ascends, apart]
  · next other =>
    split
    · next descends => cases direction <;> simp [descends, apart.symm]
    · next none => cases direction <;> simp [other, none]

/-- A minus before a word stands for the direction. -/
theorem ofTrimmed_minus (isWord : IsWord word) :
    ofTrimmed ('-' :: word) = .ok ⟨String.ofList word, .descending⟩ := by
  have solid : word.any isBlank = false := by simpa using isWord.2
  simp [ofTrimmed, isWord.1, solid]

/-- Any other term goes by its words. -/
theorem ofTrimmed_words (plain : ∀ rest, IsWord rest → cs ≠ '-' :: rest) :
    ofTrimmed cs = .ok t ↔
      words cs = [t.field.toList] ∧ t.direction = .ascending ∨
        ∃ keyword, words cs = [t.field.toList, keyword] ∧
          keyword.map Char.toUpper = t.direction.keyword.toList := by
  obtain ⟨field, direction⟩ := t
  have noMinus (rest : List Char) (minus : cs = '-' :: rest) :
      ¬ (rest ≠ [] ∧ (!rest.any isBlank) = true) := by
    rintro ⟨nonempty, solid⟩
    exact plain rest ⟨nonempty, by simpa using solid⟩ minus
  simp only [ofTrimmed]
  split
  on_goal 1 => rw [if_neg (noMinus _ rfl)]
  all_goals
    generalize words _ = ws
    rcases ws with _ | ⟨v, _ | ⟨w, _ | ⟨more, ws⟩⟩⟩
    · simp [invalid]
    · simp [ofList_eq_iff, eq_comm (a := direction)]
    · simp [readDirection_iff, invalid, ofList_eq_iff]
    · simp [invalid]

theorem isWord_keyword {direction : Direction}
    (named : cs.map Char.toUpper = direction.keyword.toList) : IsWord cs := by
  refine isWord_of_map_toUpper ?_
  rw [named]
  cases direction <;> decide

/-- Nothing else is spelled by a minus before a word. -/
theorem Spells.minus_iff (isWord : IsWord word) :
    Spells ('-' :: word) t ↔ t = ⟨String.ofList word, .descending⟩ := by
  constructor
  · intro spelled
    generalize shape : '-' :: word = cs at spelled
    cases spelled with
    | field _ plain => exact absurd shape.symm (plain word isWord)
    | minus => rw [(List.cons.inj shape).2]
    | @directed first gap keyword _ _ nonempty blanks =>
      obtain ⟨c, more, rfl⟩ := List.exists_cons_of_ne_nil nonempty
      have inside : c ∈ '-' :: word := by simp [shape]
      have solid : isBlank c = false := by
        rcases List.mem_cons.mp inside with rfl | inside
        · decide
        · exact isWord.2 c inside
      rw [blanks c List.mem_cons_self] at solid
      cases solid
  · rintro rfl
    exact .minus isWord

/-- A term is read exactly if it is written in one of the three ways, as what it spells. -/
theorem ofTrimmed_eq_ok_iff (trimmed : IsTrimmed cs) : ofTrimmed cs = .ok t ↔ Spells cs t := by
  by_cases minus : ∃ rest, IsWord rest ∧ cs = '-' :: rest
  · obtain ⟨rest, isWord, rfl⟩ := minus
    rw [ofTrimmed_minus isWord, Spells.minus_iff isWord, Except.ok.injEq, eq_comm]
  · have plain : ∀ rest, IsWord rest → cs ≠ '-' :: rest := fun rest isWord shape =>
      minus ⟨rest, isWord, shape⟩
    rw [ofTrimmed_words plain]
    constructor
    · rintro (⟨single, ascends⟩ | ⟨keyword, pair, named⟩)
      · obtain ⟨isWord, rfl⟩ := trimmed.words_eq_singleton.mp single
        have spelled := Spells.field isWord plain
        rw [String.ofList_toList, ← ascends] at spelled
        exact spelled
      · obtain ⟨gap, nonempty, blanks, isWord, _, rfl⟩ := trimmed.words_eq_pair.mp pair
        have spelled := Spells.directed isWord nonempty blanks named
        rw [String.ofList_toList] at spelled
        exact spelled
    · intro spelled
      cases spelled with
      | field isWord => exact .inl ⟨by simpa using words_word isWord, rfl⟩
      | minus isWord => exact absurd rfl (plain _ isWord)
      | @directed word gap keyword direction isWord nonempty blanks named =>
        refine .inr ⟨keyword, ?_, named⟩
        rw [String.toList_ofList]
        exact trimmed.words_eq_pair.mpr ⟨gap, nonempty, blanks, isWord, isWord_keyword named, rfl⟩

end Terms

/-! ## The terms of an order -/

/-- A field that no order takes apart. -/
def IsPlain (t : OrderTerm) : Prop := IsWord t.field.toList ∧ ',' ∉ t.field.toList

instance (t : OrderTerm) : Decidable t.IsPlain :=
  inferInstanceAs (Decidable (IsWord t.field.toList ∧ ',' ∉ t.field.toList))

/-- The words that a term may be. -/
def IsTermText (cs : List Char) : Prop :=
  IsWord cs ∨ (∃ word, IsWord word ∧ cs = '-' :: word) ∨
    ∃ word gap keyword, IsWord word ∧ gap ≠ [] ∧ IsBlankRow gap ∧
      (sameIgnoringCase (String.ofList keyword) "asc" = true ∨
        sameIgnoringCase (String.ofList keyword) "desc" = true) ∧ cs = word ++ (gap ++ keyword)

/-- The term with its direction behind the field. -/
def long (t : OrderTerm) : List Char := t.field.toList ++ ' ' :: t.direction.keyword.toList

/-- The term with a minus for a direction, or nothing. -/
def short (t : OrderTerm) : List Char :=
  match t.direction with
  | .ascending => t.field.toList
  | .descending => '-' :: t.field.toList

section Orders

variable {cs text : List Char} {t : OrderTerm} {spec : String} {terms : List OrderTerm}

/-- A text is a term exactly if there is one that it spells. -/
theorem exists_spells_iff : (∃ t, Spells cs t) ↔ IsTermText cs := by
  constructor
  · rintro ⟨t, spelled⟩
    cases spelled with
    | field isWord => exact .inl isWord
    | minus isWord => exact .inr (.inl ⟨_, isWord, rfl⟩)
    | @directed word gap keyword direction isWord nonempty blanks named =>
      refine .inr (.inr ⟨word, gap, keyword, isWord, nonempty, blanks, ?_, rfl⟩)
      rw [sameIgnoringCase_iff, sameIgnoringCase_iff, named]
      cases direction <;> decide
  · rintro (isWord | ⟨word, isWord, rfl⟩ |
      ⟨word, gap, keyword, isWord, nonempty, blanks, named, rfl⟩)
    · by_cases minus : ∃ rest, IsWord rest ∧ cs = '-' :: rest
      · obtain ⟨rest, inner, rfl⟩ := minus
        exact ⟨_, .minus inner⟩
      · exact ⟨_, .field isWord fun rest inner shape => minus ⟨rest, inner, shape⟩⟩
    · exact ⟨_, .minus isWord⟩
    · rw [sameIgnoringCase_iff, sameIgnoringCase_iff] at named
      rcases named with ascends | descends
      · exact ⟨⟨_, .ascending⟩, .directed isWord nonempty blanks ascends⟩
      · exact ⟨⟨_, .descending⟩, .directed isWord nonempty blanks descends⟩

/-- The field of a term is a word of its text. -/
theorem Spells.isPlain (spelled : Spells cs t) (noComma : ',' ∉ cs) : t.IsPlain := by
  cases spelled with
  | field isWord => exact ⟨by simpa using isWord, by simpa using noComma⟩
  | minus isWord => exact ⟨by simpa using isWord, by simp_all⟩
  | directed isWord => exact ⟨by simpa using isWord, by simp_all⟩

theorem Spells.isTrimmed (spelled : Spells cs t) : IsTrimmed cs := by
  cases spelled with
  | field isWord => exact isWord.isTrimmed
  | minus isWord => exact (isWord.cons (by decide)).isTrimmed
  | directed isWord _ _ named => exact isTrimmed_append isWord (isWord_keyword named) _

theorem Spells.ne_nil (spelled : Spells cs t) : cs ≠ [] := by
  cases spelled with
  | field isWord => exact isWord.1
  | minus => exact List.cons_ne_nil _ _
  | directed isWord => exact List.append_ne_nil_of_left_ne_nil isWord.1 _

theorem IsPlain.spells_long (plain : t.IsPlain) : Spells t.long t := by
  have upper : t.direction.keyword.toList.map Char.toUpper = t.direction.keyword.toList := by
    cases t.direction <;> decide
  have spelled := Spells.directed plain.1 (List.cons_ne_nil ' ' []) (by decide) upper
  rwa [String.ofList_toList] at spelled

theorem IsPlain.spells_short (plain : t.IsPlain) (bare : t.field.toList.head? ≠ some '-') :
    Spells t.short t := by
  obtain ⟨name, direction⟩ := t
  cases direction with
  | ascending =>
    have noMinus : ∀ rest, IsWord rest → name.toList ≠ '-' :: rest := fun rest _ shape =>
      bare (by rw [shape]; rfl)
    have spelled := Spells.field plain.1 noMinus
    rwa [String.ofList_toList] at spelled
  | descending =>
    have spelled := Spells.minus plain.1
    rwa [String.ofList_toList] at spelled

theorem IsPlain.notMem_long (plain : t.IsPlain) : ',' ∉ t.long := by
  have keyword : ',' ∉ t.direction.keyword.toList := by cases t.direction <;> decide
  simp [long, plain.2, keyword]

theorem IsPlain.notMem_short (plain : t.IsPlain) : ',' ∉ t.short := by
  have noComma := plain.2
  rw [short]
  split <;> simp [noComma]

/-- A piece of an order that writes a term, with blanks around it or without. -/
def IsPiece (piece : List Char) (t : OrderTerm) : Prop :=
  ∃ front text back, piece = front ++ (text ++ back) ∧ IsBlankRow front ∧ IsBlankRow back ∧
    (text = t.long ∨ t.field.toList.head? ≠ some '-' ∧ text = t.short)

/-- An order is read exactly if every term is, one by one. -/
theorem parse_eq_ok_iff : parse spec = .ok terms ↔
    List.Forall₂ (fun piece t => Spells (trim piece) t) (splitAt ',' spec.toList) terms := by
  simp only [parse, mapM_eq_ok_iff, ofTrimmed_eq_ok_iff (isTrimmed_trim _)]

theorem IsPlain.spells_trim (plain : t.IsPlain) (piece : IsPiece cs t) :
    Spells (trim cs) t ∧ ',' ∉ cs := by
  obtain ⟨front, text, back, rfl, before, behind, shape⟩ := piece
  have spelled : Spells text t ∧ ',' ∉ text := by
    rcases shape with rfl | ⟨bare, rfl⟩
    · exact ⟨plain.spells_long, plain.notMem_long⟩
    · exact ⟨plain.spells_short bare, plain.notMem_short⟩
  have solid {row : List Char} (blanks : IsBlankRow row) : ',' ∉ row := fun member =>
    absurd (blanks _ member) (by decide)
  rw [trim_surrounded spelled.1.isTrimmed spelled.1.ne_nil before behind]
  exact ⟨spelled.1, by simp [solid before, solid behind, spelled.2]⟩

/-- An order is read exactly if each of its terms, trimmed, is a word, a minus before a word, or a
word and a direction. Every term is then read as it is spelled, in the order of the terms, and its
field has no blank and no comma. Terms with such fields are read back from their texts, the short
ones only if the field does not begin with a minus. -/
theorem parse_exact :
    (∀ spec, ((∃ terms, parse spec = .ok terms) ↔
        ∀ piece ∈ splitAt ',' spec.toList, IsTermText (trim piece)) ∧
      ∀ terms, parse spec = .ok terms →
        List.Forall₂ (fun piece t => Spells (trim piece) t) (splitAt ',' spec.toList) terms ∧
        ∀ t ∈ terms, t.IsPlain) ∧
    ∀ terms pieces, terms ≠ [] → (∀ t ∈ terms, t.IsPlain) → List.Forall₂ IsPiece pieces terms →
      parse (String.ofList (joinWith [','] pieces)) = .ok terms := by
  refine ⟨fun spec => ⟨?_, ?_⟩, ?_⟩
  · simp only [parse_eq_ok_iff, exists_forall₂_iff, exists_spells_iff]
  · intro terms read
    have spelled := parse_eq_ok_iff.mp read
    refine ⟨spelled, forall_of_forall₂ spelled fun piece member t spells => ?_⟩
    exact spells.isPlain fun comma => notMem_of_mem_splitAt member (mem_of_mem_trim comma)
  · intro terms pieces nonempty plain written
    have parts : List.Forall₂ (fun t piece => ',' ∉ piece ∧ Spells (trim piece) t) terms pieces :=
      ((List.forall₂_and_left _ _).mpr ⟨plain, written.flip⟩).imp fun t piece given =>
        (given.1.spells_trim given.2).symm
    have noComma : ∀ piece ∈ pieces, ',' ∉ piece :=
      forall_of_forall₂ parts fun t _ piece given => given.1
    have some : pieces ≠ [] := by
      rintro rfl
      exact nonempty (List.forall₂_nil_left_iff.mp written)
    rw [parse_eq_ok_iff, String.toList_ofList, splitAt_joinWith some noComma]
    exact (parts.imp fun t piece given => given.2).flip

/-- A field with a minus, one with a small letter before a wide blank, and a short term. -/
theorem parse_exact_mixed :
    parse "\u00a0-a DESC ,b,\t-c" =
      .ok [⟨"-a", .descending⟩, ⟨"b", .ascending⟩, ⟨"c", .descending⟩] := by
  have read := parse_exact.2 [⟨"-a", .descending⟩, ⟨"b", .ascending⟩, ⟨"c", .descending⟩]
    ["\u00a0-a DESC ".toList, "b".toList, "\t-c".toList] (by decide) (by decide) ?_
  · exact read
  · refine .cons ?_ (.cons ?_ (.cons ?_ .nil))
    · exact ⟨['\u00a0'], _, [' '], rfl, by decide, by decide, .inl rfl⟩
    · exact ⟨[], _, [], rfl, nofun, nofun, .inr ⟨by decide, rfl⟩⟩
    · exact ⟨['\t'], _, [], rfl, by decide, nofun, .inr ⟨by decide, rfl⟩⟩

end Orders

end OrderTerm
end SqlMapper
