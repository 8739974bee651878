import Mathlib.Data.List.TakeWhile
import SqlMapper.Text.Blank

/-! # Words and the blanks between them

Putting a space between the words of a text is the same as trimming the text and making every run
of blanks inside of it one space. Blanks at the ends have no part in the words, and past them the
two are compared character by character.
-/

namespace SqlMapper.Text

/-- Whether a text begins with a blank. -/
def startsBlank (cs : List Char) : Bool := cs.head?.any isBlank

/-- Makes every run of blanks one space. -/
def collapse : List Char → List Char
  | [] => []
  | c :: rest =>
      if isBlank c then if startsBlank rest then collapse rest else ' ' :: collapse rest
      else c :: collapse rest

section Words

variable {c : Char} {cs rest : List Char}

@[simp] theorem words_nil : words [] = [] := rfl

theorem words_blank (blank : isBlank c = true) (rest : List Char) :
    words (c :: rest) = words rest := by
  rw [words.eq_def]
  simp only [blank, if_true]

/-- A character before the end or before a blank is a word. -/
theorem words_single (solid : isBlank c = false) (ends : rest = [] ∨ startsBlank rest = true) :
    words (c :: rest) = [c] :: words rest := by
  rcases ends with rfl | ends
  · rw [words.eq_def]
    simp [solid]
  · cases rest with
    | nil => cases ends
    | cons next rest =>
      have blank : isBlank next = true := ends
      rw [words.eq_def]
      simp [solid, blank]

/-- A character before another one belongs to the word of that. -/
theorem words_longer (solid : isBlank c = false) (nonempty : rest ≠ [])
    (goesOn : startsBlank rest = false) :
    ∃ word others, words rest = word :: others ∧ words (c :: rest) = (c :: word) :: others := by
  cases rest with
  | nil => exact absurd rfl nonempty
  | cons next rest =>
    have solid' : isBlank next = false := goesOn
    have first : ∃ word others, words (next :: rest) = word :: others := by
      rw [words.eq_def]
      simp only [solid', if_neg Bool.false_ne_true]
      split
      · exact ⟨_, _, rfl⟩
      · split
        · exact ⟨_, _, rfl⟩
        · split <;> exact ⟨_, _, rfl⟩
    obtain ⟨word, others, found⟩ := first
    refine ⟨word, others, found, ?_⟩
    rw [words.eq_def]
    simp [solid, solid', found]

/-- A text that does not end with a blank has a word. -/
theorem words_ne_nil (nonempty : cs ≠ []) (ends : ∀ c ∈ cs.getLast?, isBlank c = false) :
    words cs ≠ [] := by
  induction cs with
  | nil => exact absurd rfl nonempty
  | cons c rest ih =>
    cases blank : isBlank c with
    | false =>
      by_cases single : rest = [] ∨ startsBlank rest = true
      · rw [words_single blank single]
        exact List.cons_ne_nil _ _
      · rw [not_or, Bool.not_eq_true] at single
        obtain ⟨word, others, _, found⟩ := words_longer blank single.1 single.2
        rw [found]
        exact List.cons_ne_nil _ _
    | true =>
      have more : rest ≠ [] := by
        rintro rfl
        have solid := ends c rfl
        rw [blank] at solid
        cases solid
      rw [words_blank blank]
      exact ih more fun last member => ends last (by rwa [List.getLast?_cons_of_ne_nil more])

/-- Behind the blanks at its front, a text that does not end with one is its words with a space
between them. -/
theorem collapse_eq (ends : ∀ c ∈ cs.getLast?, isBlank c = false) :
    collapse cs = (if startsBlank cs then [' '] else []) ++ joinWith [' '] (words cs) := by
  induction cs with
  | nil => rfl
  | cons c rest ih =>
    by_cases last : rest = []
    · subst last
      have solid := ends c rfl
      simp [collapse, startsBlank, solid, words_single solid (.inl rfl), joinWith]
    · have tail : ∀ c ∈ rest.getLast?, isBlank c = false := fun final member =>
        ends final (by rwa [List.getLast?_cons_of_ne_nil last])
      have inner := ih tail
      cases blank : isBlank c with
      | true =>
        have starts : startsBlank (c :: rest) = true := blank
        rw [collapse, if_pos blank, inner, starts, words_blank blank]
        cases startsBlank rest <;> rfl
      | false =>
        have starts : startsBlank (c :: rest) = false := blank
        rw [collapse, blank, if_neg Bool.false_ne_true, inner, starts]
        cases goesOn : startsBlank rest with
        | true =>
          obtain ⟨word, others, found⟩ := List.exists_cons_of_ne_nil (words_ne_nil last tail)
          rw [words_single blank (.inr goesOn), found]
          rfl
        | false =>
          obtain ⟨word, others, found, longer⟩ := words_longer blank last goesOn
          rw [found, longer]
          cases others <;> rfl

/-! ## Blanks at the ends -/

theorem words_trimStart (cs : List Char) : words (trimStart cs) = words cs := by
  induction cs with
  | nil => rfl
  | cons c rest ih =>
    cases blank : isBlank c with
    | true => rw [words_blank blank, ← ih, trimStart, List.dropWhile_cons_of_pos blank, trimStart]
    | false => rw [trimStart, List.dropWhile_cons_of_neg (by simp [blank])]

theorem words_concat_blank (cs : List Char) (blank : isBlank c = true) :
    words (cs ++ [c]) = words cs := by
  induction cs with
  | nil => rw [List.nil_append, words_blank blank]
  | cons d rest ih =>
    cases front : isBlank d with
    | true => rw [List.cons_append, words_blank front, words_blank front, ih]
    | false =>
      by_cases single : rest = [] ∨ startsBlank rest = true
      · have single' : rest ++ [c] = [] ∨ startsBlank (rest ++ [c]) = true := by
          rcases single with rfl | starts
          · exact .inr blank
          · cases rest with
            | nil => cases starts
            | cons next rest => exact .inr starts
        rw [List.cons_append, words_single front single', words_single front single, ih]
      · rw [not_or, Bool.not_eq_true] at single
        obtain ⟨next, tail, rfl⟩ := List.exists_cons_of_ne_nil single.1
        obtain ⟨word, others, found, longer⟩ := words_longer front single.1 single.2
        have nonempty : next :: tail ++ [c] ≠ [] := List.cons_ne_nil _ _
        obtain ⟨word', others', found', longer'⟩ := words_longer front nonempty single.2
        rw [ih, found] at found'
        cases found'
        rw [List.cons_append, longer, longer']

theorem words_append_blanks (cs : List Char) {blanks : List Char}
    (all : ∀ c ∈ blanks, isBlank c = true) : words (cs ++ blanks) = words cs := by
  induction blanks generalizing cs with
  | nil => rw [List.append_nil]
  | cons c blanks ih =>
    obtain ⟨blank, others⟩ := List.forall_mem_cons.mp all
    rw [List.append_cons, ih _ others, words_concat_blank cs blank]

theorem head_dropWhile_blank (cs : List Char) :
    ∀ c ∈ (cs.dropWhile isBlank).head?, isBlank c = false := by
  intro c first
  have stops := List.head?_dropWhile_not isBlank cs
  rw [Option.mem_def.mp first] at stops
  exact stops

/-- Trimming takes blanks off both ends until there are none. -/
theorem trim_ends (cs : List Char) :
    (∃ blanks, trimStart cs = trim cs ++ blanks ∧ ∀ c ∈ blanks, isBlank c = true) ∧
      startsBlank (trim cs) = false ∧ ∀ c ∈ (trim cs).getLast?, isBlank c = false := by
  have parts : trimStart cs = trim cs ++ ((trimStart cs).reverse.takeWhile isBlank).reverse := by
    rw [trim, ← List.reverse_append, List.takeWhile_append_dropWhile, List.reverse_reverse]
  refine ⟨⟨_, parts, fun c member => ?_⟩, ?_, ?_⟩
  · exact List.mem_takeWhile_imp (List.mem_reverse.mp member)
  · have front := head_dropWhile_blank cs
    change ∀ c ∈ (trimStart cs).head?, _ at front
    rw [parts] at front
    cases trimmed : trim cs with
    | nil => rfl
    | cons c rest => exact front c (by rw [trimmed]; rfl)
  · rw [trim, List.getLast?_reverse]
    exact head_dropWhile_blank _

/-- Words with a space between them are the trimmed text with every run of blanks one space. -/
theorem joinWith_words (cs : List Char) : joinWith [' '] (words cs) = collapse (trim cs) := by
  obtain ⟨⟨blanks, parts, all⟩, front, back⟩ := trim_ends cs
  have same : words cs = words (trim cs) := by
    rw [← words_trimStart cs, parts, words_append_blanks _ all]
  rw [collapse_eq back, front, same]
  rfl

end Words

/-! ## Words and trimmed texts -/

/-- Characters that are all blanks, or none at all. -/
def IsBlankRow (cs : List Char) : Prop := ∀ c ∈ cs, isBlank c = true

/-- A word has characters, and no blank among them. -/
def IsWord (cs : List Char) : Prop := cs ≠ [] ∧ ∀ c ∈ cs, isBlank c = false

instance (cs : List Char) : Decidable (IsBlankRow cs) := List.decidableBAll _ cs

instance (cs : List Char) : Decidable (IsWord cs) :=
  @instDecidableAnd _ _ _ (List.decidableBAll _ cs)

/-- A text without blanks at its ends. -/
def IsTrimmed (cs : List Char) : Prop :=
  startsBlank cs = false ∧ ∀ c ∈ cs.getLast?, isBlank c = false

section Trimmed

variable {word front rest back cs v w : List Char} {ws : List (List Char)}

/-- No letter is a blank. -/
theorem toUpper_of_isBlank {c : Char} (blank : isBlank c = true) : c.toUpper = c := by
  have noLetter : ¬ ('a'.val ≤ c.val ∧ c.val ≤ 'z'.val) := by
    rintro ⟨low, high⟩
    have low : 97 ≤ c.toNat := low
    have high : c.toNat ≤ 122 := high
    simp [isBlank] at blank
    omega
  exact dif_neg noLetter

/-- What is a word in capitals is a word. -/
theorem isWord_of_map_toUpper (upper : IsWord (cs.map Char.toUpper)) : IsWord cs := by
  refine ⟨fun empty => upper.1 (by rw [empty]; rfl), fun c member => ?_⟩
  cases blank : isBlank c with
  | false => rfl
  | true =>
    have solid := upper.2 _ (List.mem_map_of_mem member)
    rw [toUpper_of_isBlank blank, blank] at solid
    cases solid

theorem isTrimmed_trim (cs : List Char) : IsTrimmed (trim cs) := (trim_ends cs).2

theorem mem_of_mem_trim {c : Char} (member : c ∈ trim cs) : c ∈ cs := by
  have front := (List.dropWhile_suffix isBlank).mem (List.mem_reverse.mp member)
  exact (List.dropWhile_suffix isBlank).mem (List.mem_reverse.mp front)

theorem startsBlank_append_of_ne_nil (nonempty : cs ≠ []) (rest : List Char) :
    startsBlank (cs ++ rest) = startsBlank cs := by
  obtain ⟨c, tail, rfl⟩ := List.exists_cons_of_ne_nil nonempty
  rfl

theorem IsWord.startsBlank_eq (isWord : IsWord word) : startsBlank word = false := by
  obtain ⟨c, tail, rfl⟩ := List.exists_cons_of_ne_nil isWord.1
  exact isWord.2 c List.mem_cons_self

theorem IsWord.cons {c : Char} (isWord : IsWord word) (solid : isBlank c = false) :
    IsWord (c :: word) :=
  ⟨List.cons_ne_nil _ _, List.forall_mem_cons.mpr ⟨solid, isWord.2⟩⟩

/-- What begins with a word and ends with one is trimmed. -/
theorem isTrimmed_append (first : IsWord v) (last : IsWord w) (inner : List Char) :
    IsTrimmed (v ++ (inner ++ w)) := by
  constructor
  · rw [startsBlank_append_of_ne_nil first.1, first.startsBlank_eq]
  · intro c member
    obtain ⟨init, d, rfl⟩ := (List.eq_nil_or_concat w).resolve_left last.1
    have same : d = c := by simpa using member
    exact last.2 c (by simp [same])

theorem IsWord.isTrimmed (isWord : IsWord word) : IsTrimmed word :=
  ⟨isWord.startsBlank_eq, fun c member => isWord.2 c (List.mem_of_getLast? member)⟩

theorem words_append_left (blanks : IsBlankRow front) (cs : List Char) :
    words (front ++ cs) = words cs := by
  induction front with
  | nil => rfl
  | cons c front ih =>
    obtain ⟨blank, others⟩ := List.forall_mem_cons.mp blanks
    rw [List.cons_append, words_blank blank, ih others]

theorem words_append (isWord : IsWord word) (ends : rest = [] ∨ startsBlank rest = true) :
    words (word ++ rest) = word :: words rest := by
  induction word with
  | nil => exact absurd rfl isWord.1
  | cons c tail ih =>
    obtain ⟨solid, others⟩ := List.forall_mem_cons.mp isWord.2
    by_cases single : tail = []
    · subst single
      exact words_single solid ends
    · have inner : IsWord tail := ⟨single, others⟩
      have goesOn : startsBlank (tail ++ rest) = false :=
        (startsBlank_append_of_ne_nil single rest).trans inner.startsBlank_eq
      obtain ⟨first, more, found, longer⟩ :=
        words_longer solid (List.append_ne_nil_of_left_ne_nil single rest) goesOn
      rw [ih inner] at found
      cases found
      exact longer

theorem words_word (isWord : IsWord word) : words word = [word] := by
  simpa using words_append isWord (.inl rfl)

theorem isBlankRow_of_words (none : words cs = []) : IsBlankRow cs := by
  induction cs with
  | nil => nofun
  | cons c rest ih =>
    cases blank : isBlank c with
    | true =>
      rw [words_blank blank] at none
      exact List.forall_mem_cons.mpr ⟨blank, ih none⟩
    | false =>
      by_cases single : rest = [] ∨ startsBlank rest = true
      · rw [words_single blank single] at none
        cases none
      · rw [not_or, Bool.not_eq_true] at single
        obtain ⟨_, _, _, longer⟩ := words_longer blank single.1 single.2
        rw [longer] at none
        cases none

/-- The first word of a text, what blanks are before it, and what follows it. -/
theorem words_eq_cons (found : words cs = w :: ws) :
    ∃ front rest, cs = front ++ (w ++ rest) ∧ IsBlankRow front ∧ IsWord w ∧
      (rest = [] ∨ startsBlank rest = true) ∧ words rest = ws := by
  induction cs generalizing w with
  | nil => cases found
  | cons c tail ih =>
    cases blank : isBlank c with
    | true =>
      rw [words_blank blank] at found
      obtain ⟨front, rest, rfl, blanks, parts⟩ := ih found
      exact ⟨c :: front, rest, rfl, List.forall_mem_cons.mpr ⟨blank, blanks⟩, parts⟩
    | false =>
      by_cases single : tail = [] ∨ startsBlank tail = true
      · rw [words_single blank single] at found
        cases found
        exact ⟨[], tail, rfl, nofun, ⟨List.cons_ne_nil _ _, by simpa using blank⟩, single, rfl⟩
      · rw [not_or, Bool.not_eq_true] at single
        obtain ⟨word, others, inner, longer⟩ := words_longer blank single.1 single.2
        rw [longer] at found
        cases found
        obtain ⟨front, rest, shape, blanks, isWord, ends, more⟩ := ih inner
        obtain rfl : front = [] := by
          by_contra some
          obtain ⟨d, more, rfl⟩ := List.exists_cons_of_ne_nil some
          rw [shape] at single
          have first : isBlank d = true := blanks d List.mem_cons_self
          exact absurd single.2 (by simp [startsBlank, first])
        exact ⟨[], rest, by rw [shape]; rfl, nofun,
          ⟨List.cons_ne_nil _ _, List.forall_mem_cons.mpr ⟨blank, isWord.2⟩⟩, ends, more⟩

theorem IsTrimmed.front_eq_nil (trimmed : IsTrimmed (front ++ cs)) (blanks : IsBlankRow front) :
    front = [] := by
  cases front with
  | nil => rfl
  | cons c front =>
    have solid : isBlank c = false := trimmed.1
    rw [blanks c List.mem_cons_self] at solid
    cases solid

theorem IsTrimmed.back_eq_nil (trimmed : IsTrimmed (cs ++ back)) (blanks : IsBlankRow back) :
    back = [] := by
  rcases List.eq_nil_or_concat back with rfl | ⟨init, c, rfl⟩
  · rfl
  · have solid : isBlank c = false := trimmed.2 c (by simp)
    rw [blanks c (by simp)] at solid
    cases solid

/-- A text without blanks at its ends has one word exactly if it is a word. -/
theorem IsTrimmed.words_eq_singleton (trimmed : IsTrimmed cs) :
    words cs = [w] ↔ IsWord w ∧ cs = w := by
  constructor
  · intro found
    obtain ⟨front, rest, rfl, blanks, isWord, _, none⟩ := words_eq_cons found
    obtain rfl := trimmed.front_eq_nil blanks
    have ended : IsTrimmed (w ++ rest) := trimmed
    obtain rfl := ended.back_eq_nil (isBlankRow_of_words none)
    exact ⟨isWord, List.append_nil w⟩
  · rintro ⟨isWord, rfl⟩
    exact words_word isWord

/-- A text without blanks at its ends has two words exactly if it is two words with blanks between
them. -/
theorem IsTrimmed.words_eq_pair (trimmed : IsTrimmed cs) :
    words cs = [v, w] ↔
      ∃ gap, gap ≠ [] ∧ IsBlankRow gap ∧ IsWord v ∧ IsWord w ∧ cs = v ++ (gap ++ w) := by
  constructor
  · intro found
    obtain ⟨front, rest, rfl, blanks, first, ends, more⟩ := words_eq_cons found
    obtain rfl := trimmed.front_eq_nil blanks
    obtain ⟨gap, back, rfl, inner, second, _, none⟩ := words_eq_cons more
    have ended : IsTrimmed ((v ++ (gap ++ w)) ++ back) := by simpa using trimmed
    obtain rfl := ended.back_eq_nil (isBlankRow_of_words none)
    refine ⟨gap, ?_, inner, first, second, by simp⟩
    rintro rfl
    rcases ends with empty | starts
    · exact second.1 (by simpa using empty)
    · rw [List.nil_append, List.append_nil, second.startsBlank_eq] at starts
      cases starts
  · rintro ⟨gap, nonempty, blanks, first, second, rfl⟩
    have starts : startsBlank (gap ++ w) = true := by
      obtain ⟨c, tail, rfl⟩ := List.exists_cons_of_ne_nil nonempty
      exact blanks c List.mem_cons_self
    rw [words_append first (.inr starts), words_append_left blanks, words_word second]

/-- Trimming takes away blanks around a text that has none at its ends. -/
theorem trim_surrounded (trimmed : IsTrimmed cs) (nonempty : cs ≠ []) (blanks : IsBlankRow front)
    (others : IsBlankRow back) : trim (front ++ (cs ++ back)) = cs := by
  have start : trimStart (front ++ (cs ++ back)) = cs ++ back := by
    obtain ⟨c, tail, rfl⟩ := List.exists_cons_of_ne_nil nonempty
    have solid : isBlank c = false := trimmed.1
    rw [trimStart, List.dropWhile_append_of_pos blanks, List.cons_append,
      List.dropWhile_cons_of_neg (by simp [solid])]
  have stop : cs.reverse.dropWhile isBlank = cs.reverse := by
    obtain ⟨init, c, rfl⟩ := (List.eq_nil_or_concat cs).resolve_left nonempty
    have solid : isBlank c = false := trimmed.2 c (by simp)
    rw [List.concat_eq_append, List.reverse_append, List.reverse_singleton, List.singleton_append,
      List.dropWhile_cons_of_neg (by simp [solid])]
  have behind : ∀ c ∈ back.reverse, isBlank c = true := by simpa [IsBlankRow] using others
  rw [trim, start, List.reverse_append, List.dropWhile_append_of_pos behind, stop,
    List.reverse_reverse]

end Trimmed

end SqlMapper.Text
