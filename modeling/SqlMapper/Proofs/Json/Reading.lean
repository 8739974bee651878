import SqlMapper.Proofs.Entries
import SqlMapper.Proofs.Json.Lexis
import SqlMapper.Storage

/-! # Written documents are read back

The reader stands before a value, or behind one in a list or an object. Wherever it stands it reads
what was written and nothing else: the induction is on the document, with the items and the entries
that are still to come. A level of nesting takes one from the depth that is left, and three steps
for each character are enough fuel, since a value is at most two steps behind the bracket or the
comma in front of it.
-/

namespace SqlMapper.Json

open Text

/-! ## Documents of 64-bit integers -/

mutual

/-- Numbers are integers of 64 bits, with or without a sign, and no object names an entry twice. -/
def IsExact : Json → Prop
  | .int n => -2 ^ 63 ≤ n ∧ n < 2 ^ 64
  | .float _ => False
  | .array items => AllExact items
  | .object entries => (Entries.names entries).Nodup ∧ EntriesExact entries
  | _ => True

def AllExact : List Json → Prop
  | [] => True
  | item :: rest => item.IsExact ∧ AllExact rest

def EntriesExact : List (String × Json) → Prop
  | [] => True
  | (_, value) :: rest => value.IsExact ∧ EntriesExact rest

end

theorem allExact_iff {items : List Json} : AllExact items ↔ ∀ item ∈ items, item.IsExact := by
  induction items with
  | nil => simp [AllExact]
  | cons item items ih => rw [AllExact, ih, List.forall_mem_cons]

theorem entriesExact_iff {entries : List (String × Json)} :
    EntriesExact entries ↔ ∀ entry ∈ entries, entry.2.IsExact := by
  induction entries with
  | nil => simp [EntriesExact]
  | cons entry entries ih => rw [EntriesExact, ih, List.forall_mem_cons]

mutual

/-- How many lists and objects lie one in the other. -/
def nesting : Json → Nat
  | .array items => itemsNesting items + 1
  | .object entries => entriesNesting entries + 1
  | _ => 0

def itemsNesting : List Json → Nat
  | [] => 0
  | item :: rest => max item.nesting (itemsNesting rest)

def entriesNesting : List (String × Json) → Nat
  | [] => 0
  | (_, value) :: rest => max value.nesting (entriesNesting rest)

end

/-! ## What is written -/

/-- The text behind an item, before the given ones. -/
def itemTail : List Json → List Char
  | [] => [']']
  | items => ',' :: itemChars items

/-- The text behind an entry, before the given ones. -/
def entryTail : List (String × Json) → List Char
  | [] => ['\x7d']
  | entries => ',' :: entryChars entries

theorem itemChars_cons (item : Json) (rest : List Json) :
    itemChars (item :: rest) = item.chars ++ itemTail rest := by
  cases rest <;> simp [itemChars, itemTail]

theorem entryChars_cons (name : String) (value : Json) (rest : List (String × Json)) :
    entryChars ((name, value) :: rest) =
      quotedChars name ++ ':' :: (value.chars ++ entryTail rest) := by
  cases rest <;> simp [entryChars, entryTail]

theorem length_itemChars (item : Json) (rest : List Json) :
    (itemChars (item :: rest)).length = item.chars.length + (itemTail rest).length := by
  rw [itemChars_cons, List.length_append]

theorem length_entryChars (name : String) (value : Json) (rest : List (String × Json)) :
    value.chars.length + (entryTail rest).length < (entryChars ((name, value) :: rest)).length := by
  rw [entryChars_cons, List.length_append, List.length_cons, List.length_append]
  omega

theorem itemTail_delimits (items : List Json) (rest : List Char) :
    Delimits (itemTail items ++ rest) := by
  intro c first
  cases items with
  | nil => exact .inr (.inl (Option.some_inj.mp first).symm)
  | cons item items => exact .inl (Option.some_inj.mp first).symm

theorem entryTail_delimits (entries : List (String × Json)) (rest : List Char) :
    Delimits (entryTail entries ++ rest) := by
  intro c first
  cases entries with
  | nil => exact .inr (.inr (Option.some_inj.mp first).symm)
  | cons entry entries => exact .inl (Option.some_inj.mp first).symm

/-- An integer starts with its sign or with a digit. -/
theorem intDigits_starts (n : Int) :
    ∃ c cs, intDigits n = c :: cs ∧ (c = '-' ∨ c.isDigit = true) := by
  rw [intDigits]
  split
  · exact ⟨_, _, rfl, .inl rfl⟩
  · obtain ⟨c, cs, written⟩ := List.exists_cons_of_ne_nil (natDigits_ne_nil n.natAbs)
    exact ⟨c, cs, written, .inr (allDigits_natDigits _ c (written ▸ List.mem_cons_self))⟩

theorem ne_of_number {c d : Char} (starts : c = '-' ∨ c.isDigit = true)
    (other : d ≠ '-' ∧ d.isDigit = false) : c ≠ d := by
  rcases starts with rfl | digit
  · exact other.1.symm
  · exact ne_of_isDigit digit other.2

theorem isJsonBlank_eq_false {c : Char}
    (other : c ≠ ' ' ∧ c ≠ '\n' ∧ c ≠ '\t' ∧ c ≠ '\r') : isJsonBlank c = false := by
  simp [isJsonBlank, other]

/-- A document starts with a character that is neither blank nor the end of anything. -/
theorem chars_starts {j : Json} (exact : j.IsExact) :
    ∃ c cs, j.chars = c :: cs ∧ isJsonBlank c = false ∧ c ≠ ']' := by
  cases j with
  | int n =>
    obtain ⟨c, cs, written, starts⟩ := intDigits_starts n
    have other (d : Char) (differs : d ≠ '-' ∧ d.isDigit = false) := ne_of_number starts differs
    exact ⟨c, cs, written, isJsonBlank_eq_false ⟨other _ (by decide), other _ (by decide),
      other _ (by decide), other _ (by decide)⟩, other _ (by decide)⟩
  | float x => exact exact.elim
  | bool b => cases b <;> exact ⟨_, _, rfl, rfl, by decide⟩
  | _ => exact ⟨_, _, by simp only [chars, quotedChars]; rfl, rfl, by decide⟩

/-! ## Reading it -/

section Values

variable {fuel depth : Nat} {rest : List Char}

theorem skipBlanks_cons {c : Char} (solid : isJsonBlank c = false) (cs : List Char) :
    skipBlanks (c :: cs) = c :: cs := by
  simp [skipBlanks, solid]

theorem readValue_int {n : Int} (low : -2 ^ 63 ≤ n) (high : n < 2 ^ 64)
    (delimits : Delimits rest) :
    readValue .strict (fuel + 1) depth (intDigits n ++ rest) = ⟨.int n, .ok rest⟩ := by
  rw [← number_intDigits low high delimits]
  obtain ⟨c, cs, written, starts⟩ := intDigits_starts n
  have other (d : Char) (differs : d ≠ '-' ∧ d.isDigit = false) := ne_of_number starts differs
  have solid : isJsonBlank c = false := isJsonBlank_eq_false ⟨other _ (by decide),
    other _ (by decide), other _ (by decide), other _ (by decide)⟩
  rw [written, List.cons_append, readValue, skipBlanks_cons solid]
  have digit : c = '-' ∨ isDigit c = true := starts
  simp only [other 'n' (by decide), other 't' (by decide), other 'f' (by decide),
    other '"' (by decide), other '[' (by decide), other '\x7b' (by decide), digit, if_true, if_false]

theorem readValue_string (s : String) :
    readValue .strict (fuel + 1) depth (quotedChars s ++ rest) = ⟨.string s, .ok rest⟩ := by
  have text : quotedChars s ++ rest = '"' :: (s.toList.flatMap escapedChar ++ '"' :: rest) := by
    simp [quotedChars]
  rw [text, readValue, skipBlanks_cons rfl]
  change Reading.string .strict _ = _
  rw [Reading.string, quotation_quoted]
  simp

theorem readValue_word (j : Json) (word : j = .null ∨ j = .bool true ∨ j = .bool false) :
    readValue .strict (fuel + 1) depth (j.chars ++ rest) = ⟨Doc.ofJson j, .ok rest⟩ := by
  rcases word with rfl | rfl | rfl <;>
    simp [readValue, chars, skipBlanks, isJsonBlank, Reading.word, expect, Doc.ofJson]

theorem readValue_array {items : List Json}
    (inner : readItems .strict fuel depth true (itemChars items ++ rest) =
      ⟨(Doc.ofItems items, .closed), .ok rest⟩) :
    readValue .strict (fuel + 1) (depth + 1) (chars (.array items) ++ rest) =
      ⟨Doc.ofJson (.array items), .ok rest⟩ := by
  rw [chars, List.cons_append, readValue, skipBlanks_cons rfl]
  change (⟨.array _ _, _⟩ : Reading Doc) = _
  simp only [Nat.add_sub_cancel, inner, Doc.ofJson]

theorem readValue_object {entries : List (String × Json)}
    (inner : readEntries .strict fuel depth true (entryChars entries ++ rest) =
      ⟨(Doc.ofEntries entries, .closed), .ok rest⟩) :
    readValue .strict (fuel + 1) (depth + 1) (chars (.object entries) ++ rest) =
      ⟨Doc.ofJson (.object entries), .ok rest⟩ := by
  have even : opensOddly (entryChars entries ++ rest) = false := by
    cases entries with
    | nil => rfl
    | cons entry entries =>
      obtain ⟨name, value⟩ := entry
      rw [entryChars_cons]
      rfl
  rw [chars, List.cons_append, readValue, skipBlanks_cons rfl]
  simp [even, inner, Doc.ofJson]

theorem readItems_closed (first : Bool) :
    readItems .strict (fuel + 1) depth first (']' :: rest) = ⟨([], .closed), .ok rest⟩ := by
  simp [readItems, skipBlanks_cons (c := ']') rfl]

theorem readItems_first {item : Json} (exact : item.IsExact) (items : List Json) :
    readItems .strict (fuel + 1) depth true (itemChars (item :: items) ++ rest) =
      readItem .strict fuel depth (itemChars (item :: items) ++ rest) := by
  obtain ⟨c, cs, written, solid, open_⟩ := chars_starts exact
  rw [itemChars_cons, written, List.cons_append, List.cons_append, readItems, skipBlanks_cons solid]
  simp [open_]

theorem readItems_next {item : Json} (exact : item.IsExact) (items : List Json) :
    readItems .strict (fuel + 1) depth false (itemTail (item :: items) ++ rest) =
      readItem .strict fuel depth (itemChars (item :: items) ++ rest) := by
  obtain ⟨c, cs, written, solid, open_⟩ := chars_starts exact
  rw [itemTail, itemChars_cons, written, List.cons_append, List.cons_append, List.cons_append,
    readItems, skipBlanks_cons rfl]
  · simp [skipBlanks_cons solid, open_]
  · simp

/-- An item and those behind it. -/
theorem readItem_of {item : Json} {items : List Json}
    (here : readValue .strict fuel depth (item.chars ++ (itemTail items ++ rest)) =
      ⟨Doc.ofJson item, .ok (itemTail items ++ rest)⟩)
    (behind : readItems .strict fuel depth false (itemTail items ++ rest) =
      ⟨(Doc.ofItems items, .closed), .ok rest⟩) :
    readItem .strict (fuel + 1) depth (itemChars (item :: items) ++ rest) =
      ⟨(Doc.ofItems (item :: items), .closed), .ok rest⟩ := by
  rw [itemChars_cons, List.append_assoc, readItem, here]
  simp only [behind, Doc.ofItems]

theorem readEntries_closed (first : Bool) :
    readEntries .strict (fuel + 1) depth first ('\x7d' :: rest) = ⟨([], .closed), .ok rest⟩ := by
  simp [readEntries, skipBlanks_cons (c := '\x7d') rfl]

/-- The text of entries behind the first quote. -/
def unquotedChars (name : String) (value : Json) (entries : List (String × Json)) : List Char :=
  name.toList.flatMap escapedChar ++ '"' :: ':' :: (value.chars ++ entryTail entries)

theorem entryChars_unquoted (name : String) (value : Json) (entries : List (String × Json)) :
    entryChars ((name, value) :: entries) = '"' :: unquotedChars name value entries := by
  simp [entryChars_cons, unquotedChars, quotedChars]

theorem readEntries_first (name : String) (value : Json) (entries : List (String × Json)) :
    readEntries .strict (fuel + 1) depth true (entryChars ((name, value) :: entries) ++ rest) =
      readEntry .strict fuel depth .stopped (unquotedChars name value entries ++ rest) := by
  rw [entryChars_unquoted, List.cons_append, readEntries, skipBlanks_cons rfl]
  simp

theorem readEntries_next (name : String) (value : Json) (entries : List (String × Json)) :
    readEntries .strict (fuel + 1) depth false (entryTail ((name, value) :: entries) ++ rest) =
      readEntry .strict fuel depth .dangling (unquotedChars name value entries ++ rest) := by
  rw [entryTail, entryChars_unquoted, List.cons_append, List.cons_append, readEntries,
    skipBlanks_cons rfl]
  · simp [skipBlanks_cons (c := '"') rfl]
  · simp

/-- An entry and those behind it. -/
theorem readEntry_of {name : String} {value : Json} {entries : List (String × Json)}
    (noKey : Fault → Tail)
    (here : readValue .strict fuel depth (value.chars ++ (entryTail entries ++ rest)) =
      ⟨Doc.ofJson value, .ok (entryTail entries ++ rest)⟩)
    (behind : readEntries .strict fuel depth false (entryTail entries ++ rest) =
      ⟨(Doc.ofEntries entries, .closed), .ok rest⟩) :
    readEntry .strict (fuel + 1) depth noKey (unquotedChars name value entries ++ rest) =
      ⟨(Doc.ofEntries ((name, value) :: entries), .closed), .ok rest⟩ := by
  have text : unquotedChars name value entries ++ rest = name.toList.flatMap escapedChar ++
      '"' :: ':' :: (value.chars ++ (entryTail entries ++ rest)) := by simp [unquotedChars]
  rw [text, readEntry, quotation_quoted]
  simp only [skipBlanks_cons (c := ':') rfl, if_true, here, behind, Doc.ofEntries,
    String.ofList_toList]

end Values

mutual

/-- A document is read to its last character. -/
theorem readValue_chars : (j : Json) → j.IsExact → ∀ {fuel depth : Nat} {rest : List Char},
    3 * j.chars.length ≤ fuel → j.nesting ≤ depth → Delimits rest →
    readValue .strict fuel depth (j.chars ++ rest) = ⟨Doc.ofJson j, .ok rest⟩
  | .null, _, fuel + 1, _, _, _, _, _ => readValue_word .null (.inl rfl)
  | .bool true, _, fuel + 1, _, _, _, _, _ => readValue_word (.bool true) (.inr (.inl rfl))
  | .bool false, _, fuel + 1, _, _, _, _, _ => readValue_word (.bool false) (.inr (.inr rfl))
  | .int n, ⟨low, high⟩, fuel, _, _, enough, _, delimits => by
    obtain ⟨c, cs, written, _⟩ := intDigits_starts n
    rw [chars, written, List.length_cons] at enough
    obtain ⟨fuel, rfl⟩ : ∃ more, fuel = more + 1 := ⟨fuel - 1, by omega⟩
    exact readValue_int low high delimits
  | .float _, exact, _, _, _, _, _, _ => exact.elim
  | .string s, _, fuel + 1, _, _, _, _, _ => readValue_string s
  | .array [], _, fuel + 2, depth + 1, _, _, _, _ => readValue_array (readItems_closed true)
  | .array (item :: items), ⟨exact, others⟩, fuel, depth, rest, enough, nested, _ => by
    have size := length_itemChars item items
    simp only [chars, List.length_cons, nesting, itemsNesting] at enough nested
    obtain ⟨fuel, rfl⟩ : ∃ more, fuel = more + 3 := ⟨fuel - 3, by omega⟩
    obtain ⟨depth, rfl⟩ : ∃ more, depth = more + 1 := ⟨depth - 1, by omega⟩
    refine readValue_array ?_
    rw [readItems_first exact]
    refine readItem_of (readValue_chars item exact ?_ ?_ (itemTail_delimits items rest))
      (readItems_itemTail items others ?_ ?_) <;> omega
  | .object [], _, fuel + 2, depth + 1, _, _, _, _ => readValue_object (readEntries_closed true)
  | .object ((name, value) :: entries), ⟨_, exact, others⟩, fuel, depth, rest, enough, nested, _ => by
    have size := length_entryChars name value entries
    simp only [chars, List.length_cons, nesting, entriesNesting] at enough nested
    obtain ⟨fuel, rfl⟩ : ∃ more, fuel = more + 3 := ⟨fuel - 3, by omega⟩
    obtain ⟨depth, rfl⟩ : ∃ more, depth = more + 1 := ⟨depth - 1, by omega⟩
    refine readValue_object ?_
    rw [readEntries_first]
    refine readEntry_of _ (readValue_chars value exact ?_ ?_ (entryTail_delimits entries rest))
      (readEntries_entryTail entries others ?_ ?_) <;> omega

theorem readItems_itemTail : (items : List Json) → AllExact items →
    ∀ {fuel depth : Nat} {rest : List Char},
    3 * (itemTail items).length ≤ fuel → itemsNesting items ≤ depth →
    readItems .strict fuel depth false (itemTail items ++ rest) =
      ⟨(Doc.ofItems items, .closed), .ok rest⟩
  | [], _, fuel + 1, _, _, _, _ => readItems_closed false
  | item :: items, ⟨exact, others⟩, fuel, depth, rest, enough, nested => by
    have size := length_itemChars item items
    rw [itemTail, List.length_cons] at enough
    · rw [itemsNesting] at nested
      obtain ⟨fuel, rfl⟩ : ∃ more, fuel = more + 2 := ⟨fuel - 2, by omega⟩
      rw [readItems_next exact]
      refine readItem_of (readValue_chars item exact ?_ ?_ (itemTail_delimits items rest))
        (readItems_itemTail items others ?_ ?_) <;> omega
    · simp

theorem readEntries_entryTail : (entries : List (String × Json)) → EntriesExact entries →
    ∀ {fuel depth : Nat} {rest : List Char},
    3 * (entryTail entries).length ≤ fuel → entriesNesting entries ≤ depth →
    readEntries .strict fuel depth false (entryTail entries ++ rest) =
      ⟨(Doc.ofEntries entries, .closed), .ok rest⟩
  | [], _, fuel + 1, _, _, _, _ => readEntries_closed false
  | (name, value) :: entries, ⟨exact, others⟩, fuel, depth, rest, enough, nested => by
    have size := length_entryChars name value entries
    rw [entryTail, List.length_cons] at enough
    · rw [entriesNesting] at nested
      obtain ⟨fuel, rfl⟩ : ∃ more, fuel = more + 2 := ⟨fuel - 2, by omega⟩
      rw [readEntries_next]
      refine readEntry_of _ (readValue_chars value exact ?_ ?_ (entryTail_delimits entries rest))
        (readEntries_entryTail entries others ?_ ?_) <;> omega
    · simp

end

/-! ## The document that was written -/

namespace Doc

mutual

theorem json_ofJson : (j : Json) → j.IsExact → (ofJson j).json = .ok j
  | .null, _ => rfl
  | .bool _, _ => rfl
  | .int _, _ => rfl
  | .float _, exact => exact.elim
  | .string _, _ => rfl
  | .array items, exact => by
    rw [ofJson, json, jsonItems_ofItems items exact]
    rfl
  | .object entries, ⟨distinct, exact⟩ => by
    rw [ofJson, json, jsonEntries_ofEntries entries exact]
    have same : Entries.putAll [] entries = entries := Entries.putAll_of_distinct distinct
    exact congrArg (fun entries => Except.ok (Json.object entries)) same

theorem jsonItems_ofItems : (items : List Json) → AllExact items →
    jsonItems (ofItems items) = .ok items
  | [], _ => rfl
  | item :: items, ⟨exact, others⟩ => by
    rw [ofItems, jsonItems, json_ofJson item exact, jsonItems_ofItems items others]
    rfl

theorem jsonEntries_ofEntries : (entries : List (String × Json)) → EntriesExact entries →
    jsonEntries (ofEntries entries) = .ok entries
  | [], _ => rfl
  | (name, value) :: entries, ⟨exact, others⟩ => by
    rw [ofEntries, jsonEntries, json_ofJson value exact, jsonEntries_ofEntries entries others]
    rfl

end

end Doc

/-- The text of a document is read as this document, to its end. -/
theorem read_text {j : Json} (exact : j.IsExact) (nested : j.nesting ≤ depthLimit) :
    read depthLimit j.text.toList = ⟨Doc.ofJson j, .ok []⟩ := by
  have whole : readValue .strict (3 * j.chars.length + 3) depthLimit (j.chars ++ []) =
      ⟨Doc.ofJson j, .ok []⟩ := readValue_chars j exact (Nat.le_add_right ..) nested nofun
  rwa [List.append_nil, ← String.toList_ofList (l := j.chars)] at whole

/-- What was written is read back, the order of the entries included. -/
theorem parse_text {j : Json} (exact : j.IsExact) (nested : j.nesting ≤ depthLimit) :
    parse j.text = .ok j := by
  rw [parse, parseWithin, read_text exact nested]
  simp only [Doc.json_ofJson j exact]
  rfl

end SqlMapper.Json

namespace SqlMapper

/-- A document is stored in a document column and comes back as it was. -/
theorem restore_store_json {p : Property} (document : p.kind = .json) {j : Json}
    (exact : j.IsExact) (nested : j.nesting ≤ 127) :
    restore (some p) (store (some p) (.json j)) = .json j := by
  have stored : store (some p) (.json j) = .text j.text := by
    simp [store, Value.isNull, document, storeJson, Value.toJson]
  have read := Json.parse_text exact nested
  rw [stored]
  simp [restore, document, restoreJson, read]

/-- Keys out of order, the largest and the least numbers, an empty list and an empty object, and a
text with a quote, a backslash and a control character. -/
theorem restore_store_json_mixed :
    restore (some .json) (store (some .json) (.json (.object
      [("z", .array [.int 18446744073709551615, .int (-9223372036854775808), .array []]),
        ("a\"", .object []), ("", .string "\\\x01é"), ("n", .null), ("b", .bool false)]))) =
      .json (.object
        [("z", .array [.int 18446744073709551615, .int (-9223372036854775808), .array []]),
          ("a\"", .object []), ("", .string "\\\x01é"), ("n", .null), ("b", .bool false)]) :=
  restore_store_json rfl (by simp [Json.IsExact, Json.AllExact, Json.EntriesExact, Entries.names])
    (by simp [Json.nesting, Json.itemsNesting, Json.entriesNesting])

end SqlMapper
