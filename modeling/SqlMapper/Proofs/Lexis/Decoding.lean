import SqlMapper.Proofs.Lexis.Written
import SqlMapper.Proofs.Number.Reading

/-! # Literals read back

A reader that stands before a literal reads its token as far as it goes and takes it for the
content of a cell: a numeral for a word if it fits one, a string for its text and bytes for
themselves. Before a delimiter, or at the end, it gets back what was stored, and what follows the
literal is left to be read. Only the NUL characters of a text are lost.

A numeral alone does not tell a word from a float: `1` is written for both. So a float is not what
the numeral is taken for but what it denotes, bit for bit.
-/

namespace SqlMapper

open Text

/-- The token that is complete. -/
def Cursor.token? (s : Cursor) : Option Token :=
  match s.finish? with
  | some [t] => some t
  | _ => none

/-- The content of a cell that a token is taken for by itself. -/
def Token.stored? : Token → Option Stored
  | .word w => if w = "NULL" then some .null else none
  | .number digits =>
      match int64? digits.toList with
      | some n => some (.int n)
      | none => (real? digits.toList).map .float
  | .text s => some (.text s)
  | .bytes bs => some (.blob bs)
  | _ => none

/-- What a token can stand for in a column. A numeral denotes the word that it spells, if there is
one, and the float nearest to it. -/
inductive Token.Denotes : Token → Stored → Prop
  | null : Denotes (.word "NULL") .null
  | int {digits n} : int64? digits.toList = some n → Denotes (.number digits) (.int n)
  | float {digits x} : real? digits.toList = some x → Denotes (.number digits) (.float x)
  | text (s) : Denotes (.text s) (.text s)
  | bytes (bs) : Denotes (.bytes bs) (.blob bs)

/-- The content of a cell as a literal keeps it. -/
def Stored.asWritten : Stored → Stored
  | .text s => .text (Text.withoutNul s)
  | stored => stored

namespace Dialect

/-- Reads one token and leaves what follows it. A token ends before a character that cannot belong
to it, or with one that completes it. -/
def readToken? (d : Dialect) : Cursor → List Char → Option (Token × List Char)
  | s, [] => s.token?.map fun t => (t, [])
  | s, c :: cs =>
      match d.step s c, s.token? with
      | some ([], next), _ => readToken? d next cs
      | _, some t => some (t, c :: cs)
      | some ([t], _), none => some (t, cs)
      | _, none => none

/-- Reads one literal and leaves what follows it. -/
def readLiteral? (d : Dialect) (cs : List Char) : Option (Stored × List Char) :=
  (d.readToken? .between cs).bind fun read => read.1.stored?.map fun stored => (stored, read.2)

variable {d : Dialect}

/-- As long as no token is complete the reader goes on. -/
theorem readToken?_append {s next : Cursor} {front : List Char}
    (inside : d.scan s front = some ([], next)) (back : List Char) :
    d.readToken? s (front ++ back) = d.readToken? next back := by
  induction front generalizing s with
  | nil =>
    cases inside
    rfl
  | cons c front ih =>
    rw [scan, Option.bind_eq_some_iff] at inside
    obtain ⟨⟨done, middle⟩, first, inside⟩ := inside
    obtain ⟨⟨more, last⟩, rest, same⟩ := Option.map_eq_some_iff.mp inside
    obtain ⟨rfl, rfl⟩ : done = [] ∧ more = [] := by simpa using congrArg Prod.fst same
    cases same
    rw [List.cons_append, readToken?, first]
    exact ih rest

/-- A complete token ends before a delimiter. -/
theorem readToken?_complete (known : d.IsKnown) {s : Cursor} {t : Token}
    (complete : s.finish? = some [t]) {follow : List Char}
    (delimited : ∀ c ∈ follow.head?, delimits c = true) :
    d.readToken? s follow = some (t, follow) := by
  have token : s.token? = some t := by rw [Cursor.token?, complete]
  cases follow with
  | nil => rw [readToken?, token, Option.map_some]
  | cons c cs =>
    rw [readToken?, token, step_of_delimits known complete (delimited c rfl), restart, complete]
    cases d.start c <;> rfl

theorem readToken?_spells (known : d.IsKnown) {front : List Char} {t : Token}
    (spells : d.Spells front t) {follow : List Char}
    (delimited : ∀ c ∈ follow.head?, delimits c = true) :
    d.readToken? .between (front ++ follow) = some (t, follow) := by
  obtain ⟨s, inside, complete⟩ := spells
  rw [readToken?_append inside, readToken?_complete known complete delimited]

/-- Bytes end with their quote. -/
theorem readToken?_blob (known : d.IsKnown) (bytes : List UInt8) (follow : List Char) :
    d.readToken? .between (d.cell (.blob bytes) ++ follow) = some (.bytes bytes, follow) := by
  have inside := scan_trans (scan_openBytes known) (scan_hexadecimal d bytes [])
  have closed : d.step (.bytes bytes) '\x27' = some ([.bytes bytes], .between) := by simp [step]
  have split : d.cell (.blob bytes) ++ follow =
      (['X', '\x27'] ++ bytes.flatMap byteDigits) ++ '\x27' :: follow := by simp [cell]
  rw [split, readToken?_append inside, List.nil_append, readToken?, closed]
  rfl

theorem readToken?_cell (known : d.IsKnown) (stored : Stored) {follow : List Char}
    (delimited : ∀ c ∈ follow.head?, delimits c = true) :
    d.readToken? .between (d.cell stored ++ follow) = some (stored.token, follow) := by
  cases stored with
  | blob bytes => exact readToken?_blob known bytes follow
  | _ => exact readToken?_spells known (spells_cell known (by simp)) delimited

end Dialect

namespace Stored

/-- The token of a cell without a float is taken for its content. -/
theorem stored?_token {stored : Stored} (exact : ∀ x, stored ≠ .float x) :
    stored.token.stored? = some stored.asWritten := by
  cases stored with
  | null => rfl
  | int n => simp [token, Token.stored?, intText, int64?_intDigits, asWritten]
  | float x => exact absurd rfl (exact x)
  | text s => rfl
  | blob bytes => rfl

/-- The token of a cell denotes its content. -/
theorem denotes_token {stored : Stored} (finite : ∀ x, stored = .float x → x.isFinite = true) :
    stored.token.Denotes stored.asWritten := by
  cases stored with
  | null => exact .null
  | int n => exact .int (by rw [intText, String.toList_ofList, int64?_intDigits])
  | float x =>
    rw [token, if_pos (finite x rfl)]
    exact .float (Binary64.real?_plainText (finite x rfl))
  | text s => exact .text _
  | blob bytes => exact .bytes _

end Stored

/-! ## Floats in columns -/

theorem isFinite_readNumber? {s : String} {x : Binary64} (read : readNumber? s = some (.float x)) :
    x.isFinite = true := by
  simp only [readNumber?] at read
  split at read
  · cases read
  · obtain ⟨y, kept, same⟩ := Option.map_eq_some_iff.mp read
    cases same
    exact (Option.filter_eq_some_iff.mp kept).2

theorem isFinite_storeNumber {v : Value} (finite : ∀ x, v = .float x → x.isFinite = true)
    {x : Binary64} (stored : storeNumber v = .float x) : x.isFinite = true := by
  cases v with
  | text s =>
    cases read : readNumber? s with
    | none =>
      rw [storeNumber, read] at stored
      cases stored
    | some number =>
      rw [storeNumber, read, Option.getD_some] at stored
      exact isFinite_readNumber? (stored ▸ read)
  | float y =>
    cases stored
    exact finite x rfl
  | _ => cases stored

theorem storeDate_ne_float (v : Value) (x : Binary64) : storeDate v ≠ .float x := by
  intro stored
  simp only [storeDate] at stored
  split at stored
  · cases stored
  · split at stored <;> cases stored
  · cases stored

theorem storeJson_ne_float (v : Value) (x : Binary64) : storeJson v ≠ .float x := by
  cases v <;> nofun

theorem storeText_ne_float (v : Value) (x : Binary64) : storeText v ≠ .float x := by
  cases v <;> nofun

/-- A column holds no float that is not finite unless it was given one. -/
theorem isFinite_store {p : Property} {v : Value} (finite : ∀ x, v = .float x → x.isFinite = true)
    {x : Binary64} (stored : store (some p) v = .float x) : x.isFinite = true := by
  rw [store] at stored
  split at stored
  · cases stored
  · split at stored
    · exact isFinite_storeNumber finite stored
    · cases stored
    · exact absurd stored (storeDate_ne_float v x)
    · exact absurd stored (storeJson_ne_float v x)
    · exact absurd stored (storeText_ne_float v x)
    · exact absurd stored (storeText_ne_float v x)

namespace Dialect

variable {d : Dialect} {follow : List Char}

theorem readLiteral?_cell (known : d.IsKnown) (delimited : ∀ c ∈ follow.head?, delimits c = true)
    {stored : Stored} (exact : ∀ x, stored ≠ .float x) :
    d.readLiteral? (d.cell stored ++ follow) = some (stored.asWritten, follow) := by
  rw [readLiteral?, readToken?_cell known stored delimited, Option.bind_some,
    Stored.stored?_token exact, Option.map_some]

/-- A literal is read to its last character, whatever is in it, and gives what is stored. So the
literal of a declared field is one token, and it denotes the content of the column. -/
theorem literal_reads_back (known : d.IsKnown)
    (delimited : ∀ c ∈ follow.head?, delimits c = true) :
    (∀ stored : Stored, (∀ x, stored ≠ .float x) →
      d.readLiteral? (d.cell stored ++ follow) = some (stored.asWritten, follow)) ∧
    ∀ (p : Property) (v : Value), (∀ x, v = .float x → x.isFinite = true) →
      ∃ t, d.readToken? .between (d.literal (SqlMapper.literal (some p) v) ++ follow) =
          some (t, follow) ∧
        t.Denotes (store (some p) v).asWritten ∧
        ((∀ x, store (some p) v ≠ .float x) → t.stored? = some (store (some p) v).asWritten) := by
  refine ⟨fun stored exact => readLiteral?_cell known delimited exact, fun p v finite => ?_⟩
  have read : d.readToken? .between (d.literal (SqlMapper.literal (some p) v) ++ follow) =
      some ((store (some p) v).token, follow) :=
    readToken?_cell known (store (some p) v) delimited
  have denotes : (store (some p) v).token.Denotes (store (some p) v).asWritten :=
    Stored.denotes_token fun _ stored => isFinite_store finite stored
  exact ⟨_, read, denotes, Stored.stored?_token⟩

/-- A text with both quotes, a backslash, a line break and a NUL character, and a number given as
text, which the column keeps as a float. -/
theorem literal_reads_back_hostile :
    generic.readLiteral? (generic.cell (.text "\" OR \x27\\\n\x00") ++ [',', '1']) =
      some (.text "\" OR \x27\\\n", [',', '1']) ∧
    ∃ t, generic.readToken? .between
        (generic.literal (SqlMapper.literal (some .number) (.text "1.50")) ++ [')']) =
          some (t, [')']) ∧ t.Denotes (.float ⟨0x3FF8000000000000⟩) := by
  have known : generic.IsKnown := .inl rfl
  have comma : ∀ c ∈ [',', '1'].head?, delimits c = true := fun c first => by
    cases first
    rfl
  have closing : ∀ c ∈ [')'].head?, delimits c = true := fun c first => by
    cases first
    rfl
  have text := (literal_reads_back known comma).1 (.text "\" OR \x27\\\n\x00") nofun
  have stored : store (some .number) (.text "1.50") = .float ⟨0x3FF8000000000000⟩ := by
    decide +kernel
  obtain ⟨t, read, denotes, _⟩ := (literal_reads_back known closing).2 .number (.text "1.50") nofun
  rw [stored] at denotes
  exact ⟨text, t, read, denotes⟩

end Dialect

end SqlMapper
