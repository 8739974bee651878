import SqlMapper.Literal
import SqlMapper.Proofs.Lexis.Numeral

/-! # Written names and literals are single tokens

What a dialect writes for a name, a field or a cell reads back as one token, or, for a field, as
the names of its path. Nothing in a name or in a text can end its token early: the inductions
below follow the characters, each of which leaves the reader inside of the quotes. A text comes
back without its NUL characters and a float that is not finite as null.
-/

namespace SqlMapper

open Text

/-- A text as a string literal keeps it. -/
def Text.withoutNul (s : String) : String := String.ofList (s.toList.filter (· ≠ '\x00'))

/-- The names in the path of a field. -/
def Text.path (field : String) : List String := (splitAt '.' field.toList).map String.ofList

namespace Text

theorem splitAt_ne_nil (c : Char) (cs : List Char) : splitAt c cs ≠ [] := by
  cases cs with
  | nil => simp [splitAt]
  | cons head rest =>
    rw [splitAt]
    split
    · simp
    · split <;> simp

theorem path_ne_nil (field : String) : path field ≠ [] := by
  simp [path, splitAt_ne_nil]

end Text

/-- The token of a cell. -/
def Stored.token : Stored → Token
  | .null => .word "NULL"
  | .int n => .number (intText n.toInt)
  | .float x => if x.isFinite then .number x.plainText else .word "NULL"
  | .text s => .text (withoutNul s)
  | .blob bytes => .bytes bytes

/-- Names with a separator between them. -/
def Token.separated (separator : String) (names : List String) : List Token :=
  (names.map Token.name).intersperse (.symbol separator)

/-- Names with a separator between them, and what follows. -/
def readNames (separator : String) : List Token → Option (List String × List Token)
  | .name n :: .symbol s :: rest =>
      if s = separator then (readNames separator rest).map fun more => (n :: more.1, more.2)
      else some ([n], .symbol s :: rest)
  | .name n :: rest => some ([n], rest)
  | _ => none

theorem readNames_separated (separator : String) {names : List String} (nonempty : names ≠ [])
    {rest : List Token} (ends : ∀ more, rest ≠ .symbol separator :: more) :
    readNames separator (Token.separated separator names ++ rest) = some (names, rest) := by
  induction names with
  | nil => exact absurd rfl nonempty
  | cons name names ih =>
    cases names with
    | nil =>
      cases rest with
      | nil => rfl
      | cons t rest =>
        cases t with
        | symbol s =>
          have differ : s ≠ separator := fun same => ends rest (by rw [same])
          simp [Token.separated, readNames, differ]
        | _ => rfl
    | cons next names =>
      have tail := ih (by simp)
      simp only [Token.separated, List.map_cons, List.intersperse_cons_cons] at tail ⊢
      simp only [List.cons_append, readNames, if_true]
      rw [tail, Option.map_some]

namespace Dialect

variable {d : Dialect}

section Names

theorem scan_doubled (d : Dialect) (name read : List Char) :
    d.scan (.name read) (name.flatMap (doubleQuote d.identifierQuote) ++ [d.identifierQuote]) =
      some ([], .nameQuote (read ++ name)) := by
  induction name generalizing read with
  | nil => simp [scan, step]
  | cons c name ih =>
    have next := ih (read ++ [c])
    rw [List.append_assoc, List.singleton_append] at next
    by_cases quote : c = d.identifierQuote
    · have twice : d.scan (.name read) [d.identifierQuote, d.identifierQuote] =
          some ([], .name (read ++ [c])) := by simp [scan, step, quote]
      simpa [doubleQuote, quote] using scan_trans twice next
    · have once : d.step (.name read) c = some ([], .name (read ++ [c])) := by
        simp [step, quote]
      simpa [doubleQuote, quote] using scan_cons once next

/-- A quoted name is read up to its last quote, whatever is in it. -/
theorem scan_quoteName (d : Dialect) (name : List Char) :
    d.scan .between (d.quoteName name) = some ([], .nameQuote name) := by
  have opened : d.step .between d.identifierQuote = some ([], .name []) := by
    simp [step, start]
  simpa [quoteName] using scan_cons opened (scan_doubled d name [])

theorem tokens?_quoteName (d : Dialect) (name : List Char) :
    d.tokens? (d.quoteName name) = some [.name (String.ofList name)] := by
  simp [tokens?, scan_quoteName, Cursor.finish?]

theorem tokens?_identifier (d : Dialect) (name : String) :
    d.tokens? (d.identifier name) = some [.name name] := by
  simp [identifier, tokens?_quoteName]

theorem tokens?_append_identifier {front : List Char} {done : List Token}
    (closed : d.scan .between front = some (done, .between)) (name : String) :
    d.tokens? (front ++ d.identifier name) = some (done ++ [.name name]) := by
  rw [tokens?_append_of_scan closed, tokens?_identifier]
  rfl

theorem tokens?_identifier_space (known : d.IsKnown) (name : String) (back : List Char) :
    d.tokens? (d.identifier name ++ ' ' :: back) =
      (d.tokens? back).map (Token.name name :: ·) := by
  rw [tokens?_append known _ (tokens?_identifier d name) (by decide), tokens?_space known]
  rfl

/-- A name may be followed by a point. -/
theorem scan_quoteName_point (known : d.IsKnown) (name : List Char) :
    d.scan .between (d.quoteName name ++ ['.']) =
      some ([.name (String.ofList name), .symbol "."], .between) := by
  have point : d.scan (.nameQuote name) ['.'] =
      some ([.name (String.ofList name), .symbol "."], .between) := by
    rcases known with rfl | rfl <;> rfl
  exact scan_trans (scan_quoteName d name) point

theorem tokens?_joined (known : d.IsKnown) {pieces : List (List Char)} (some_piece : pieces ≠ []) :
    d.tokens? (joinWith ['.'] (pieces.map d.quoteName)) =
      some (Token.separated "." (pieces.map String.ofList)) := by
  induction pieces with
  | nil => exact absurd rfl some_piece
  | cons piece rest ih =>
    cases rest with
    | nil => simp [joinWith, Token.separated, tokens?_quoteName]
    | cons next rest =>
      have tail := ih (by simp)
      simp only [List.map_cons, joinWith] at tail ⊢
      rw [tokens?_append_of_scan (scan_quoteName_point known piece), tail]
      simp [Token.separated]

/-- A field reads back as the names of its path. -/
theorem tokens?_field (known : d.IsKnown) (field : String) :
    d.tokens? (d.field field) = some (Token.separated "." (path field)) :=
  tokens?_joined known (splitAt_ne_nil '.' field.toList)

end Names

section Strings

/-- One character of a string, with what is written for it. -/
theorem scan_stringChar (known : d.IsKnown) (read : List Char) (c : Char) :
    d.scan (.text read) (d.stringChar c) =
      some ([], .text (read ++ [c].filter (· ≠ '\x00'))) := by
  by_cases nul : c = '\x00'
  · subst nul
    simp [stringChar, scan]
  by_cases quote : c = d.stringQuote
  · subst quote
    simp [stringChar, nul, scan, step]
  have backslash : '\\' ≠ d.stringQuote := by
    rcases known.stringQuote with q | q <;> rw [q] <;> decide
  by_cases escapes : d.backslashEscapes = true
  · simp only [stringChar, nul, quote, escapes, if_true, if_false]
    split
    · simp_all [scan, step, unescape]
    · split
      · simp_all [scan, step, unescape]
      · split
        · simp_all [scan, step, unescape]
        · split <;> simp_all [scan, step, unescape]
  · simp [stringChar, nul, quote, escapes, scan, step]

theorem scan_stringChars (known : d.IsKnown) (s read : List Char) :
    d.scan (.text read) (s.flatMap d.stringChar) =
      some ([], .text (read ++ s.filter (· ≠ '\x00'))) := by
  induction s generalizing read with
  | nil => simp [scan]
  | cons c s ih =>
    have first := scan_trans (scan_stringChar known read c) (ih _)
    rw [List.flatMap_cons, first, List.append_assoc, ← List.filter_append]
    rfl

theorem spells_string (known : d.IsKnown) (s : String) :
    d.Spells (d.string s) (.text (withoutNul s)) := by
  have opened : d.step .between d.stringQuote = some ([], .text []) := by
    have other : d.stringQuote ≠ d.identifierQuote := by
      rw [known.identifierQuote]
      rcases known.stringQuote with q | q <;> rw [q] <;> decide
    simp [step, start, other]
  have closed (read : List Char) :
      d.scan (.text read) [d.stringQuote] = some ([], .textQuote read) := by
    simp [scan, step]
  exact ⟨_, scan_cons opened (scan_trans (scan_stringChars known s.toList []) (closed _)), rfl⟩

end Strings

section Cells

theorem hexValue?_hexDigitUpper {n : Nat} (small : n < 16) :
    hexValue? (hexDigitUpper n) = some n := by
  have all : ∀ k < 16, hexValue? (hexDigitUpper k) = some k := by decide
  exact all n small

theorem hexDigitUpper_ne_apostrophe {n : Nat} (small : n < 16) : hexDigitUpper n ≠ '\x27' := by
  have all : ∀ k < 16, hexDigitUpper k ≠ '\x27' := by decide
  exact all n small

theorem scan_byteDigits (d : Dialect) (read : List UInt8) (b : UInt8) :
    d.scan (.bytes read) (byteDigits b) = some ([], .bytes (read ++ [b])) := by
  have bound : b.toNat < 256 := b.toNat_lt
  have high : b.toNat / 16 < 16 := by omega
  have low : b.toNat % 16 < 16 := Nat.mod_lt _ (by decide)
  have whole : UInt8.ofNat (16 * (b.toNat / 16) + b.toNat % 16) = b := by
    rw [Nat.div_add_mod, UInt8.ofNat_toNat]
  have first : d.step (.bytes read) (hexDigitUpper (b.toNat / 16)) =
      some ([], .halfByte read (b.toNat / 16)) := by
    simp [step, hexDigitUpper_ne_apostrophe high, hexValue?_hexDigitUpper high]
  have second : d.step (.halfByte read (b.toNat / 16)) (hexDigitUpper (b.toNat % 16)) =
      some ([], .bytes (read ++ [b])) := by
    rw [step, hexValue?_hexDigitUpper low, Option.map_some, whole]
  exact scan_cons first (scan_cons second rfl)

theorem scan_hexadecimal (d : Dialect) (bytes read : List UInt8) :
    d.scan (.bytes read) (bytes.flatMap byteDigits) = some ([], .bytes (read ++ bytes)) := by
  induction bytes generalizing read with
  | nil => simp [scan]
  | cons b bytes ih =>
    rw [List.flatMap_cons, scan_trans (scan_byteDigits d read b) (ih _)]
    simp

theorem scan_bytes (d : Dialect) (bytes read : List UInt8) :
    d.scan (.bytes read) (bytes.flatMap byteDigits ++ ['\x27']) =
      some ([.bytes (read ++ bytes)], .between) := by
  have closed : d.scan (.bytes (read ++ bytes)) ['\x27'] =
      some ([.bytes (read ++ bytes)], .between) := by simp [scan, step]
  exact scan_trans (scan_hexadecimal d bytes read) closed

/-- The start of bytes. -/
theorem scan_openBytes (known : d.IsKnown) :
    d.scan .between ['X', '\x27'] = some ([], .bytes []) := by
  rcases known with rfl | rfl <;> rfl

theorem tokens?_blob (known : d.IsKnown) (bytes : List UInt8) :
    d.tokens? (d.cell (.blob bytes)) = some [.bytes bytes] := by
  have run := scan_trans (scan_openBytes known) (scan_bytes d bytes [])
  rw [tokens?, cell, List.cons_append, List.cons_append]
  rw [List.cons_append, List.singleton_append] at run
  rw [run]
  rfl

theorem spells_null (known : d.IsKnown) : d.Spells "NULL".toList (.word "NULL") := by
  rcases known with rfl | rfl <;> exact ⟨_, rfl, rfl⟩

/-- What is written for a cell without bytes is ended by what follows. -/
theorem spells_cell (known : d.IsKnown) {stored : Stored} (other : ∀ bytes, stored ≠ .blob bytes) :
    d.Spells (d.cell stored) stored.token := by
  cases stored with
  | null => exact spells_null known
  | int n => exact spells_numeral known (isNumeral_intDigits n.toInt)
  | float x =>
    by_cases finite : x.isFinite = true
    · simp only [cell, Stored.token, finite, if_true]
      have numeral := spells_numeral known (Binary64.isNumeral_plainText finite)
      rwa [String.ofList_toList] at numeral
    · simp only [cell, Stored.token, finite]
      exact spells_null known
  | text s => exact spells_string known s
  | blob bytes => exact absurd rfl (other bytes)

/-- What is written for a cell is one token. -/
theorem tokens?_cell (known : d.IsKnown) (stored : Stored) :
    d.tokens? (d.cell stored) = some [stored.token] := by
  cases stored with
  | blob bytes => exact tokens?_blob known bytes
  | _ => exact (spells_cell known (by simp)).tokens?

end Cells

end Dialect

end SqlMapper
