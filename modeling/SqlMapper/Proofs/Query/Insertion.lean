import SqlMapper.Query.Mapper
import SqlMapper.Proofs.Lexis.Reference
import SqlMapper.Proofs.Query.Written
import SqlMapper.Proofs.Schema.Command
import SqlMapper.Proofs.Storage

/-! # What an insertion binds reads back as the record

An insertion is read back as the table, the columns and the number of its placeholders. A column is
a field, so it is named by the names of its path with points between them. The columns are the names
of the record in their order, each has one placeholder and one bound value, and the row that has
these values in these columns holds the record again, as long as every value fits its property.
-/

namespace SqlMapper

open Text

/-! ## Tokens between separators -/

namespace Token

theorem mem_commas {t : Token} {rows : List (List Token)} (member : t ∈ commas rows) :
    t = .symbol "," ∨ ∃ row ∈ rows, t ∈ row := by
  induction rows with
  | nil => cases member
  | cons row rows ih =>
    cases rows with
    | nil => exact .inr ⟨row, by simp, by simpa [commas] using member⟩
    | cons next rows =>
      rw [commas, List.intercalate_cons_cons, List.mem_append, List.mem_append] at member
      rcases member with (own | comma) | later
      · exact .inr ⟨row, by simp, own⟩
      · exact .inl (List.mem_singleton.mp comma)
      · obtain comma | ⟨other, inside, member⟩ := ih later
        · exact .inl comma
        · exact .inr ⟨other, List.mem_cons_of_mem _ inside, member⟩

theorem mem_separated {t : Token} {separator : String} {names : List String}
    (member : t ∈ separated separator names) :
    t = .symbol separator ∨ ∃ name ∈ names, t = .name name := by
  induction names with
  | nil => cases member
  | cons name names ih =>
    cases names with
    | nil => exact .inr ⟨name, by simp, by simpa [separated] using member⟩
    | cons next names =>
      rw [separated, List.map_cons, List.map_cons, List.intersperse_cons_cons, List.mem_cons,
        List.mem_cons] at member
      rcases member with own | point | later
      · exact .inr ⟨name, by simp, own⟩
      · exact .inl point
      · obtain point | ⟨other, inside, same⟩ := ih later
        · exact .inl point
        · exact .inr ⟨other, List.mem_cons_of_mem _ inside, same⟩

theorem count_commas {t : Token} (other : t ≠ .symbol ",") (rows : List (List Token)) :
    (commas rows).count t = (rows.map (List.count t)).sum := by
  induction rows with
  | nil => rfl
  | cons row rows ih =>
    cases rows with
    | nil => simp [commas]
    | cons next rows =>
      have comma : [Token.symbol ","].count t = 0 := by simp [other.symm]
      rw [commas, List.intercalate_cons_cons, List.count_append, List.count_append, comma,
        Nat.add_zero, List.map_cons, List.sum_cons, ← ih]
      rfl

end Token

/-! ## Lists of an insertion -/

section Lists

variable {columns : List String}

/-- No symbol but commas and points stands among fields. -/
theorem symbol_notMem_fieldList {s : String} (comma : s ≠ ",") (point : s ≠ ".") :
    .symbol s ∉ fieldListTokens columns := by
  intro member
  obtain same | ⟨row, inside, member⟩ := Token.mem_commas member
  · exact comma (Token.symbol.inj same)
  · obtain ⟨column, _, rfl⟩ := List.mem_map.mp inside
    obtain same | ⟨name, _, same⟩ := Token.mem_separated member
    · exact point (Token.symbol.inj same)
    · cases same

theorem symbol_notMem_placeholders {s : String} (comma : s ≠ ",") (mark : s ≠ "?") :
    .symbol s ∉ placeholderTokens columns := by
  intro member
  obtain same | ⟨row, inside, member⟩ := Token.mem_commas member
  · exact comma (Token.symbol.inj same)
  · obtain ⟨_, _, rfl⟩ := List.mem_map.mp inside
    exact mark (Token.symbol.inj (List.mem_singleton.mp member))

theorem count_placeholders : (placeholderTokens columns).count (.symbol "?") = columns.length := by
  rw [placeholderTokens, Token.count_commas (by decide), List.map_map]
  simp [Function.comp_def, List.map_const']

theorem rows_fieldList (nonempty : columns ≠ []) :
    Token.rows (fieldListTokens columns) = columns.map fieldTokens := by
  apply Token.rows_commas (List.map_eq_nil_iff.not.mpr nonempty)
  intro row member comma
  obtain ⟨column, _, rfl⟩ := List.mem_map.mp member
  obtain same | ⟨name, _, same⟩ := Token.mem_separated comma
  · exact absurd same (by decide)
  · cases same

theorem rows_placeholders (nonempty : columns ≠ []) :
    Token.rows (placeholderTokens columns) = columns.map fun _ => [.symbol "?"] := by
  apply Token.rows_commas (List.map_eq_nil_iff.not.mpr nonempty)
  intro row member
  obtain ⟨_, _, rfl⟩ := List.mem_map.mp member
  decide

end Lists

/-! ## Reading an insertion -/

/-- What an insertion is read as. -/
structure Insertion where
  replacing : Bool
  table : String
  columns : List String
  placeholders : Nat
  deriving DecidableEq, Repr

/-- The field that tokens are, all of them. -/
def readField? (ts : List Token) : Option String :=
  match readNames "." ts with
  | some (names, []) => some (ofPath names)
  | _ => none

/-- The words that an insertion begins with, and what follows. -/
def readInsert? : List Token → Option (Bool × List Token)
  | .word "INSERT" :: .word "OR" :: .word "REPLACE" :: .word "INTO" :: rest => some (true, rest)
  | .word "INSERT" :: .word "INTO" :: rest => some (false, rest)
  | .word "REPLACE" :: .word "INTO" :: rest => some (true, rest)
  | _ => none

/-- The columns and the number of the placeholders, each list in parentheses of its own. -/
def readColumnList? (ts : List Token) : Option (List String × Nat) :=
  match ts.splitOn (.symbol ")") with
  | [columns, .word "VALUES" :: .symbol "(" :: values, []] =>
      if ∀ value ∈ Token.rows values, value = [.symbol "?"] then
        ((Token.rows columns).mapM readField?).map fun fields =>
          (fields, (Token.rows values).length)
      else none
  | _ => none

def Insertion.ofTokens? (ts : List Token) : Option Insertion :=
  (readInsert? ts).bind fun front =>
    match front.2 with
    | .name table :: .symbol "(" :: rest =>
        (readColumnList? rest).map fun lists => ⟨front.1, table, lists.1, lists.2⟩
    | _ => none

/-- Reads the text of an insertion. -/
def Insertion.ofText? (d : Dialect) (text : String) : Option Insertion :=
  (d.tokens? text.toList).bind ofTokens?

theorem readField?_tokens (field : String) : readField? (fieldTokens field) = some field := by
  have read : readNames "." (fieldTokens field ++ []) = some (path field, []) :=
    readNames_separated "." (path_ne_nil field) (by simp)
  rw [List.append_nil] at read
  simp [readField?, read]

theorem readColumnList?_tokens {columns : List String} (nonempty : columns ≠ []) :
    readColumnList? (fieldListTokens columns ++ .symbol ")" :: .word "VALUES" ::
      .symbol "(" :: (placeholderTokens columns ++ [.symbol ")"])) =
        some (columns, columns.length) := by
  let lists := [fieldListTokens columns, .word "VALUES" :: .symbol "(" :: placeholderTokens columns,
    []]
  have fields : Token.symbol ")" ∉ fieldListTokens columns :=
    symbol_notMem_fieldList (by decide) (by decide)
  have values : Token.symbol ")" ∉ placeholderTokens columns :=
    symbol_notMem_placeholders (by decide) (by decide)
  have pieces : ([Token.symbol ")"].intercalate lists).splitOn (.symbol ")") = lists :=
    List.splitOn_intercalate _ (by simp [lists, fields, values]) (by simp [lists])
  have marks : ∀ value ∈ columns.map fun _ => [Token.symbol "?"], value = [.symbol "?"] := by
    intro value member
    obtain ⟨_, _, rfl⟩ := List.mem_map.mp member
    rfl
  have read := mapM_read readField?_tokens columns
  rw [List.map_id'] at read
  simp only [lists, List.intercalate_cons_cons, List.intercalate_singleton, List.append_assoc,
    List.cons_append, List.nil_append, List.append_nil] at pieces
  rw [readColumnList?, pieces]
  simp only [rows_fieldList nonempty, rows_placeholders nonempty, if_pos marks, read,
    Option.map_some, List.length_map]

/-- The text of an insertion with columns is read as what it is. -/
theorem Insertion.ofTokens?_tokens {d : Dialect} (known : d.IsKnown) (replacing : Bool)
    (table : String) {columns : List String} (nonempty : columns ≠ []) :
    ofTokens? (insertionTokens d replacing table columns) =
      some ⟨replacing, table, columns, columns.length⟩ := by
  have front (rest : List Token) :
      readInsert? (d.insertWords replacing ++ rest) = some (replacing, rest) := by
    rcases known with rfl | rfl <;> cases replacing <;> rfl
  rw [insertionTokens, ofTokens?, front]
  simp only [Option.bind_some, readColumnList?_tokens nonempty, Option.map_some]

/-- The question marks of an insertion are its placeholders. -/
theorem count_insertionTokens {d : Dialect} (known : d.IsKnown) (replacing : Bool)
    (table : String) (columns : List String) :
    (insertionTokens d replacing table columns).count (.symbol "?") = columns.length := by
  have front : (d.insertWords replacing).count (.symbol "?") = 0 := by
    rcases known with rfl | rfl <;> cases replacing <;> rfl
  have fields : (fieldListTokens columns).count (.symbol "?") = 0 :=
    List.count_eq_zero.mpr (symbol_notMem_fieldList (by decide) (by decide))
  simp [insertionTokens, front, fields, count_placeholders]

/-! ## Records -/

namespace Mapper

/-- The columns of a record with the cells that are bound to them. -/
theorem names_zip_cells (b : Mapper) (r : Record) :
    r.names.zip (b.cells r) =
      r.entries.map fun entry => (entry.1, store (b.model.declaration? entry.1) entry.2) :=
  List.zip_map' ..

/-- A written insertion or replacement is read back with the names of the record as its columns,
with as many placeholders as bound values, and the row of these values holds the record. -/
theorem insertion_reads_back {b : Mapper} (known : b.dialect.IsKnown) {r : Record}
    (nonempty : r.names ≠ [])
    (fits : ∀ entry ∈ r.entries, entry.2.fits (b.model.declaration? entry.1)) (replacing : Bool) :
    let written := if replacing then b.upsert r else b.insert r
    ∃ ts read, b.dialect.tokens? written.1.toList = some ts ∧
      Insertion.ofTokens? ts = some read ∧ read.replacing = replacing ∧
      read.table = b.model.tableName ∧ read.columns = r.names ∧
      ts.count (.symbol "?") = read.columns.length ∧ read.placeholders = read.columns.length ∧
      written.2.length = read.columns.length ∧
      restoreRow b.model (read.columns.zip written.2) = r := by
  have chosen : (if replacing then b.upsert r else b.insert r) = b.insertion replacing r := by
    cases replacing <;> rfl
  have tokens : b.dialect.tokens? (b.insertion replacing r).1.toList =
      some (insertionTokens b.dialect replacing b.model.tableName r.names) := by
    rw [insertion, write, Statement.text, String.toList_ofList]
    exact Dialect.tokens?_insertion known replacing b.model.tableName nonempty
  rw [chosen]
  refine ⟨_, _, tokens, Insertion.ofTokens?_tokens known replacing b.model.tableName nonempty,
    rfl, rfl, rfl, count_insertionTokens known .., rfl, ?_, ?_⟩
  · simp [insertion, cells, Keyed.names, Entries.names]
  · rw [insertion, names_zip_cells]
    exact restoreRow_store fits

/-- Names with a point, a quote, commas, parentheses and a question mark. -/
theorem insertion_reads_back_hostile :
    let m := ((Model.ofName "User").define "a`, ?)" .boolean).define "note" .string
    let r : Record := ⟨[("id", .int 7), ("meta.tag", .text "?"), ("a`, ?)", .bool true),
      ("note", .null)], by decide⟩
    ∃ ts read, Dialect.sqlite.tokens? ("INSERT OR REPLACE INTO `User` (`id`, `meta`.`tag`, " ++
        "`a``, ?)`, `note`) VALUES (?, ?, ?, ?)").toList = some ts ∧
      Insertion.ofTokens? ts = some read ∧
      read.columns = ["id", "meta.tag", "a`, ?)", "note"] ∧ ts.count (.symbol "?") = 4 ∧
      restoreRow m (read.columns.zip [.int 7, .text "?", .int 1, .null]) = r := by
  intro m r
  let b : Mapper := ⟨.sqlite, m, .grouped⟩
  obtain ⟨ts, read, tokens, reads, _, _, columns, count, _, _, back⟩ :=
    insertion_reads_back (b := b) (.inr rfl) (r := r) (by decide) (by decide) true
  have written : (b.upsert r).1 = "INSERT OR REPLACE INTO `User` (`id`, `meta`.`tag`, " ++
      "`a``, ?)`, `note`) VALUES (?, ?, ?, ?)" := by decide +kernel
  refine ⟨ts, read, written ▸ tokens, reads, columns, ?_, back⟩
  rw [count, columns]
  rfl

end Mapper

end SqlMapper
