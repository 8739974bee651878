import SqlMapper.Proofs.Lexis.Decoding
import SqlMapper.Proofs.Query.Insertion
import SqlMapper.Proofs.Query.Reference

/-! # What an update writes

An update is turned down without an identity, and then if nothing is left to set. Otherwise its text
is read back as the table, one assignment for each declared field of the record, and the one row of
the identity. An assignment is the path of its field and one token, so no name and no value reaches
beyond its place: commas and keywords inside of them are not among the tokens.
-/

namespace SqlMapper

open Text

/-! ## Reading an update -/

/-- What an update is read as. -/
structure Update where
  table : String
  /-- The path of each column, and the token that it is set to. -/
  assignments : List (List String × Token)
  /-- The column that the condition is on, and the token that it is compared to. -/
  key : String
  row : Token
  deriving DecidableEq, Repr

namespace Update

/-- The tokens of an update, all of them. -/
def tokens (u : Update) : List Token :=
  .word "UPDATE" :: .name u.table :: .word "SET" ::
    (Token.commas (u.assignments.map fun a => Token.separated "." a.1 ++ [.symbol "=", a.2]) ++
      [.word "WHERE", .name u.key, .symbol "=", u.row])

/-- The path and the token of an assignment. -/
def readAssignment? (ts : List Token) : Option (List String × Token) :=
  match readNames "." ts with
  | some (path, [.symbol "=", t]) => some (path, t)
  | _ => none

/-- Reads an update by its keywords and the commas between them. -/
def ofTokens? : List Token → Option Update
  | .word "UPDATE" :: .name table :: .word "SET" :: rest =>
      match rest.splitOn (.word "WHERE") with
      | [assignments, [.name key, .symbol "=", row]] =>
          ((Token.rows assignments).mapM readAssignment?).map fun read => ⟨table, read, key, row⟩
      | _ => none
  | _ => none

/-- The update of the row of an identity. -/
def ofAssignments (table : String) (assignments : List (String × Literal)) (id : Int64) : Update :=
  { table
    assignments := assignments.map fun a => (path a.1, a.2.stored.token)
    key := idName
    row := .number (intText id.toInt) }

variable {assignments : List (String × Literal)}

theorem tokens_ofAssignments (table : String) (assignments : List (String × Literal)) (id : Int64) :
    (ofAssignments table assignments id).tokens = updateTokens table assignments id := by
  simp only [tokens, ofAssignments, updateTokens, List.map_map]
  rfl

theorem readAssignment?_tokens (a : String × Literal) :
    readAssignment? (assignmentTokens a) = some (path a.1, a.2.stored.token) := by
  have read : readNames "." (fieldTokens a.1 ++ [.symbol "=", a.2.stored.token]) =
      some (path a.1, [.symbol "=", a.2.stored.token]) :=
    readNames_separated "." (path_ne_nil a.1) (by simp)
  rw [readAssignment?, assignmentTokens, read]
  rfl

/-- What is a name or the token of a cell is not a keyword of an update and not a comma. -/
theorem notMem_assignmentTokens {t : Token} (a : String × Literal)
    (plain : t = .symbol "," ∨ t = .word "WHERE") : t ∉ assignmentTokens a := by
  intro member
  rw [assignmentTokens, List.mem_append] at member
  rcases member with named | assigned
  · obtain rfl | ⟨name, _, rfl⟩ := Token.mem_separated named
    · exact absurd plain (by decide)
    · simp at plain
  · simp only [List.mem_cons, List.not_mem_nil, or_false] at assigned
    rcases assigned with rfl | rfl
    · exact absurd plain (by decide)
    · rcases plain with comma | keyword
      · exact Stored.token_ne_symbol _ _ comma
      · exact absurd (Stored.token_eq_word keyword) (by decide)

theorem keyword_notMem_assignments (assignments : List (String × Literal)) :
    Token.word "WHERE" ∉ Token.commas (assignments.map assignmentTokens) := by
  intro member
  obtain comma | ⟨row, inside, member⟩ := Token.mem_commas member
  · cases comma
  · obtain ⟨a, _, rfl⟩ := List.mem_map.mp inside
    exact notMem_assignmentTokens a (.inr rfl) member

/-- The tokens of an update are read as what it is. -/
theorem ofTokens?_tokens (table : String) (nonempty : assignments ≠ []) (id : Int64) :
    ofTokens? (updateTokens table assignments id) = some (ofAssignments table assignments id) := by
  let parts := [Token.commas (assignments.map assignmentTokens),
    [.name idName, .symbol "=", .number (intText id.toInt)]]
  have plain : ∀ part ∈ parts, Token.word "WHERE" ∉ part := by
    simp [parts, keyword_notMem_assignments]
  have pieces : ([Token.word "WHERE"].intercalate parts).splitOn (.word "WHERE") = parts :=
    List.splitOn_intercalate _ plain (by simp [parts])
  have rows : Token.rows (Token.commas (assignments.map assignmentTokens)) =
      assignments.map assignmentTokens := by
    apply Token.rows_commas (List.map_eq_nil_iff.not.mpr nonempty)
    intro row member
    obtain ⟨a, _, rfl⟩ := List.mem_map.mp member
    exact notMem_assignmentTokens a (.inl rfl)
  have read := mapM_read readAssignment?_tokens assignments
  simp only [parts, List.intercalate_cons_cons, List.intercalate_singleton, List.append_assoc,
    List.cons_append, List.nil_append] at pieces
  simp only [updateTokens, ofTokens?, pieces, rows, read, Option.map_some]
  rfl

end Update

/-! ## Records -/

namespace Mapper

variable {b : Mapper} {r : Record}

/-- The fields of a record that are declared, other than the key, in order. -/
def declaredFields (b : Mapper) (r : Record) : List (String × Value) :=
  r.entries.filter fun entry => entry.1 ≠ idName ∧ (b.model.get? entry.1).isSome

/-- Every declared field is assigned, and nothing else. -/
theorem assignments_eq (b : Mapper) (r : Record) :
    b.assignments r =
      (b.declaredFields r).map fun entry => (entry.1, literal (b.model.get? entry.1) entry.2) := by
  rw [assignments, declaredFields, ← List.filterMap_eq_map, List.filterMap_filter]
  refine List.filterMap_congr fun entry _ => ?_
  by_cases key : entry.1 = idName
  · simp [key]
  · cases declared : b.model.get? entry.1 <;> simp [key, declared]

theorem assignments_eq_nil : b.assignments r = [] ↔ b.declaredFields r = [] := by
  rw [assignments_eq, List.map_eq_nil_iff]

/-- An assignment sets the column of its field to a token that is read as what is stored. -/
structure Assigns (b : Mapper) (entry : String × Value) (a : List String × Token) : Prop where
  column : a.1 = path entry.1
  /-- What is stored is what the declaration makes of the value; it loses its NUL characters. -/
  stored : ∃ p, b.model.get? entry.1 = some p ∧
    ((∀ x, store (some p) entry.2 ≠ .float x) →
      a.2.stored? = some (store (some p) entry.2).asWritten) ∧
    ((∀ x, entry.2 = .float x → x.isFinite = true) →
      a.2.Denotes (store (some p) entry.2).asWritten)

theorem assigns_declared {entry : String × Value} (declared : entry ∈ b.declaredFields r) :
    b.Assigns entry (path entry.1, (literal (b.model.get? entry.1) entry.2).stored.token) := by
  rw [declaredFields, List.mem_filter, decide_eq_true_eq, Option.isSome_iff_exists] at declared
  obtain ⟨_, _, p, found⟩ := declared
  rw [found]
  refine ⟨rfl, p, found, Stored.stored?_token, fun finite => ?_⟩
  exact Stored.denotes_token fun _ stored => isFinite_store finite stored

theorem update_unassigned {id : Int64} (identity : Record.id? r = some id)
    (none : b.declaredFields r = []) : b.update r = .error (.emptyUpdate b.model.name) := by
  simp only [update, identity, assignments_eq_nil.mpr none]

theorem update_assigned {id : Int64} (identity : Record.id? r = some id)
    (nonempty : b.declaredFields r ≠ []) :
    b.update r = .ok (b.write (.update b.model.tableName (b.assignments r) id)) := by
  rw [Ne, ← assignments_eq_nil] at nonempty
  simp only [update, identity]

/-- An update is turned down without an identity, and otherwise exactly if no field but the key is
declared. Else it is read back to its end as one assignment for each declared field of the record in
the row of the identity. -/
theorem update_reads_back {b : Mapper} (known : b.dialect.IsKnown) (r : Record) :
    (b.update r = .error (.missingId b.model.name) ↔ Record.id? r = none) ∧
      ∀ id, Record.id? r = some id →
        (b.update r = .error (.emptyUpdate b.model.name) ↔ b.declaredFields r = []) ∧
        (b.declaredFields r ≠ [] → ∃ sql u, b.update r = .ok sql ∧
          b.dialect.tokens? sql.toList = some u.tokens ∧ Update.ofTokens? u.tokens = some u ∧
          u.table = b.model.tableName ∧
          List.Forall₂ b.Assigns (b.declaredFields r) u.assignments ∧
          u.key = idName ∧ u.row = .number (intText id.toInt) ∧
          u.row.stored? = some (.int id)) := by
  constructor
  · rw [update]
    cases Record.id? r with
    | none => simp
    | some id => cases b.assignments r <;> simp
  · intro id identity
    constructor
    · constructor
      · intro refused
        by_contra nonempty
        rw [update_assigned identity nonempty] at refused
        cases refused
      · exact update_unassigned identity
    · intro nonempty
      have assigned : b.assignments r ≠ [] := assignments_eq_nil.not.mpr nonempty
      have read := Dialect.tokens?_update known b.model.tableName assigned (assignments_cells r) id
      have row : (Stored.int id).token.stored? = some (.int id) :=
        Stored.stored?_token fun _ => Stored.noConfusion
      rw [← Update.tokens_ofAssignments] at read
      refine ⟨_, .ofAssignments b.model.tableName (b.assignments r) id,
        update_assigned identity nonempty, ?_, ?_, rfl, ?_, rfl, rfl, row⟩
      · rw [write, Statement.text, String.toList_ofList]
        exact read
      · rw [Update.tokens_ofAssignments]
        exact Update.ofTokens?_tokens b.model.tableName assigned id
      · rw [Update.ofAssignments, assignments_eq, List.map_map, List.forall₂_map_right_iff,
          List.forall₂_same]
        exact fun entry declared => assigns_declared declared

/-- A key that closes the quotes, a value that goes on as a statement, and a key that is not
declared. -/
theorem update_reads_back_hostile :
    let name := "a` = 1 WHERE 1 = 1 -- "
    let m := ((Model.ofName "User`s").define name .string).define "meta.tag" .number
    let b : Mapper := ⟨.sqlite, m, .grouped⟩
    let r : Record := ⟨[("id", .int 7), (name, .text "\x27, x = \x27"), ("x", .int 1),
      ("meta.tag", .text "12")], by decide⟩
    b.dialect.IsKnown ∧ Record.id? r = some 7 ∧
      b.declaredFields r = [(name, .text "\x27, x = \x27"), ("meta.tag", .text "12")] ∧
      ∃ u, b.dialect.tokens? ("UPDATE `User``s` SET `a`` = 1 WHERE 1 = 1 -- ` = \x27\x27\x27, " ++
          "x = \x27\x27\x27, `meta`.`tag` = 12 WHERE `id` = 7").toList = some u.tokens ∧
        Update.ofTokens? u.tokens = some u ∧ u.table = "User`s" ∧
        u.assignments.map Prod.fst = [[name], ["meta", "tag"]] ∧
        u.assignments.map (fun a => a.2.stored?) =
          [some (.text "\x27, x = \x27"), some (.int 12)] ∧
        u.key = "id" ∧ u.row = .number "7" := by
  intro name m b r
  have known : b.dialect.IsKnown := .inr rfl
  have identity : Record.id? r = some 7 := rfl
  have declared : b.declaredFields r =
      [(name, .text "\x27, x = \x27"), ("meta.tag", .text "12")] := rfl
  have nonempty : b.declaredFields r ≠ [] := declared ▸ List.cons_ne_nil _ _
  obtain ⟨sql, u, written, tokens, reads, table, assigns, key, row, _⟩ :=
    ((update_reads_back known r).2 7 identity).2 nonempty
  have text : b.write (.update b.model.tableName (b.assignments r) 7) =
      "UPDATE `User``s` SET `a`` = 1 WHERE 1 = 1 -- ` = \x27\x27\x27, " ++
        "x = \x27\x27\x27, `meta`.`tag` = 12 WHERE `id` = 7" := by decide +kernel
  rw [update_assigned identity nonempty, text] at written
  cases written
  have seven : Token.number (intText (7 : Int64).toInt) = .number "7" := by decide +kernel
  refine ⟨known, identity, declared, u, tokens, reads, table, ?_, ?_, key, row.trans seven⟩
  all_goals
    rw [declared] at assigns
    obtain ⟨table, assignments, key, row⟩ := u
    obtain _ | ⟨first, _ | ⟨second, _ | _⟩⟩ := assigns
  · simp only [List.map_cons, List.map_nil, first.column, second.column]
    decide +kernel
  · obtain ⟨p, found, stored, _⟩ := first.stored
    obtain ⟨q, other, kept, _⟩ := second.stored
    cases found
    cases other
    simp only [List.map_cons, List.map_nil]
    have number : store (some .number) (.text "12") = .int 12 := by decide +kernel
    rw [number] at kept
    rw [stored nofun, kept nofun]
    decide +kernel

end Mapper

end SqlMapper
