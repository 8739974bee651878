import SqlMapper.Proofs.Condition.Equality
import SqlMapper.Proofs.Condition.Patterns
import SqlMapper.Proofs.Query.Update
import SqlMapper.Proofs.Stability
import SqlMapper.Session.Basic

/-! # What is saved is what was stored

An insertion binds its values, whereas an update writes them as literals, and a literal keeps no NUL
characters. Otherwise the two store the same: a row that was loaded is saved with the cells it has,
each in its own column if there is no point in the name, and a text that is created, filtered by and
saved is one text for all three, as long as there is no NUL character in it.
-/

namespace SqlMapper

open Text

theorem Text.withoutNul_eq_iff {s : String} : withoutNul s = s ↔ '\x00' ∉ s.toList := by
  refine ⟨fun same member => ?_, withoutNul_eq⟩
  rw [← same, withoutNul, String.toList_ofList, List.mem_filter] at member
  exact absurd member.2 (by decide)

theorem Model.declaration?_of_get? {m : Model} {field : String} {p : Property}
    (declared : m.get? field = some p) : m.declaration? field = some p := by
  rw [declaration?, declared]

theorem Record.id?_insert (r : Record) (id : Int64) : id? (insert r idName id) = some id := by
  have found : (insert r idName id).get? idName = some (.int id) := Entries.get?_put_self _ _
  rw [id?, found]
  rfl

namespace Mapper

variable {b : Mapper}

/-- An update that sets anything is read back as its assignments. -/
theorem update_read (known : b.dialect.IsKnown) {r : Record} {id : Int64}
    (identity : Record.id? r = some id) (assigned : b.assignments r ≠ []) :
    ∃ sql u, b.update r = .ok sql ∧ b.dialect.tokens? sql.toList = some u.tokens ∧
      Update.ofTokens? u.tokens = some u ∧
      u = .ofAssignments b.model.tableName (b.assignments r) id := by
  have read := Dialect.tokens?_update known b.model.tableName assigned (assignments_cells r) id
  rw [← Update.tokens_ofAssignments] at read
  refine ⟨_, _, update_assigned identity (assignments_eq_nil.not.mp assigned), ?_, ?_, rfl⟩
  · rw [write, Statement.text, String.toList_ofList]
    exact read
  · rw [Update.tokens_ofAssignments]
    exact Update.ofTokens?_tokens b.model.tableName assigned id

/-! ## Rows that were loaded -/

/-- The record that a row with an identity is loaded as. -/
def loaded (b : Mapper) (row : Row) (id : Int64) : Record :=
  Record.insert (restoreRow b.model row) idName id

/-- The record that is found by its identity is its row, loaded. -/
theorem findById_eq_loaded (s : Session) (db : Database) (name : String) (id : Int64) :
    s.findById db name id = (do
      let b ← Activity.ofOutcome (s.mapper name)
      let row ← s.get db (b.selectById id)
      return row.map (b.loaded · id)) :=
  rfl

theorem id?_loaded (row : Row) (id : Int64) : Record.id? (b.loaded row id) = some id :=
  Record.id?_insert _ id

theorem declaredFields_insert (b : Mapper) (r : Record) (id : Int64) :
    b.declaredFields (Record.insert r idName id) = b.declaredFields r :=
  Entries.filter_put (by simp)

theorem ofText?_insertion (known : b.dialect.IsKnown) {r : Record} (nonempty : r.names ≠ [])
    (replacing : Bool) : Insertion.ofText? b.dialect (b.insertion replacing r).1 =
      some ⟨replacing, b.model.tableName, r.names, r.names.length⟩ := by
  have tokens : b.dialect.tokens? (b.insertion replacing r).1.toList =
      some (insertionTokens b.dialect replacing b.model.tableName r.names) := by
    rw [insertion, write, Statement.text, String.toList_ofList]
    exact Dialect.tokens?_insertion known replacing b.model.tableName nonempty
  rw [Insertion.ofText?, tokens]
  exact Insertion.ofTokens?_tokens known replacing b.model.tableName nonempty

section Texts

variable {field : String} {p : Property}

theorem store_text (textual : p.IsTextual) (s : String) : store (some p) (.text s) = .text s := by
  rcases textual with kind | kind <;> simp [store, Value.isNull, kind, storeText, Value.asText]

theorem bound_text (known : b.dialect.IsKnown) (declared : b.model.get? field = some p)
    (textual : p.IsTextual) {r : Record} {s : String} (given : r.get? field = some (.text s)) :
    ∀ replacing, ∃ read, Insertion.ofText? b.dialect (b.insertion replacing r).1 = some read ∧
      (field, Stored.text s) ∈ read.columns.zip (b.insertion replacing r).2 := by
  intro replacing
  have member := (r.get?_eq_some_iff field).mp given
  have nonempty : r.names ≠ [] := List.ne_nil_of_mem (List.mem_map_of_mem member)
  refine ⟨_, ofText?_insertion known nonempty replacing, ?_⟩
  rw [insertion, names_zip_cells, List.mem_map]
  exact ⟨_, member, by rw [Model.declaration?_of_get? declared, store_text textual]⟩

theorem assigned_text (known : b.dialect.IsKnown) (declared : b.model.get? field = some p)
    (textual : p.IsTextual) (other : field ≠ idName) {r : Record} {s : String}
    (given : r.get? field = some (.text s)) {id : Int64} (identity : Record.id? r = some id) :
    ∃ sql u, b.update r = .ok sql ∧ b.dialect.tokens? sql.toList = some u.tokens ∧
      Update.ofTokens? u.tokens = some u ∧
      (path field, Token.text (withoutNul s)) ∈ u.assignments := by
  have member := (r.get?_eq_some_iff field).mp given
  have assigned : (field, Literal.cell (.text s)) ∈ b.assignments r := by
    refine List.mem_filterMap.mpr ⟨_, member, ?_⟩
    rw [if_neg other, declared, Option.map_some, literal, store_text textual]
    simp
  obtain ⟨sql, u, written, tokens, read, same⟩ :=
    update_read known identity (List.ne_nil_of_mem assigned)
  refine ⟨sql, u, written, tokens, read, ?_⟩
  rw [same, Update.ofAssignments]
  exact List.mem_map.mpr ⟨_, assigned, rfl⟩

theorem compared_text (declared : b.model.get? field = some p) (textual : p.IsTextual)
    {s : String} {t : Test}
    (equality : t = .equals (.text s) ∨ t = .operators [(.eq, .value (.text s))]) :
    b.Yields ⟨[(field, t)], []⟩
      (.comparison ⟨path field, "=", [⟨none, .text (withoutNul s)⟩]⟩) := by
  have same := Model.declaration?_of_get? declared
  have scalar : b.model.scalar field (.text s) = .text (withoutNul s) := by
    rw [Model.scalar, same, store_text textual]
    rfl
  have yields := yields_equality (by rw [same]; rfl) equality
  rwa [Model.comparison, List.map_singleton, scalar] at yields

/-- An insertion binds a text as it is; the literals of an update and of a filter for equality are
read as the text without its NUL characters. So they are the same text exactly if it has none, which
is also when the row that was created is selected by the filter, texts being equal if they are the
same. -/
theorem created_text_saved (known : b.dialect.IsKnown) (declared : b.model.get? field = some p)
    (textual : p.IsTextual) (s : String) :
    (∀ r : Record, r.get? field = some (.text s) →
      (∀ replacing, ∃ read,
        Insertion.ofText? b.dialect (b.insertion replacing r).1 = some read ∧
          (field, Stored.text s) ∈ read.columns.zip (b.insertion replacing r).2) ∧
      ∀ id, field ≠ idName → Record.id? r = some id →
        ∃ sql u, b.update r = .ok sql ∧ b.dialect.tokens? sql.toList = some u.tokens ∧
          Update.ofTokens? u.tokens = some u ∧
          (path field, Token.text (withoutNul s)) ∈ u.assignments) ∧
    (withoutNul s = s ↔ '\x00' ∉ s.toList) ∧
    ∀ t, t = .equals (.text s) ∨ t = .operators [(.eq, .value (.text s))] →
      let e := Expression.comparison ⟨path field, "=", [⟨none, .text (withoutNul s)⟩]⟩
      b.Yields ⟨[(field, t)], []⟩ e ∧
        ∀ equal others row, (∀ x y, equal (.text x) (.text y) = decide (x = y)) →
          row (path field) = .text s →
          (e.truth (Comparison.truth equal others row) = .yes ↔ '\x00' ∉ s.toList) := by
  refine ⟨fun r given => ⟨bound_text known declared textual given, fun id other identity =>
    assigned_text known declared textual other given identity⟩, withoutNul_eq_iff,
    fun t equality => ⟨compared_text declared textual equality, ?_⟩⟩
  intro equal others row exact created
  have truth : Comparison.truth equal others row
      ⟨path field, "=", [⟨none, .text (withoutNul s)⟩]⟩ = .ofBool (decide (s = withoutNul s)) := by
    rw [Comparison.truth.eq_def]
    simp [Truth.equality, created, exact]
  rw [Expression.truth, truth, Truth.ofBool_eq_yes, decide_eq_true_eq, ← withoutNul_eq_iff]
  exact eq_comm

/-- A text with both quotes and a backslash. -/
theorem created_text_saved_quoted :
    let b : Mapper := ⟨.generic, (Model.ofName "User").define "bio" .text, .grouped⟩
    let s := "it\x27s 5\" \\ 6\""
    let r : Record := ⟨[("id", .int 1), ("bio", .text s)], by decide⟩
    b.dialect.IsKnown ∧ b.model.get? "bio" = some .text ∧ Property.IsTextual .text ∧
      r.get? "bio" = some (.text s) ∧ '\x00' ∉ s.toList ∧
      b.insert r = ("INSERT INTO `User` (`id`, `bio`) VALUES (?, ?)", [.int 1, .text s]) ∧
      ∃ u : Update, b.dialect.tokens? ("UPDATE `User` SET `bio` = \"it\x27s 5\"\" \\\\ 6\"\"\" " ++
          "WHERE `id` = 1").toList = some u.tokens ∧ (["bio"], .text s) ∈ u.assignments ∧
        ∃ e, b.Yields ⟨[("bio", .equals (.text s))], []⟩ e ∧
          ∀ equal others row, (∀ x y, equal (.text x) (.text y) = decide (x = y)) →
            row ["bio"] = .text s → e.truth (Comparison.truth equal others row) = .yes := by
  intro b s r
  have known : b.dialect.IsKnown := .inl rfl
  have declared : b.model.get? "bio" = some .text := rfl
  have textual : Property.IsTextual .text := .inr rfl
  have given : r.get? "bio" = some (.text s) := rfl
  have none : '\x00' ∉ s.toList := by decide +kernel
  have inserted : b.insert r =
      ("INSERT INTO `User` (`id`, `bio`) VALUES (?, ?)", [.int 1, .text s]) := by decide +kernel
  obtain ⟨stored, kept, selected⟩ := created_text_saved known declared textual s
  obtain ⟨sql, u, written, tokens, _, assigned⟩ := (stored r given).2 1 (by decide) rfl
  obtain ⟨yields, truth⟩ := selected _ (.inl rfl)
  have text : (b.update r).toOption = some ("UPDATE `User` SET `bio` = " ++
      "\"it\x27s 5\"\" \\\\ 6\"\"\" WHERE `id` = 1") := by decide +kernel
  rw [written] at text
  cases text
  rw [kept.mpr none] at assigned
  exact ⟨known, declared, textual, given, none, inserted, u, tokens, assigned, _, yields,
    fun equal others row exact created => (truth equal others row exact created).mpr none⟩

/-- A text with a NUL character is created as it is, and is saved and looked for without it, so that
the row is changed by the one and not found by the other. -/
theorem created_text_altered :
    let b : Mapper := ⟨.sqlite, (Model.ofName "User").define "name" .string, .grouped⟩
    let s := "a\x00b"
    let r : Record := ⟨[("id", .int 1), ("name", .text s)], by decide⟩
    let saved := "UPDATE `User` SET `name` = \x27ab\x27 WHERE `id` = 1"
    let filtered := "WHERE `name` = \x27ab\x27"
    b.insert r = ("INSERT INTO `User` (`id`, `name`) VALUES (?, ?)", [.int 1, .text s]) ∧
      b.update r = .ok saved ∧
      (∃ u, b.dialect.tokens? saved.toList = some u.tokens ∧ Update.ofTokens? u.tokens = some u ∧
        u.assignments.map (fun a => a.2.stored?) = [some (.text "ab")] ∧ "ab" ≠ s) ∧
      b.condition (Criteria.empty.equals "name" s) = .ok filtered ∧
      ∃ e, (b.dialect.tokens? filtered.toList).bind Expression.ofClause? = some e ∧
        ∀ equal others, (∀ x y, equal (.text x) (.text y) = decide (x = y)) →
          e.truth (Comparison.truth equal others fun _ => .text s) = .no := by
  intro b s r saved filtered
  let u : Update := ⟨"User", [(["name"], .text "ab")], "id", .number "1"⟩
  have inserted : b.insert r =
      ("INSERT INTO `User` (`id`, `name`) VALUES (?, ?)", [.int 1, .text s]) := by decide +kernel
  have written : b.write (.update "User" (b.assignments r) 1) = saved := by decide +kernel
  have updated : b.update r = .ok saved := congrArg Except.ok written
  have tokens : b.dialect.tokens? saved.toList = some u.tokens := by decide +kernel
  have stored : u.assignments.map (fun a => a.2.stored?) = [some (.text "ab")] := rfl
  have condition : b.condition (Criteria.empty.equals "name" s) = .ok filtered :=
    condition_eq_ok.mpr ⟨some (.atom (.compare "name" "=" (.cell (.text s)))), rfl,
      by decide +kernel⟩
  have read : (b.dialect.tokens? filtered.toList).bind Expression.ofClause? =
      some (.comparison ⟨["name"], "=", [⟨none, .text "ab"⟩]⟩) := by decide +kernel
  refine ⟨inserted, updated, ⟨u, tokens, by decide +kernel, stored, by decide +kernel⟩, condition,
    _, read, fun equal others exact => ?_⟩
  change Truth.ofBool (equal (.text s) (.text "ab")) = .no
  rw [exact]
  decide +kernel

end Texts

end Mapper

end SqlMapper
