import SqlMapper.Proofs.Query.Saving
import SqlMapper.Proofs.Session.Request

/-! # Whose identity counts

A request that names a row goes to this row, whatever identity its record has, and what is found
under an identity has this identity, whatever the row says. Only a record that is created may get
its identity from the database, and only if it has none. The other fields are not touched: an
identity takes the place of the one there was, or the last place.
-/

namespace SqlMapper

/-! ## Fields other than the key -/

namespace Record

/-- The fields of a record without its identity. -/
def others (r : Record) : Entries Value := r.entries.filter fun entry => entry.1 ≠ idName

variable {r : Record} {id : Int64} {field : String}

theorem idName_mem (identity : id? r = some id) : idName ∈ r.names := by
  by_contra absent
  have none : r.get? idName = none := Entries.get?_eq_none_iff.mpr absent
  rw [id?, none] at identity
  cases identity

theorem others_insert (r : Record) (id : Int64) : others (insert r idName id) = others r :=
  Entries.filter_put (by simp)

theorem get?_insert_other (r : Record) (id : Int64) (other : field ≠ idName) :
    (insert r idName id).get? field = r.get? field :=
  Entries.get?_put_other _ _ other.symm

theorem names_insert (r : Record) (id : Int64) :
    (insert r idName id).names = if idName ∈ r.names then r.names else r.names ++ [idName] :=
  Entries.names_put _ _

end Record

namespace Mapper

variable {b : Mapper} {r r' : Record}

theorem declaredFields_others (b : Mapper) (r : Record) :
    b.declaredFields r = r.others.filter fun entry => (b.model.get? entry.1).isSome := by
  rw [declaredFields, Record.others, List.filter_filter]
  exact List.filter_congr fun entry _ => by simp [Bool.and_comm]

/-- What an update writes is the identity of the record and its other fields. -/
theorem update_congr (identity : Record.id? r = Record.id? r') (others : r.others = r'.others) :
    b.update r = b.update r' := by
  have assigned : b.assignments r = b.assignments r' := by
    rw [assignments_eq, assignments_eq, declaredFields_others, declaredFields_others, others]
  rw [update, update, identity, assigned]

/-- An update with a new identity sets the other fields, and ends with the condition on it. -/
theorem update_sets {id : Int64} {sql : String}
    (written : b.update (Record.insert r idName id) = .ok sql) :
    b.declaredFields r ≠ [] ∧ b.dialect.idCondition id <:+ sql.toList := by
  have identity := Record.id?_insert r id
  have nonempty : b.declaredFields (Record.insert r idName id) ≠ [] := by
    intro none
    rw [update_unassigned identity none] at written
    cases written
  have text := update_assigned identity nonempty
  rw [written] at text
  cases text
  rw [← b.declaredFields_insert r id]
  refine ⟨nonempty, ?_⟩
  rw [write, Statement.text, String.toList_ofList]
  exact List.suffix_append _ _

theorem entries_loaded (row : Row) (id : Int64) :
    (b.loaded row id).entries =
      Entries.putAll [] ((row.map fun cell =>
        (cell.1, restore (b.model.declaration? cell.1) cell.2)) ++ [(idName, .int id)]) := by
  rw [Entries.putAll, List.foldl_append]
  rfl

/-- A row is loaded with its columns where they are named first, and with its identity last if it
has no column for it. -/
theorem names_loaded (row : Row) (id : Int64) :
    (b.loaded row id).names = (row.names ++ [idName]).eraseDups := by
  have read : Entries.names ((row.map fun cell =>
      (cell.1, restore (b.model.declaration? cell.1) cell.2)) ++ [(idName, .int id)]) =
      row.names ++ [idName] := by
    simp [Entries.names, Function.comp_def]
  rw [Keyed.names, entries_loaded, Entries.names_putAll, read]
  simp [Entries.names, List.removeAll]

theorem get?_loaded (row : Row) (id : Int64) {column : String} (other : column ≠ idName) :
    (b.loaded row id).get? column =
      (Entries.get? column row.reverse).map (restore (b.model.declaration? column)) := by
  have last : Entries.get? column [(idName, Value.int id)] = none := if_neg other.symm
  rw [Keyed.get?, entries_loaded, Entries.get?_putAll, List.reverse_append, List.reverse_singleton,
    Entries.get?_append, last, ← List.map_reverse,
    Entries.get?_map fun name stored => restore (b.model.declaration? name) stored]
  simp [Entries.get?]

end Mapper

namespace Session

variable {s : Session} {db : Database} {name : String} {id : Int64} {r r' : Record}

/-! ## What is written to a row -/

theorem log_run (sql : String) (params : List Stored) :
    (s.run db sql params).log = [.run sql params] :=
  Activity.log_within_ofReply ..

theorem mem_log_save {event : Event} :
    event ∈ (s.save db name r).log ↔
      ∃ b sql, s.mapper name = .ok b ∧ b.update r = .ok sql ∧ event = .run sql [] := by
  change event ∈ ((Activity.ofOutcome (s.mapper name)).andThen fun b =>
    (accepted (b.update r)).andThen fun sql =>
      (s.run db sql []).andThen fun _ => .done ()).log ↔ _
  cases known : s.mapper name with
  | error cause =>
    rw [Activity.log_andThen_error rfl]
    simp [Activity.ofOutcome, Activity.log]
  | ok b =>
    rw [Activity.ofOutcome_andThen_ok]
    cases written : b.update r with
    | error cause =>
      rw [Activity.log_andThen_error rfl]
      simp [accepted, Activity.ofOutcome, Activity.log, written]
    | ok sql =>
      have turned : accepted (.ok sql : Except QueryError String) =
          Activity.ofOutcome (.ok sql) := rfl
      rw [turned, Activity.ofOutcome_andThen_ok, Activity.log_andThen_silent fun _ => rfl, log_run]
      simp [written]

theorem save_congr (identity : Record.id? r = Record.id? r') (others : r.others = r'.others) :
    s.save db name r = s.save db name r' := by
  simp only [save, Mapper.update_congr identity others]

/-! ## What comes back -/

/-- A request that has a result has it from a model. -/
theorem known_of_outcome {α : Type} {next : Mapper → Activity α} {a : α}
    (success : ((Activity.ofOutcome (s.mapper name)).andThen next).outcome = .ok a) :
    ∃ b, s.mapper name = .ok b ∧ (next b).outcome = .ok a := by
  cases known : s.mapper name with
  | error cause =>
    rw [known] at success
    cases success
  | ok b =>
    rw [known, Activity.ofOutcome_andThen_ok] at success
    exact ⟨b, rfl, success⟩

/-- A statement that has a result has it from the answer of the database. -/
theorem answered_of_outcome {α β : Type} {event : Event} {reply : Reply α} {answer : α → β} {c : β}
    (success : ((s.bounded (.ofReply event reply)).andThen fun a => .done (answer a)).outcome =
      .ok c) : ∃ a, reply.answer = .ok a ∧ answer a = c := by
  rw [Activity.outcome_andThen] at success
  cases ended : (s.bounded (.ofReply event reply)).outcome with
  | error cause =>
    rw [ended] at success
    cases success
  | ok a =>
    rw [ended] at success
    have answered : reply.answer.mapError SessionError.database = .ok a :=
      Activity.outcome_of_within ended
    cases result : reply.answer with
    | error cause =>
      rw [result] at answered
      cases answered
    | ok first =>
      rw [result] at answered
      cases answered
      exact ⟨a, rfl, Except.ok.inj success⟩

theorem outcome_findById {record : Record}
    (found : (s.findById db name id).outcome = .ok (some record)) :
    ∃ b row, s.mapper name = .ok b ∧ (db.get (b.selectById id) []).answer = .ok (some row) ∧
      record = b.loaded row id := by
  rw [Mapper.findById_eq_loaded] at found
  obtain ⟨b, known, found⟩ := known_of_outcome found
  obtain ⟨row, answered, loaded⟩ := answered_of_outcome found
  obtain ⟨cells, rfl, same⟩ := Option.map_eq_some_iff.mp loaded
  exact ⟨b, cells, known, answered, same.symm⟩

theorem outcome_updateOrCreate {record : Record}
    (written : (s.updateOrCreate db name r).outcome = .ok record) :
    ∃ b result, s.mapper name = .ok b ∧
      (db.run (b.upsert r).1 (b.upsert r).2).answer = .ok result ∧
      record = match Record.id? r with
        | some _ => r
        | none => Record.insert r idName result.lastInsertId := by
  obtain ⟨b, known, written⟩ := known_of_outcome written
  obtain ⟨result, answered, same⟩ := answered_of_outcome written
  exact ⟨b, result, known, answered, same.symm⟩

/-- A record that is written to a row of a given identity is saved as any record with this identity
and the same other fields, and what is sent for it says this identity and nothing else of the row.
A record that is found by an identity has it, and its other fields are the columns of the row where
they are named first, with what is read from their last cells. A record that is created has the
identity that it had, or else the one that the database reports, in the place of what was there or
in the last place. -/
theorem caller_identity_kept (s : Session) (db : Database) (name : String) (id : Int64)
    (r : Record) :
    ((∀ r', Record.id? r' = some id → r'.others = r.others →
        s.updateAttributes db name id r = s.save db name r') ∧
      ((s.updateAttributes db name id r).log ≠ [] ↔
        ∃ b, s.mapper name = .ok b ∧ b.declaredFields r ≠ []) ∧
      ∀ event ∈ (s.updateAttributes db name id r).log, ∃ b sql, s.mapper name = .ok b ∧
        event = .run sql [] ∧ b.dialect.idCondition id <:+ sql.toList ∧
        (b.dialect.IsKnown → ∃ u, b.dialect.tokens? sql.toList = some u.tokens ∧
          Update.ofTokens? u.tokens = some u ∧ u.table = b.model.tableName ∧
          List.Forall₂ b.Assigns (b.declaredFields r) u.assignments ∧
          u.key = idName ∧ u.row.stored? = some (.int id))) ∧
    (∀ record, (s.findById db name id).outcome = .ok (some record) → ∃ b row,
      s.mapper name = .ok b ∧ (db.get (b.selectById id) []).answer = .ok (some row) ∧
      Record.id? record = some id ∧ record.names = (row.names ++ [idName]).eraseDups ∧
      ∀ column, column ≠ idName → record.get? column =
        (Entries.get? column row.reverse).map (restore (b.model.declaration? column))) ∧
    ∀ record, (s.updateOrCreate db name r).outcome = .ok record → ∃ b result,
      s.mapper name = .ok b ∧ (db.run (b.upsert r).1 (b.upsert r).2).answer = .ok result ∧
      Record.id? record = some ((Record.id? r).getD result.lastInsertId) ∧
      ((Record.id? r).isSome → record = r) ∧
      record.names = (if idName ∈ r.names then r.names else r.names ++ [idName]) ∧
      ∀ field, field ≠ idName → record.get? field = r.get? field := by
  refine ⟨⟨?same, ?sends, ?text⟩, ?found, ?created⟩
  case same =>
    intro r' identity others
    exact save_congr ((Record.id?_insert r id).trans identity.symm)
      ((Record.others_insert r id).trans others.symm)
  case sends =>
    rw [Ne, List.eq_nil_iff_forall_not_mem, not_forall_not]
    constructor
    · rintro ⟨event, sent⟩
      obtain ⟨b, sql, known, written, -⟩ := mem_log_save.mp sent
      exact ⟨b, known, (Mapper.update_sets written).1⟩
    · rintro ⟨b, known, nonempty⟩
      rw [← b.declaredFields_insert r id] at nonempty
      exact ⟨_, mem_log_save.mpr
        ⟨b, _, known, Mapper.update_assigned (Record.id?_insert r id) nonempty, rfl⟩⟩
  case text =>
    intro event sent
    obtain ⟨b, sql, known, written, rfl⟩ := mem_log_save.mp sent
    obtain ⟨nonempty, addressed⟩ := Mapper.update_sets written
    refine ⟨b, sql, known, rfl, addressed, fun lexical => ?_⟩
    have fields := b.declaredFields_insert r id
    obtain ⟨_, u, same, tokens, read, table, assigns, key, -, row⟩ :=
      ((Mapper.update_reads_back lexical _).2 id (Record.id?_insert r id)).2 (fields ▸ nonempty)
    cases written.symm.trans same
    exact ⟨u, tokens, read, table, fields ▸ assigns, key, row⟩
  case found =>
    intro record found
    obtain ⟨b, row, known, answered, rfl⟩ := outcome_findById found
    exact ⟨b, row, known, answered, b.id?_loaded row id, Mapper.names_loaded row id,
      fun column => Mapper.get?_loaded row id⟩
  case created =>
    intro record written
    obtain ⟨b, result, known, answered, same⟩ := outcome_updateOrCreate written
    refine ⟨b, result, known, answered, ?_⟩
    cases identity : Record.id? r with
    | some own =>
      rw [identity] at same
      subst same
      exact ⟨identity, fun _ => rfl, (if_pos (Record.idName_mem identity)).symm, fun _ _ => rfl⟩
    | none =>
      rw [identity] at same
      subst same
      exact ⟨Record.id?_insert r _, nofun, Record.names_insert r _,
        fun field => Record.get?_insert_other r _⟩

/-- A record whose identity is a text that spells none, and a row that has a column twice and an
identity that was not asked for. -/
theorem caller_identity_kept_odd :
    let m := (Model.ofName "User").define "name" .string
    let s : Session := { dialect := .sqlite, registry := Registry.empty.define m }
    let row : Row := [("name", .text "a"), ("id", .int 3), ("name", .text "b")]
    let db : Database :=
      { run := fun _ _ => ⟨0, .ok ⟨9, 1⟩⟩, all := fun _ _ => ⟨0, .ok []⟩,
        get := fun _ _ => ⟨0, .ok (some row)⟩, batch := fun _ _ => ⟨0, .ok ()⟩ }
    let r : Record := ⟨[("id", .text "x"), ("name", .text "n")], by decide⟩
    (∃ sql, .run sql [] ∈ (s.updateAttributes db "User" 7 r).log ∧
      " WHERE `id` = 7".toList <:+ sql.toList) ∧
    (∃ record, (s.findById db "User" 7).outcome = .ok (some record) ∧
      Record.id? record = some 7 ∧ record.names = ["name", "id"] ∧
      (record.get? "name").bind Value.text? = some "b") ∧
    ∃ record, (s.updateOrCreate db "User" r).outcome = .ok record ∧
      Record.id? record = some 9 ∧ record.names = ["id", "name"] := by
  intro m s row db r
  obtain ⟨⟨_, sends, text⟩, found, created⟩ := caller_identity_kept s db "User" 7 r
  obtain ⟨b, known⟩ : ∃ b, s.mapper "User" = .ok b := ⟨_, rfl⟩
  have target : Dialect.sqlite.idCondition 7 = " WHERE `id` = 7".toList := by decide +kernel
  have sqlite : b.dialect = .sqlite := by
    cases known
    rfl
  have nonempty : b.declaredFields r ≠ [] := by
    cases known
    decide
  refine ⟨?_, ?_, ?_⟩
  · obtain ⟨event, sent⟩ := List.exists_mem_of_ne_nil _ (sends.mpr ⟨b, known, nonempty⟩)
    obtain ⟨b', sql, same, rfl, addressed, -⟩ := text event sent
    cases known.symm.trans same
    rw [sqlite, target] at addressed
    exact ⟨sql, sent, addressed⟩
  · obtain ⟨record, outcome⟩ : ∃ record,
        (s.findById db "User" 7).outcome = .ok (some record) := ⟨_, rfl⟩
    obtain ⟨b', row', same, answered, identity, names, get⟩ := found record outcome
    cases known.symm.trans same
    cases answered
    refine ⟨record, outcome, identity, names, ?_⟩
    rw [get "name" (by decide)]
    cases known
    rfl
  · obtain ⟨record, outcome⟩ : ∃ record,
        (s.updateOrCreate db "User" r).outcome = .ok record := ⟨_, rfl⟩
    obtain ⟨b', result, same, answered, identity, -, names, -⟩ := created record outcome
    cases answered
    exact ⟨record, outcome, identity, names⟩

end Session

end SqlMapper
