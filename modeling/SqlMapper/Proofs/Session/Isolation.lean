import SqlMapper.Proofs.Session.Attribution
import SqlMapper.Proofs.Session.Planning

/-! # Models fail on their own

A migration treats each model as if it were the only one. What is sent for a model and whether it
fails is found for the model alone: the questions about its table up to the first that fails, then
one batch of all its statements. The migration of all models fails exactly if some model fails
alone, and reports those that do in the order of their names.
-/

namespace SqlMapper

/-! ## Questions and batches -/

/-- Statements one after the other, up to the first that fails. -/
def reached {α : Type} (answer : String → Except DatabaseError α) : List String → List String
  | [] => []
  | sql :: rest =>
      match answer sql with
      | .ok _ => sql :: reached answer rest
      | .error _ => [sql]

namespace Database

variable (db : Database)

/-- What arrives of some questions. -/
def asked (questions : List String) : List Event :=
  (reached (fun sql => (db.all sql []).answer) questions).map fun sql => .all sql []

/-- The failure of the first question that fails. -/
def questionFailure? (questions : List String) : Option DatabaseError :=
  questions.findSome? fun sql => Session.failed? (db.all sql []).answer

/-- What arrives of a batch: one call with all statements, of which those up to the first failure
are reached. -/
def sent (statements : List String) : List Event :=
  if statements = [] then []
  else .openBatch statements ::
    (reached (fun sql => (db.batch statements sql).answer) statements).map .batch

/-- The failure of the first statement of a batch that fails. -/
def batchFailure? (statements : List String) : Option DatabaseError :=
  statements.findSome? fun sql => Session.failed? (db.batch statements sql).answer

end Database

/-! ## Migrations of one model -/

/-- The two ways to bring the tables in line with the models. -/
inductive Migration
  | automigrate
  | autoupdate

namespace Migration

/-- The migration of all models. -/
def perform : Migration → Session → Database → Activity Unit
  | .automigrate => Session.automigrate
  | .autoupdate => Session.autoupdate

/-- What is done for one model. -/
def step : Migration → Session → Database → Model → Activity Unit
  | .automigrate => Session.recreate
  | .autoupdate => Session.synchronize

/-- The questions about the table of a model. -/
def questions : Migration → Session → Model → List String
  | .automigrate, _, _ => []
  | .autoupdate, s, m => s.questions m

/-- The statements for a model, if its table is found. -/
def statements : Migration → Session → Database → Model → List String
  | .automigrate, s, _, m =>
      (Definition.dropTable m.tableName true).text s.dialect :: m.creation.statements s.dialect m
  | .autoupdate, s, db, m => s.needed db m

/-- The failure of a model. -/
def failure? (kind : Migration) (s : Session) (db : Database) (m : Model) : Option DatabaseError :=
  db.questionFailure? (kind.questions s m) <|> db.batchFailure? (kind.statements s db m)

/-- What is sent for a model. The batch waits for all questions to be answered. -/
def sent (kind : Migration) (s : Session) (db : Database) (m : Model) : List Event :=
  db.asked (kind.questions s m) ++
    match db.questionFailure? (kind.questions s m) with
    | some _ => []
    | none => db.sent (kind.statements s db m)

/-- The failing models with their failures. -/
def failing (kind : Migration) (s : Session) (db : Database) : List (String × SessionError) :=
  s.models.filterMap fun m => (kind.failure? s db m).map fun cause => (m.name, .database cause)

/-- All that is sent, each event under the name of the model that it is sent for. -/
def attributed (kind : Migration) (s : Session) (db : Database) : List (String × Event) :=
  Activity.attributed (s.models.map fun m => (m.name, kind.step s db m))

end Migration

namespace Session

/-- The session with one model. -/
def only (s : Session) (m : Model) : Session := { s with registry := Registry.empty.define m }

variable {s : Session} {db : Database} {m : Model}

theorem failed?_andThen {first : Activity α} {next : α → Activity β} :
    failed? (first.andThen next).outcome =
      match first.outcome with
      | .ok a => failed? (next a).outcome
      | .error cause => some cause := by
  rw [Activity.outcome_andThen]
  cases first.outcome <;> rfl

/-! ## Failures -/

theorem failed?_batchSteps (reply : String → Reply Unit) (statements : List String) :
    failed? (batchSteps reply statements).outcome =
      (statements.findSome? fun sql => failed? (reply sql).answer).map .database := by
  induction statements with
  | nil => rfl
  | cons sql rest ih =>
    rw [batchSteps, failed?_andThen, List.findSome?_cons]
    simp only [Activity.ofReply]
    cases (reply sql).answer with
    | error cause => rfl
    | ok done => exact ih

theorem failed?_sendBatch (unlimited : s.Unlimited) (statements : List String) :
    failed? (s.sendBatch db statements).outcome = (db.batchFailure? statements).map .database := by
  rw [sendBatch]
  by_cases none : statements = []
  · subst none
    rfl
  · simp only [List.isEmpty_iff, none, if_false, bounded_eq unlimited.statements]
    exact failed?_andThen.trans (failed?_batchSteps _ _)

theorem failed?_pending (unlimited : s.Unlimited) :
    failed? (s.pending db m).outcome = (db.questionFailure? (s.questions m)).map .database := by
  have found : failed? (s.inspect db m).outcome = (s.failure? db m).map .database :=
    failed?_inspect unlimited
  rw [Database.questionFailure?, ← failure?, ← found, outcome_pending]
  cases (s.inspect db m).outcome <;> rfl

theorem failed?_step (unlimited : s.Unlimited) (kind : Migration) :
    failed? (kind.step s db m).outcome = (kind.failure? s db m).map .database := by
  cases kind with
  | automigrate => exact failed?_sendBatch unlimited _
  | autoupdate =>
    have asked : failed? (s.pending db m).outcome =
        (db.questionFailure? (s.questions m)).map .database := failed?_pending unlimited
    change failed? ((s.pending db m).andThen _).outcome = _
    rw [failed?_andThen]
    simp only [Migration.failure?, Migration.questions, Migration.statements, needed]
    cases found : (s.pending db m).outcome with
    | error cause =>
      rw [found] at asked
      obtain ⟨first, failed, same⟩ := Option.map_eq_some_iff.mp asked.symm
      rw [failed, ← same]
      rfl
    | ok statements =>
      rw [found] at asked
      rw [Option.map_eq_none_iff.mp asked.symm]
      exact failed?_sendBatch unlimited statements

/-! ## What is sent -/

theorem log_batchSteps_eq (reply : String → Reply Unit) (statements : List String) :
    (batchSteps reply statements).log =
      (reached (fun sql => (reply sql).answer) statements).map .batch := by
  induction statements with
  | nil => rfl
  | cons sql rest ih =>
    rw [batchSteps, Activity.log_ofReply_andThen, reached]
    cases (reply sql).answer with
    | error cause => rfl
    | ok done => rw [ih, List.map_cons]

theorem log_sendBatch_eq (unlimited : s.Unlimited) (statements : List String) :
    (s.sendBatch db statements).log = db.sent statements := by
  rw [log_sendBatch unlimited, log_batchSteps_eq, Database.sent]

/-- Questions are asked until one fails. -/
theorem log_pending_eq (unlimited : s.Unlimited) :
    (s.pending db m).log = db.asked (s.questions m) := by
  rw [log_pending, Database.asked, questions, reached]
  simp only [inspect, unlimited.all, bind]
  rw [Activity.log_ofReply_andThen]
  cases (db.all (s.dialect.columnQuery m.tableName) []).answer with
  | error cause => rfl
  | ok columns =>
    simp only [Activity.log_ofReply_andThen, reached]
    cases (db.all (s.dialect.indexQuery m.tableName) []).answer <;> rfl

theorem log_step (unlimited : s.Unlimited) (kind : Migration) :
    (kind.step s db m).log = kind.sent s db m := by
  cases kind with
  | automigrate => exact log_sendBatch_eq unlimited _
  | autoupdate =>
    have asked : failed? (s.pending db m).outcome =
        (db.questionFailure? (s.questions m)).map .database := failed?_pending unlimited
    change ((s.pending db m).andThen _).log = _
    simp only [Migration.sent, Migration.questions, Migration.statements, needed]
    rw [← log_pending_eq unlimited]
    cases found : (s.pending db m).outcome with
    | error cause =>
      rw [found] at asked
      obtain ⟨first, failed, same⟩ := Option.map_eq_some_iff.mp asked.symm
      rw [Activity.log_andThen_error found, failed, List.append_nil]
    | ok statements =>
      rw [found] at asked
      rw [Activity.log_andThen_ok found, Option.map_eq_none_iff.mp asked.symm,
        log_sendBatch_eq unlimited]

/-! ## Steps in order -/

theorem orderly_batchSteps (reply : String → Reply Unit) (statements : List String) :
    (batchSteps reply statements).Orderly := by
  induction statements with
  | nil => exact Activity.orderly_ofOutcome _
  | cons sql rest ih =>
    rw [batchSteps]
    apply (Activity.orderly_ofReply _ _).andThen
    intro done
    exact ih

theorem orderly_sendBatch (s : Session) (db : Database) (statements : List String) :
    (s.sendBatch db statements).Orderly := by
  rw [sendBatch]
  split
  · exact Activity.orderly_ofOutcome _
  · apply Activity.Orderly.within
    apply (Activity.orderly_signal _).andThen
    intro begun
    exact orderly_batchSteps _ _

theorem orderly_all (s : Session) (db : Database) (sql : String) : (s.all db sql).Orderly :=
  (Activity.orderly_ofReply _ _).within _

theorem orderly_pending (s : Session) (db : Database) (m : Model) : (s.pending db m).Orderly := by
  rw [pending_eq]
  refine Activity.Orderly.andThen ?_ fun found => Activity.orderly_ofOutcome _
  apply (orderly_all s db _).andThen
  intro columns
  apply (orderly_all s db _).andThen
  intro indexes
  exact Activity.orderly_ofOutcome _

theorem orderly_step (kind : Migration) (s : Session) (db : Database) (m : Model) :
    (kind.step s db m).Orderly := by
  cases kind with
  | automigrate => exact orderly_sendBatch s db (Migration.automigrate.statements s db m)
  | autoupdate =>
    apply (orderly_pending s db m).andThen
    intro statements
    exact orderly_sendBatch s db statements

/-! ## All models -/

theorem failures_zip (models : List Model) (outcome : Model → Except SessionError Unit) :
    failures ((models.map Model.name).zip (models.map outcome)) =
      models.filterMap fun m => (failed? (outcome m)).map fun cause => (m.name, cause) := by
  induction models with
  | nil => rfl
  | cons m rest ih =>
    rw [failures] at ih
    rw [failures, List.map_cons, List.map_cons, List.zip_cons_cons, List.filterMap_cons,
      List.filterMap_cons, ih]
    cases outcome m <;> rfl

theorem perform_eq (kind : Migration) (s : Session) (db : Database) :
    kind.perform s db = s.forEachModel (kind.step s db) := by
  cases kind <;> rfl

theorem outcome_perform (unlimited : s.Unlimited) (kind : Migration) :
    (kind.perform s db).outcome =
      match kind.failing s db with
      | [] => .ok ()
      | failed => .error (.migration failed) := by
  have each : (s.models.map (kind.step s db)).map Activity.outcome =
      s.models.map fun m => (kind.step s db m).outcome := List.map_map
  have failing : failures ((s.models.map Model.name).zip
      ((s.models.map (kind.step s db)).map Activity.outcome)) = kind.failing s db := by
    rw [each, failures_zip, Migration.failing]
    simp only [failed?_step unlimited, Option.map_map, Function.comp_def]
  rw [perform_eq, forEachModel, unlimited.migrations, ← failing]
  change (Activity.andThen _ _).outcome = _
  rw [Activity.outcome_andThen]
  change Activity.outcome (match failures _ with | [] => _ | failed => _) = _
  split <;> rfl

/-- What is done for a model does not depend on the others. -/
theorem step_only (kind : Migration) (s : Session) (db : Database) (m : Model) :
    kind.step (s.only m) db = kind.step s db := by
  cases kind <;> rfl

theorem failure?_only (kind : Migration) (s : Session) (db : Database) (m : Model) :
    kind.failure? (s.only m) db = kind.failure? s db := by
  cases kind <;> rfl

theorem Unlimited.only (unlimited : s.Unlimited) (m : Model) : (s.only m).Unlimited :=
  ⟨unlimited.statements, unlimited.migrations⟩

end Session

namespace Migration

open Session

variable {kind : Migration} {s : Session} {db : Database} {m : Model}

/-- The failures that are reported are those of the models. -/
theorem mem_failing {name : String} {cause : SessionError} :
    (name, cause) ∈ kind.failing s db ↔ ∃ m ∈ s.models, m.name = name ∧
      ∃ failed, kind.failure? s db m = some failed ∧ .database failed = cause := by
  rw [failing, List.mem_filterMap]
  refine exists_congr fun m => and_congr_right fun _ => ?_
  cases kind.failure? s db m <;> simp

theorem failing_eq_nil : kind.failing s db = [] ↔ ∀ m ∈ s.models, kind.failure? s db m = none := by
  rw [failing, List.filterMap_eq_nil_iff]
  exact forall₂_congr fun m _ => Option.map_eq_none_iff

/-- Each model is reported once, in the order of the names. -/
theorem failing_ascending (kind : Migration) (s : Session) (db : Database) :
    ((kind.failing s db).map Prod.fst).Pairwise (· < ·) := by
  rw [List.pairwise_map, failing, List.pairwise_filterMap]
  refine List.Pairwise.imp ?_ s.registry.ascending
  intro m n less first failed second found
  obtain ⟨_, _, rfl⟩ := Option.map_eq_some_iff.mp failed
  obtain ⟨_, _, rfl⟩ := Option.map_eq_some_iff.mp found
  exact less

theorem outcome_perform_only (unlimited : s.Unlimited) :
    (kind.perform (s.only m) db).outcome =
      match kind.failure? s db m with
      | none => .ok ()
      | some cause => .error (.migration [(m.name, .database cause)]) := by
  rw [outcome_perform (unlimited.only m)]
  have failing : kind.failing (s.only m) db =
      ((kind.failure? s db m).map fun cause => (m.name, SessionError.database cause)).toList := by
    change [m].filterMap _ = _
    rw [failure?_only, List.filterMap_cons, List.filterMap_nil]
    cases kind.failure? s db m <;> rfl
  rw [failing]
  cases kind.failure? s db m <;> rfl

theorem perform_only_eq_ok (unlimited : s.Unlimited) :
    (kind.perform (s.only m) db).outcome = .ok () ↔ kind.failure? s db m = none := by
  rw [outcome_perform_only unlimited]
  cases kind.failure? s db m <;> simp

theorem perform_only_eq_error (unlimited : s.Unlimited) {name : String} {cause : SessionError} :
    (kind.perform (s.only m) db).outcome = .error (.migration [(name, cause)]) ↔
      m.name = name ∧ ∃ failed, kind.failure? s db m = some failed ∧ .database failed = cause := by
  rw [outcome_perform_only unlimited]
  cases kind.failure? s db m <;> simp

/-- The common log, with the names left out. -/
theorem log_perform (unlimited : s.Unlimited) :
    (kind.perform s db).log = (kind.attributed s db).map Prod.snd := by
  rw [perform_eq, log_forEachModel unlimited, attributed, Activity.attributed_events, List.map_map]
  rfl

theorem log_perform_only (unlimited : s.Unlimited) :
    (kind.perform (s.only m) db).log = kind.sent s db m := by
  rw [perform_eq, log_forEachModel (unlimited.only m), step_only]
  exact (orderly_step kind s db m).log_sideBySide.trans (log_step unlimited kind)

/-- No model stops another or hides its failure. -/
structure Isolated (kind : Migration) (s : Session) (db : Database) : Prop where
  /-- All is well exactly if it is well for each model alone. -/
  succeeds : (kind.perform s db).outcome = .ok () ↔
    ∀ m ∈ s.models, (kind.perform (s.only m) db).outcome = .ok ()
  /-- Otherwise the models that fail alone are reported, each once, in the order of their names and
  with the failure that they have alone. -/
  fails : ∀ cause, (kind.perform s db).outcome = .error cause → ∃ failed,
    cause = .migration failed ∧ failed ≠ [] ∧ (failed.map Prod.fst).Pairwise (· < ·) ∧
      ∀ name cause, (name, cause) ∈ failed ↔ ∃ m ∈ s.models, m.name = name ∧
        (kind.perform (s.only m) db).outcome = .error (.migration [(name, cause)])
  /-- A model fails alone as the database does. -/
  alone : ∀ m ∈ s.models, (kind.perform (s.only m) db).outcome =
    match kind.failure? s db m with
    | none => .ok ()
    | some cause => .error (.migration [(m.name, .database cause)])
  /-- All that is sent is sent for a model. -/
  log : (kind.perform s db).log = (kind.attributed s db).map Prod.snd
  named : ∀ entry ∈ kind.attributed s db, ∃ m ∈ s.models, entry.1 = m.name
  /-- What is sent for a model is what is sent for it alone. -/
  own : ∀ m ∈ s.models, ((kind.attributed s db).filter (·.1 = m.name)).map Prod.snd =
    (kind.perform (s.only m) db).log
  /-- The questions are sent until one fails, and one batch if none does. -/
  sent : ∀ m ∈ s.models, (kind.perform (s.only m) db).log = kind.sent s db m

theorem attributed_own (unlimited : s.Unlimited) (member : m ∈ s.models) :
    ((kind.attributed s db).filter (·.1 = m.name)).map Prod.snd =
      (kind.perform (s.only m) db).log := by
  have distinct : ((s.models.map fun m => (m.name, kind.step s db m)).map Prod.fst).Nodup := by
    rw [List.map_map]
    apply List.Pairwise.map Model.name (R := fun a b => a.name < b.name)
    · intro a b less same
      exact String.lt_irrefl _ (same ▸ less)
    · exact s.registry.ascending
  rw [log_perform_only unlimited, ← log_step unlimited kind]
  exact Activity.attributed_own distinct (List.mem_map_of_mem member) (orderly_step kind s db m)

/-- A migration does for each model what it does for the model alone. -/
theorem migration_isolated (kind : Migration) (s : Session) (db : Database)
    (unlimited : s.Unlimited) : kind.Isolated s db := by
  have whole : (kind.perform s db).outcome = _ := outcome_perform unlimited kind
  constructor
  case succeeds =>
    simp only [perform_only_eq_ok unlimited, ← failing_eq_nil, whole]
    cases kind.failing s db <;> simp
  case fails =>
    intro cause failure
    refine ⟨kind.failing s db, ?_, ?_, failing_ascending kind s db, ?_⟩
    · rw [whole] at failure
      cases found : kind.failing s db with
      | nil =>
        rw [found] at failure
        cases failure
      | cons first rest =>
        rw [found] at failure
        exact (Except.error.inj failure).symm
    · intro none
      rw [whole, none] at failure
      cases failure
    · intro name cause
      rw [mem_failing]
      simp only [perform_only_eq_error unlimited, and_self_left]
  case alone => exact fun m _ => outcome_perform_only unlimited
  case log => exact log_perform unlimited
  case named =>
    intro entry sent
    have listed := Activity.mark_of_attributed sent
    rw [List.map_map] at listed
    obtain ⟨m, member, same⟩ := List.mem_map.mp listed
    exact ⟨m, member, same.symm⟩
  case own => exact fun m member => attributed_own unlimited member
  case sent => exact fun m _ => log_perform_only unlimited

/-- One model fails at its columns, one at its indexes and one inside of its batch; the last one is
made. -/
theorem migration_isolated_three_of_four :
    let s : Session :=
      { dialect := .sqlite
        registry := ["A", "B", "C", "D"].foldl (fun r name => r.define (Model.ofName name))
          Registry.empty }
    let db := Script.database
      [{ part := "table_info('A')", failure := some .noRow },
        { part := "index_list('B')", failure := some (.unexpectedData "locked") },
        { part := "CREATE TABLE `C`", failure := some (.unexpectedData "full") }]
    s.Unlimited ∧ autoupdate.Isolated s db ∧
      (autoupdate.perform s db).outcome = .error (.migration
        [("A", .database .noRow), ("B", .database (.unexpectedData "locked")),
          ("C", .database (.unexpectedData "full"))]) ∧
      autoupdate.sent s db (Model.ofName "D") =
        [.all "PRAGMA table_info('D')" [], .all "PRAGMA index_list('D')" [],
          .openBatch ["CREATE TABLE `D` (\n  `id` INTEGER PRIMARY KEY\n)"],
          .batch "CREATE TABLE `D` (\n  `id` INTEGER PRIMARY KEY\n)"] := by
  intro s db
  have unlimited : s.Unlimited := ⟨rfl, rfl⟩
  refine ⟨unlimited, migration_isolated autoupdate s db unlimited, ?_, ?_⟩
  · rw [outcome_perform unlimited]
    dsimp only [s, db]
    rfl
  · dsimp only [s, db]
    rfl

end Migration

end SqlMapper
