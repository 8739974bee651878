import Mathlib.Data.List.Perm.Basic
import SqlMapper.Proofs.Session.Activity
import SqlMapper.Session.Migration
import SqlMapper.Session.Script

/-! # A plan foretells the migration

`plan` asks about every table and sends nothing else. If all questions are answered it lists what
`autoupdate` sends, model by model, and a table is left out of the batches exactly if nothing
separates it from its model. If a question is not answered, the first failure in the order of the
models is the failure of the plan.

Planning and migrating read the tables in the same way, so both are described by what is found of
each table. A diff that is not empty has statements, whether it is carried out in place or by a
rebuild, so looking at the statements is as good as looking at the diff.
-/

namespace SqlMapper

/-! ## Diffs and their statements -/

namespace TableDiff

variable {d : Dialect} {m : Model} {diff : TableDiff}

theorem alterations_eq_nil {alteration : Alteration} {table : String} {changes : List ColumnChange} :
    alterations alteration table changes = [] ↔ changes = [] := by
  cases alteration <;> simp [alterations]

theorem inPlace_eq_nil : diff.inPlace d m = [] ↔ diff.isEmpty := by
  have sorted : (diff.indexes.filter IndexChange.isDrop = [] ∧
      diff.indexes.filter (!·.isDrop) = []) ↔ diff.indexes = [] := by
    refine ⟨fun ⟨drops, creates⟩ => ?_, fun none => by simp [none]⟩
    rw [List.filter_eq_nil_iff] at drops creates
    rw [List.eq_nil_iff_forall_not_mem]
    intro change member
    exact creates change member (by simpa using drops change member)
  simp only [inPlace, isEmpty, List.append_eq_nil_iff, alterations_eq_nil, List.map_eq_nil_iff,
    Bool.and_eq_true, List.isEmpty_iff, Bool.not_eq_true', ite_eq_right_iff, List.cons_ne_nil,
    imp_false, Bool.not_eq_true, ← sorted]
  constructor
  · rintro ⟨⟨⟨table, drops⟩, columns⟩, creates⟩
    exact ⟨⟨table, columns⟩, drops, creates⟩
  · rintro ⟨⟨table, columns⟩, drops, creates⟩
    exact ⟨⟨⟨table, drops⟩, columns⟩, creates⟩

theorem needsRebuild_not_isEmpty (rebuilt : diff.needsRebuild = true) : ¬ diff.isEmpty := by
  intro empty
  simp only [isEmpty, Bool.and_eq_true, List.isEmpty_iff] at empty
  simp [needsRebuild, empty.1.2] at rebuilt

/-- Exactly the empty diff has no statements. -/
theorem statements_eq_nil : diff.statements d m = [] ↔ diff.isEmpty := by
  rw [statements, List.map_eq_nil_iff, definitions]
  split
  · exact inPlace_eq_nil
  · split
    · next rebuilt => simp [rebuild, needsRebuild_not_isEmpty rebuilt]
    · exact inPlace_eq_nil

end TableDiff

/-! ## All outcomes or the first failure -/

namespace Session

section Outcomes

/-- The failure of an outcome. -/
def failed? {ε α : Type} : Except ε α → Option ε
  | .error cause => some cause
  | .ok _ => none

variable {α : Type} {outcomes : List (Except SessionError α)} {cause : SessionError}

theorem allOf_eq_ok {found : List α} : allOf outcomes = .ok found ↔ outcomes = found.map .ok := by
  induction outcomes generalizing found with
  | nil => cases found <;> simp [allOf]
  | cons outcome rest ih =>
    cases outcome with
    | error cause => cases found <;> simp [allOf, bind, Except.bind]
    | ok a =>
      simp only [allOf, bind, Except.bind]
      cases more : allOf rest with
      | error cause =>
        have differ (others : List α) : rest ≠ others.map .ok := fun same => by
          rw [ih.mpr same] at more
          cases more
        cases found with
        | nil => simp
        | cons b others => simp [differ]
      | ok others =>
        rw [ih.mp more]
        cases found with
        | nil => simp
        | cons b found => simp [List.map_inj_right]

/-- The failure of the first that failed. -/
theorem allOf_eq_error :
    allOf outcomes = .error cause ↔ outcomes.findSome? failed? = some cause := by
  induction outcomes with
  | nil => simp [allOf]
  | cons outcome rest ih =>
    cases outcome with
    | error first => simp [allOf, List.findSome?_cons, failed?, bind, Except.bind]
    | ok a =>
      simp only [allOf, bind, Except.bind, List.findSome?_cons, failed?, ← ih]
      cases allOf rest <;> simp

end Outcomes

/-! ## Tables as they are found -/

/-- Nothing is cut off. -/
structure Unlimited (s : Session) : Prop where
  statements : s.settings.statementTimeout = none
  migrations : s.settings.migrationTimeout = none

/-- The questions about the table of a model, in order. -/
def questions (s : Session) (m : Model) : List String :=
  [s.dialect.columnQuery m.tableName, s.dialect.indexQuery m.tableName]

/-- The failure of the first question about the table of a model that is not answered. -/
def failure? (s : Session) (db : Database) (m : Model) : Option DatabaseError :=
  (s.questions m).findSome? fun sql => failed? (db.all sql []).answer

/-- The table of a model is found, and nothing separates it from its model. -/
def IsCurrent (s : Session) (db : Database) (m : Model) : Prop :=
  ∃ columns indexes, (s.inspect db m).outcome = .ok (columns, indexes) ∧
    (m.reconcile columns indexes).isEmpty

variable {s : Session} {db : Database} {m : Model}

/-- Without a limit nothing is cut off. -/
theorem bounded_eq {α : Type} (unlimited : s.settings.statementTimeout = none)
    (activity : Activity α) : s.bounded activity = activity := by
  rw [bounded, unlimited]
  rfl

theorem Unlimited.all (unlimited : s.Unlimited) (sql : String) :
    s.all db sql = .ofReply (.all sql []) (db.all sql []) := by
  rw [Session.all, bounded_eq unlimited.statements]

theorem outcome_inspect (unlimited : s.Unlimited) :
    (s.inspect db m).outcome =
      ((db.all (s.dialect.columnQuery m.tableName) []).answer.mapError .database).bind fun columns =>
        ((db.all (s.dialect.indexQuery m.tableName) []).answer.mapError .database).bind fun indexes =>
          .ok (s.dialect.columns columns, s.dialect.indexes indexes) := by
  simp only [inspect, unlimited.all, bind, Activity.outcome_andThen]
  rfl

/-- A table is found unless a question about it fails, and then the first failure counts. -/
theorem failed?_inspect (unlimited : s.Unlimited) :
    failed? (s.inspect db m).outcome = (s.failure? db m).map .database := by
  rw [outcome_inspect unlimited, failure?, questions, List.findSome?_cons, List.findSome?_singleton]
  cases (db.all (s.dialect.columnQuery m.tableName) []).answer with
  | error first => rfl
  | ok columns => cases (db.all (s.dialect.indexQuery m.tableName) []).answer <;> rfl

/-- Looking at a table only asks. -/
theorem log_inspect (unlimited : s.Unlimited) {event : Event}
    (sent : event ∈ (s.inspect db m).log) : ∃ sql ∈ s.questions m, event = .all sql [] := by
  simp only [inspect, unlimited.all, bind] at sent
  rcases Activity.mem_log_andThen sent with first | ⟨columns, _, later⟩
  · exact ⟨_, List.mem_cons_self, List.mem_singleton.mp first⟩
  · rcases Activity.mem_log_andThen later with second | ⟨indexes, _, done⟩
    · exact ⟨_, List.mem_cons_of_mem _ List.mem_cons_self, List.mem_singleton.mp second⟩
    · cases done

/-! ## What a model needs -/

/-- What the table of a model needs, nothing if it is not found. -/
def needed (s : Session) (db : Database) (m : Model) : List String :=
  match (s.pending db m).outcome with
  | .ok statements => statements
  | .error _ => []

theorem pending_eq (s : Session) (db : Database) (m : Model) :
    s.pending db m = (s.inspect db m).andThen fun found =>
      .done (s.statementsOf m (m.reconcile found.1 found.2)) := rfl

theorem outcome_pending (s : Session) (db : Database) (m : Model) :
    (s.pending db m).outcome = (s.inspect db m).outcome.map fun found =>
      s.statementsOf m (m.reconcile found.1 found.2) := by
  rw [pending_eq, Activity.outcome_andThen]
  cases (s.inspect db m).outcome <;> rfl

theorem log_pending (s : Session) (db : Database) (m : Model) :
    (s.pending db m).log = (s.inspect db m).log := by
  rw [pending_eq, Activity.log_andThen_silent fun _ => rfl]

theorem statementsOf_eq_nil {diff : TableDiff} : s.statementsOf m diff = [] ↔ diff.isEmpty := by
  rw [statementsOf]
  split
  · next empty => simp [empty]
  · exact TableDiff.statements_eq_nil

/-- A table that is found needs nothing exactly if it is current. -/
theorem needed_eq_nil {statements : List String} (found : (s.pending db m).outcome = .ok statements) :
    s.needed db m = [] ↔ s.IsCurrent db m := by
  rw [outcome_pending] at found
  rw [needed, outcome_pending, IsCurrent]
  cases outcome : (s.inspect db m).outcome with
  | error cause =>
    rw [outcome] at found
    cases found
  | ok table =>
    obtain ⟨columns, indexes⟩ := table
    simp [Except.map, statementsOf_eq_nil]

/-! ## What is sent -/

theorem log_batchSteps {reply : String → Reply Unit} {statements : List String} {event : Event}
    (sent : event ∈ (batchSteps reply statements).log) :
    ∃ sql ∈ statements, event = .batch sql := by
  induction statements with
  | nil => cases sent
  | cons sql rest ih =>
    rw [batchSteps] at sent
    rcases Activity.mem_log_andThen sent with first | ⟨_, _, later⟩
    · exact ⟨sql, List.mem_cons_self, List.mem_singleton.mp first⟩
    · obtain ⟨other, member, same⟩ := ih later
      exact ⟨other, List.mem_cons_of_mem _ member, same⟩

/-- Statements are sent as one batch, if there are any. -/
theorem log_sendBatch (unlimited : s.Unlimited) (statements : List String) :
    (s.sendBatch db statements).log =
      if statements = [] then []
      else .openBatch statements :: (batchSteps (db.batch statements) statements).log := by
  rw [sendBatch]
  by_cases none : statements = []
  · simp [none]
    rfl
  · simp only [List.isEmpty_iff, none, if_false, bounded_eq unlimited.statements]
    exact Activity.log_andThen_ok rfl

theorem calls_sendBatch (unlimited : s.Unlimited) (statements : List String) :
    (s.sendBatch db statements).calls = ([statements].filter (· ≠ [])).map .openBatch := by
  rw [Activity.calls, log_sendBatch unlimited]
  by_cases none : statements = []
  · simp [none]
  · have inside :
        (batchSteps (db.batch statements) statements).log.filter Event.isCall = [] := by
      rw [List.filter_eq_nil_iff]
      intro event sent
      obtain ⟨sql, _, rfl⟩ := log_batchSteps sent
      exact Bool.false_ne_true
    rw [if_neg none, List.filter_cons_of_pos (by rfl), inside]
    simp [none]

/-- What is sent for a table that is found: the questions, and then what it needs. -/
theorem calls_synchronize (unlimited : s.Unlimited)
    (found : (s.pending db m).outcome = .ok (s.needed db m)) :
    (s.synchronize db m).calls =
      (s.pending db m).calls ++ ([s.needed db m].filter (· ≠ [])).map .openBatch := by
  have followed : (s.synchronize db m).log =
      (s.pending db m).log ++ (s.sendBatch db (s.needed db m)).log := Activity.log_andThen_ok found
  rw [Activity.calls, followed, List.filter_append]
  exact congrArg _ (calls_sendBatch unlimited _)

/-! ## All models -/

theorem plan_eq (s : Session) (db : Database) :
    s.plan db =
      (Activity.sideBySide (s.models.map fun m => (s.pending db m).andThen fun statements =>
        .done (⟨m.name, statements⟩ : MigrationPlan))).andThen fun outcomes =>
          .ofOutcome (allOf outcomes) := rfl

theorem outcome_plan (s : Session) (db : Database) :
    (s.plan db).outcome = allOf (s.models.map fun m =>
      (s.pending db m).outcome.map fun statements => ⟨m.name, statements⟩) := by
  rw [plan_eq, Activity.outcome_andThen, Activity.sideBySide, List.map_map]
  change allOf _ = _
  congr 2
  funext m
  rw [Function.comp_apply, Activity.outcome_andThen]
  cases (s.pending db m).outcome <;> rfl

theorem log_plan (s : Session) (db : Database) :
    (s.plan db).log.Perm (s.models.flatMap fun m => (s.pending db m).log) := by
  rw [plan_eq, Activity.log_andThen_silent fun _ => rfl]
  refine (Activity.log_sideBySide _).trans (List.Perm.of_eq ?_)
  rw [List.flatMap_map]
  congr 1
  funext m
  exact Activity.log_andThen_silent fun _ => rfl

theorem log_isActual (s : Session) (db : Database) : (s.isActual db).log = (s.plan db).log :=
  Activity.log_andThen_silent fun _ => rfl

theorem outcome_isActual (s : Session) (db : Database) :
    (s.isActual db).outcome =
      (s.plan db).outcome.map fun plans => plans.all fun plan => plan.statements.isEmpty := by
  change ((s.plan db).andThen _).outcome = _
  rw [Activity.outcome_andThen]
  cases (s.plan db).outcome <;> rfl

/-- Reporting failures sends nothing. -/
theorem log_forEachModel (unlimited : s.Unlimited) (step : Model → Activity Unit) :
    (s.forEachModel step).log = (Activity.sideBySide (s.models.map step)).log := by
  rw [forEachModel, unlimited.migrations]
  refine Activity.log_andThen_silent fun outcomes => ?_
  split <;> rfl

theorem log_autoupdate (unlimited : s.Unlimited) :
    (s.autoupdate db).log.Perm (s.models.flatMap fun m => (s.synchronize db m).log) := by
  rw [autoupdate, log_forEachModel unlimited, ← List.flatMap_map]
  exact Activity.log_sideBySide _

/-- A plan only asks. -/
theorem mem_log_plan (unlimited : s.Unlimited) {event : Event} (sent : event ∈ (s.plan db).log) :
    ∃ sql, event = .all sql [] := by
  rw [(log_plan s db).mem_iff, List.mem_flatMap] at sent
  obtain ⟨m, _, asked⟩ := sent
  rw [log_pending] at asked
  obtain ⟨sql, _, same⟩ := log_inspect unlimited asked
  exact ⟨sql, same⟩

/-- A plan lists what each model needs. -/
theorem plan_eq_ok {plans : List MigrationPlan} (planned : (s.plan db).outcome = .ok plans) :
    plans = (s.models.map fun m => ⟨m.name, s.needed db m⟩) ∧
      ∀ m ∈ s.models, (s.pending db m).outcome = .ok (s.needed db m) := by
  rw [outcome_plan, allOf_eq_ok] at planned
  have found : ∀ m ∈ s.models, (s.pending db m).outcome = .ok (s.needed db m) := by
    intro m member
    have listed := List.mem_map_of_mem (f := fun m => (s.pending db m).outcome.map fun statements =>
      (⟨m.name, statements⟩ : MigrationPlan)) member
    rw [planned] at listed
    obtain ⟨plan, _, same⟩ := List.mem_map.mp listed
    rw [needed]
    cases outcome : (s.pending db m).outcome with
    | error cause => simp [outcome, Except.map] at same
    | ok statements => rfl
  have injective : Function.Injective (Except.ok : MigrationPlan → Except SessionError _) :=
    fun _ _ => Except.ok.inj
  refine ⟨List.map_injective_iff.mpr injective ?_, found⟩
  rw [← planned, List.map_map]
  refine List.map_congr_left fun m member => ?_
  rw [found m member]
  rfl

/-- A plan fails with the first failure of a question, in the order of the models. -/
theorem plan_eq_error (unlimited : s.Unlimited) {cause : SessionError} :
    (s.plan db).outcome = .error cause ↔
      (s.models.findSome? (s.failure? db)).map .database = some cause := by
  rw [outcome_plan, allOf_eq_error, List.findSome?_map, List.map_findSome?]
  have each : (failed? ∘ fun m => (s.pending db m).outcome.map fun statements =>
      (⟨m.name, statements⟩ : MigrationPlan)) = Option.map .database ∘ s.failure? db := by
    funext m
    rw [Function.comp_apply, Function.comp_apply, ← failed?_inspect unlimited, outcome_pending]
    cases (s.inspect db m).outcome <;> rfl
  rw [each]


/-- A question about a model fails exactly if the model has a failure. -/
theorem exists_failure {m : Model} :
    (∃ cause, s.failure? db m = some cause) ↔
      ∃ sql ∈ s.questions m, ∃ cause, (db.all sql []).answer = .error cause := by
  rw [← Option.isSome_iff_exists, failure?, List.isSome_findSome?, List.any_eq_true]
  refine exists_congr fun sql => and_congr_right fun _ => ?_
  cases (db.all sql []).answer <;> simp [failed?]

/-! ## The plan and the migration -/

/-- What `autoupdate` does and `isActual` says when these plans are made. -/
structure Foretold (s : Session) (db : Database) (plans : List MigrationPlan) : Prop where
  models : plans.map MigrationPlan.model = s.models.map Model.name
  ascending : (plans.map MigrationPlan.model).Pairwise (· < ·)
  /-- The tables are looked at as before, and each list of statements is sent once as it is, unless
  it is empty. -/
  calls : (s.autoupdate db).calls.Perm ((s.plan db).calls ++
    ((plans.map MigrationPlan.statements).filter (· ≠ [])).map .openBatch)
  /-- Nothing else is reached inside of the batches. -/
  reached : ∀ sql, .batch sql ∈ (s.autoupdate db).log → ∃ plan ∈ plans, sql ∈ plan.statements
  actual : ∃ b, (s.isActual db).outcome = .ok b ∧
    (b = true ↔ ∀ statements, .openBatch statements ∉ (s.autoupdate db).log) ∧
    (b = true ↔ ∀ m ∈ s.models, s.IsCurrent db m)

theorem calls_autoupdate (unlimited : s.Unlimited)
    (found : ∀ m ∈ s.models, (s.pending db m).outcome = .ok (s.needed db m)) :
    (s.autoupdate db).calls.Perm ((s.plan db).calls ++
      ((s.models.map (s.needed db)).filter (· ≠ [])).map .openBatch) := by
  have asked : (s.plan db).calls.Perm (s.models.flatMap fun m => (s.pending db m).calls) := by
    have filtered := (s.log_plan db).filter Event.isCall
    rwa [List.filter_flatMap] at filtered
  have batches : ((s.models.map (s.needed db)).filter (· ≠ [])).map Event.openBatch =
      s.models.flatMap fun m => ([s.needed db m].filter (· ≠ [])).map Event.openBatch := by
    rw [List.map_eq_flatMap (f := s.needed db), List.filter_flatMap, List.map_flatMap]
  have sent := List.Perm.filter Event.isCall (log_autoupdate unlimited : (s.autoupdate db).log.Perm _)
  rw [List.filter_flatMap] at sent
  refine sent.trans ?_
  rw [batches]
  refine List.Perm.trans (List.Perm.of_eq ?_) <|
    (List.flatMap_append_perm s.models _ _).symm.trans (asked.symm.append_right _)
  exact List.flatMap_congr fun m member => calls_synchronize unlimited (found m member)

theorem mem_log_autoupdate_batch (unlimited : s.Unlimited) {sql : String}
    (sent : .batch sql ∈ (s.autoupdate db).log) : ∃ m ∈ s.models, sql ∈ s.needed db m := by
  rw [(log_autoupdate unlimited).mem_iff, List.mem_flatMap] at sent
  obtain ⟨m, member, sent⟩ := sent
  refine ⟨m, member, ?_⟩
  rcases Activity.mem_log_andThen sent with asked | ⟨statements, found, sent⟩
  · rw [log_pending] at asked
    obtain ⟨_, _, same⟩ := log_inspect unlimited asked
    cases same
  · rw [log_sendBatch unlimited] at sent
    split at sent
    · cases sent
    · rcases List.mem_cons.mp sent with same | sent
      · cases same
      · obtain ⟨other, member, same⟩ := log_batchSteps sent
        cases same
        rwa [needed, found]

/-- The batches that are sent. -/
theorem mem_log_autoupdate_openBatch (unlimited : s.Unlimited)
    (found : ∀ m ∈ s.models, (s.pending db m).outcome = .ok (s.needed db m))
    {batch : List String} :
    .openBatch batch ∈ (s.autoupdate db).log ↔ ∃ m ∈ s.models, s.needed db m = batch ∧ batch ≠ [] := by
  have call : Event.openBatch batch ∈ (s.autoupdate db).log ↔
      Event.openBatch batch ∈ (s.autoupdate db).calls := by
    rw [Activity.calls, List.mem_filter]
    exact (and_iff_left rfl).symm
  rw [call, (calls_autoupdate unlimited found).mem_iff, List.mem_append]
  constructor
  · rintro (asked | sent)
    · obtain ⟨_, same⟩ := mem_log_plan unlimited (List.mem_filter.mp asked).1
      cases same
    · obtain ⟨_, listed, same⟩ := List.mem_map.mp sent
      cases same
      obtain ⟨needed, some⟩ := List.mem_filter.mp listed
      obtain ⟨m, member, same⟩ := List.mem_map.mp needed
      exact ⟨m, member, same, of_decide_eq_true some⟩
  · rintro ⟨m, member, same, some⟩
    exact .inr (List.mem_map_of_mem (List.mem_filter.mpr
      ⟨List.mem_map.mpr ⟨m, member, same⟩, decide_eq_true some⟩))

theorem nothing_needed (s : Session) (db : Database) :
    (s.models.all fun m => (s.needed db m).isEmpty) = true ↔
      ∀ m ∈ s.models, s.needed db m = [] := by
  simp only [List.all_eq_true, List.isEmpty_iff]

theorem foretold (unlimited : s.Unlimited) {plans : List MigrationPlan}
    (planned : (s.plan db).outcome = .ok plans) : s.Foretold db plans := by
  obtain ⟨listed, found⟩ := plan_eq_ok planned
  have statements : plans.map MigrationPlan.statements = s.models.map (s.needed db) := by
    rw [listed, List.map_map]
    rfl
  have names : plans.map MigrationPlan.model = s.models.map Model.name := by
    rw [listed, List.map_map]
    rfl
  have calls := statements ▸ calls_autoupdate unlimited found
  refine ⟨names, ?_, calls, ?_, ?_⟩
  · rw [names, List.pairwise_map]
    exact s.registry.ascending
  · intro sql sent
    obtain ⟨m, member, among⟩ := mem_log_autoupdate_batch unlimited sent
    exact ⟨⟨m.name, s.needed db m⟩, listed ▸ List.mem_map_of_mem member, among⟩
  · refine ⟨s.models.all fun m => (s.needed db m).isEmpty, ?_, ?_, ?_⟩
    · rw [outcome_isActual, planned, listed, Except.map, List.all_map]
      rfl
    · rw [nothing_needed]
      refine ⟨fun none batch sent => ?_, fun unsent m member => ?_⟩
      · obtain ⟨m, member, rfl, some⟩ := (mem_log_autoupdate_openBatch unlimited found).mp sent
        exact some (none m member)
      · by_contra some
        exact unsent _ ((mem_log_autoupdate_openBatch unlimited found).mpr ⟨m, member, rfl, some⟩)
    · rw [nothing_needed]
      exact forall₂_congr fun m member => needed_eq_nil (found m member)

/-- A plan only asks. It foretells what a migration sends if every question is answered, and fails
with the first failure in the order of the models otherwise. -/
theorem plan_foretells_autoupdate (s : Session) (db : Database) (unlimited : s.Unlimited) :
    (∀ event ∈ (s.plan db).log ++ (s.isActual db).log, ∃ sql, event = .all sql []) ∧
      (∀ plans, (s.plan db).outcome = .ok plans → s.Foretold db plans) ∧
      (∀ cause, (s.plan db).outcome = .error cause ↔
        (s.models.findSome? (s.failure? db)).map .database = some cause) ∧
      ((∃ cause, (s.plan db).outcome = .error cause) ↔
        ∃ m ∈ s.models, ∃ sql ∈ s.questions m, ∃ cause, (db.all sql []).answer = .error cause) := by
  refine ⟨?_, fun plans => foretold unlimited, fun cause => plan_eq_error unlimited, ?_⟩
  · intro event sent
    rw [log_isActual, List.mem_append, or_self] at sent
    exact mem_log_plan unlimited sent
  · simp only [plan_eq_error unlimited, ← exists_failure, Option.map_eq_some_iff]
    constructor
    · rintro ⟨_, cause, first, _⟩
      obtain ⟨m, member, failed⟩ := List.exists_of_findSome?_eq_some first
      exact ⟨m, member, cause, failed⟩
    · rintro ⟨m, member, cause, failed⟩
      have some : (s.models.findSome? (s.failure? db)).isSome := by
        rw [List.isSome_findSome?, List.any_eq_true]
        exact ⟨m, member, failed ▸ rfl⟩
      obtain ⟨first, found⟩ := Option.isSome_iff_exists.mp some
      exact ⟨_, first, found, rfl⟩

/-- One table is missing, and its index will not be made; the other table is as declared. -/
theorem plan_foretells_autoupdate_missing :
    let user := Model.ofName "User"
    let post := (Model.ofName "Post").define "title" Property.text.withIndex
    let s : Session :=
      { dialect := .sqlite, registry := (Registry.empty.define user).define post }
    let db := Script.database
      [{ part := "table_info('User')", rows := [[("name", .text "id")]] },
        { part := "CREATE INDEX", failure := some .noRow }]
    let plans : List MigrationPlan :=
      [⟨"Post", ["CREATE TABLE `Post` (\n  `id` INTEGER PRIMARY KEY,\n  `title` TEXT NULL\n)",
        "CREATE INDEX `Post_title` ON `Post` (`title` ASC)"]⟩, ⟨"User", []⟩]
    s.Unlimited ∧ (s.plan db).outcome = .ok plans ∧ s.Foretold db plans := by
  intro user post s db plans
  have unlimited : s.Unlimited := ⟨rfl, rfl⟩
  have planned : (s.plan db).outcome = .ok plans := by
    rw [outcome_plan]
    dsimp only [s, db, plans, user, post]
    rfl
  exact ⟨unlimited, planned, (plan_foretells_autoupdate s db unlimited).2.1 plans planned⟩

end Session

end SqlMapper
