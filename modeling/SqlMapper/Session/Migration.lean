import SqlMapper.Schema.Definition
import SqlMapper.Schema.Listing
import SqlMapper.Session.Basic

/-!
# Migrations

A migration brings the tables of all models in line with their declarations, each model on its own
and all side by side. A model that fails does not stop the others; all failures are reported
together, in the order of the names.
-/

namespace SqlMapper

/-- The statements that bring the table of a model in line. -/
structure MigrationPlan where
  model : String
  statements : List String
  deriving DecidableEq, Repr

namespace Session

variable (s : Session) (db : Database)

/-- The columns and indexes of the table of a model. -/
def inspect (m : Model) : Activity (List LiveColumn × List LiveIndex) := do
  let columns ← s.all db (s.dialect.columnQuery m.tableName)
  let indexes ← s.all db (s.dialect.indexQuery m.tableName)
  return (s.dialect.columns columns, s.dialect.indexes indexes)

/-- The statements that carry out a diff; an empty one needs none. -/
def statementsOf (m : Model) (diff : TableDiff) : List String :=
  if diff.isEmpty then [] else diff.statements s.dialect m

/-- The statements that the table of a model needs as it is. -/
def pending (m : Model) : Activity (List String) := do
  let (columns, indexes) ← s.inspect db m
  return s.statementsOf m (m.reconcile columns indexes)

/-- The statements of a batch, one after the other. -/
def batchSteps (reply : String → Reply Unit) : List String → Activity Unit
  | [] => .done ()
  | sql :: rest =>
      (Activity.ofReply (.batch sql) (reply sql)).andThen fun _ => batchSteps reply rest

/-- Sends statements as one batch, if there are any, within the time for a statement. -/
def sendBatch (statements : List String) : Activity Unit :=
  if statements.isEmpty then .done ()
  else
    s.bounded
      ((Activity.signal (.openBatch statements)).andThen fun _ =>
        batchSteps (db.batch statements) statements)

/-- Drops the table of a model and makes it again. -/
def recreate (m : Model) : Activity Unit :=
  s.sendBatch db ((Definition.dropTable m.tableName true).text s.dialect ::
    m.creation.statements s.dialect m)

/-- Sends what the table of a model needs. -/
def synchronize (m : Model) : Activity Unit := do
  let statements ← s.pending db m
  s.sendBatch db statements

/-- The models that failed. -/
def failures (outcomes : List (String × Except SessionError α)) : List (String × SessionError) :=
  outcomes.filterMap fun
    | (name, .error cause) => some (name, cause)
    | (_, .ok _) => none

/-- Does something for every model, within the time for a migration. -/
def forEachModel (step : Model → Activity Unit) : Activity Unit := do
  let outcomes ← (Activity.sideBySide (s.models.map step)).within s.settings.migrationTimeout
  match failures ((s.models.map Model.name).zip outcomes) with
  | [] => return
  | failed => Activity.failed (.migration failed)

/-- Makes all tables again; their rows are lost. -/
def automigrate : Activity Unit := s.forEachModel (s.recreate db)

/-- Brings all tables in line and keeps the rows. -/
def autoupdate : Activity Unit := s.forEachModel (s.synchronize db)

/-- All results, or the first failure. -/
def allOf : List (Except SessionError α) → Except SessionError (List α)
  | [] => .ok []
  | outcome :: rest => do
      let a ← outcome
      let more ← allOf rest
      .ok (a :: more)

/-- What `autoupdate` would send. Nothing is sent but questions, and there is no limit but that for
statements. -/
def plan : Activity (List MigrationPlan) := do
  let outcomes ← Activity.sideBySide (s.models.map fun m => do
    let statements ← s.pending db m
    return ({ model := m.name, statements } : MigrationPlan))
  Activity.ofOutcome (allOf outcomes)

/-- Whether no table needs anything. -/
def isActual : Activity Bool := do
  let plans ← s.plan db
  return plans.all fun plan => plan.statements.isEmpty

end Session

end SqlMapper
