import SqlMapper.Proofs.Session.Planning

/-! # Requests

A request about one model is turned down before anything is sent, or it sends one statement and
ends as the database answers. `Activity.IsExchange` says so of one activity; it is kept by whatever
is decided beforehand, and each request is shown to be one, from the inside out.

Requests can be made at any point of the life of a session. Only definitions change what is
registered.
-/

namespace SqlMapper

/-! ## What can be asked -/

/-- Whether something only reads, or writes. -/
inductive Access
  | reading
  | writing
  deriving DecidableEq, Repr

/-- The way in which a statement of its own is sent. -/
def Event.access? : Event → Option Access
  | .all _ _ | .get _ _ => some .reading
  | .run _ _ => some .writing
  | .openBatch _ | .batch _ | .close => none

/-- A request about one model, by the kind of its answer. -/
inductive Request : Type → Type
  | create (name : String) (r : Record) : Request Int64
  | updateOrCreate (name : String) (r : Record) : Request Record
  | save (name : String) (r : Record) : Request Unit
  | updateAttributes (name : String) (id : Int64) (r : Record) : Request Unit
  | findById (name : String) (id : Int64) : Request (Option Record)
  | find (name : String) (f : Filter) : Request (List Record)
  | rowExists (name : String) (id : Int64) : Request Bool
  | remove (name : String) (c : Option Criteria) : Request UInt64
  | destroy (name : String) (id : Int64) : Request Bool
  | destroyAll (name : String) : Request UInt64
  | count (name : String) (c : Option Criteria) : Request Int64

def Request.access : Request α → Access
  | .findById .. | .find .. | .rowExists .. | .count .. => .reading
  | .create .. | .updateOrCreate .. | .save .. | .updateAttributes .. | .remove .. | .destroy ..
  | .destroyAll .. => .writing

/-- Does what a request asks for. -/
def Session.perform (s : Session) (db : Database) : Request α → Activity α
  | .create name r => s.create db name r
  | .updateOrCreate name r => s.updateOrCreate db name r
  | .save name r => s.save db name r
  | .updateAttributes name id r => s.updateAttributes db name id r
  | .findById name id => s.findById db name id
  | .find name f => s.find db name f
  | .rowExists name id => s.rowExists db name id
  | .remove name c => s.remove db name c
  | .destroy name id => s.destroy db name id
  | .destroyAll name => s.destroyAll db name
  | .count name c => s.count db name c

/-- The failure that a call is answered with. -/
def Database.failure? (db : Database) : Event → Option DatabaseError
  | .run sql params => Session.failed? (db.run sql params).answer
  | .all sql params => Session.failed? (db.all sql params).answer
  | .get sql params => Session.failed? (db.get sql params).answer
  | .openBatch _ | .batch _ | .close => none

/-- The caller is at fault. -/
def SessionError.IsRefusal (cause : SessionError) : Prop :=
  (∃ name, cause = .unknownModel name) ∨ ∃ fault, cause = .query fault

theorem SessionError.not_isRefusal_database (cause : DatabaseError) :
    ¬ (SessionError.database cause).IsRefusal := by
  rintro (⟨_, same⟩ | ⟨_, same⟩) <;> cases same

/-! ## Exchanges -/

namespace Activity

section Exchange

variable {α β γ : Type} {db : Database} {access : Access}

/-- A refusal with nothing sent, or one call whose answer is all that can fail. -/
inductive IsExchange (db : Database) (access : Access) : Activity α → Prop
  | refused {cause : SessionError} (refusal : cause.IsRefusal) :
      IsExchange db access (.failed cause)
  | sent {β : Type} {event : Event} {reply : Reply β} (answer : β → α)
      (kind : event.access? = some access)
      (told : Session.failed? reply.answer = db.failure? event) :
      IsExchange db access ((ofReply event reply).andThen fun b => .done (answer b))

theorem ofOutcome_andThen_ok (a : α) (next : α → Activity β) :
    (ofOutcome (.ok a)).andThen next = next a := by
  simp [ofOutcome, andThen, later]

/-- What is decided beforehand may turn a request down, and sends nothing. -/
theorem IsExchange.decided {decision : Except SessionError γ} {next : γ → Activity α}
    (refusals : ∀ cause, decision = .error cause → cause.IsRefusal)
    (exchange : ∀ c, IsExchange db access (next c)) :
    IsExchange db access ((ofOutcome decision).andThen next) := by
  cases decision with
  | error cause => exact .refused (refusals cause rfl)
  | ok c => exact ofOutcome_andThen_ok c next ▸ exchange c

variable {activity : Activity α}

/-- An exchange is at most one call. -/
theorem IsExchange.log_length_le (exchange : IsExchange db access activity) :
    activity.log.length ≤ 1 := by
  cases exchange with
  | refused refusal => exact Nat.zero_le 1
  | sent answer kind told =>
    rw [log_andThen_silent fun _ => rfl]
    exact Nat.le_refl 1

/-- Nothing is sent exactly if the caller is at fault. -/
theorem IsExchange.log_eq_nil (exchange : IsExchange db access activity) :
    activity.log = [] ↔ ∃ cause, activity.outcome = .error cause ∧ cause.IsRefusal := by
  cases exchange with
  | @refused cause refusal => exact iff_of_true rfl ⟨cause, rfl, refusal⟩
  | @sent β event reply answer kind told =>
    rw [log_andThen_silent fun _ => rfl, outcome_andThen]
    refine iff_of_false (List.cons_ne_nil _ _) ?_
    rintro ⟨cause, failure, refusal⟩
    simp only [ofReply] at failure
    cases answered : reply.answer with
    | ok b =>
      rw [answered] at failure
      cases failure
    | error first =>
      rw [answered] at failure
      cases failure
      exact SessionError.not_isRefusal_database first refusal

/-- A call ends as it is answered. -/
theorem IsExchange.answered (exchange : IsExchange db access activity) {event : Event}
    (sent : event ∈ activity.log) :
    event.access? = some access ∧
      Session.failed? activity.outcome = (db.failure? event).map .database := by
  cases exchange with
  | refused refusal => cases sent
  | @sent β call reply answer kind told =>
    rw [log_andThen_silent fun _ => rfl] at sent
    obtain rfl : event = call := List.mem_singleton.mp sent
    refine ⟨kind, ?_⟩
    rw [outcome_andThen, ← told]
    simp only [ofReply]
    cases reply.answer <;> rfl

end Exchange

end Activity

/-! ## Every request is an exchange -/

namespace Session

section Perform

variable {α γ : Type} {s : Session} {db : Database} {access : Access}

theorem model_refuses {name : String} {cause : SessionError}
    (unknown : s.model name = .error cause) : cause.IsRefusal := by
  rw [model] at unknown
  split at unknown
  · cases unknown
  · cases unknown
    exact .inl ⟨name, rfl⟩

theorem mapper_refuses {name : String} {cause : SessionError}
    (unknown : s.mapper name = .error cause) : cause.IsRefusal := by
  rw [mapper] at unknown
  cases found : s.model name with
  | ok m =>
    rw [found] at unknown
    cases unknown
  | error first =>
    rw [found] at unknown
    cases unknown
    exact model_refuses found

/-- The model is found before anything else is done. -/
theorem exchange_of_mapper {name : String} {next : Mapper → Activity α}
    (exchange : ∀ b, (next b).IsExchange db access) :
    ((Activity.ofOutcome (s.mapper name)).andThen next).IsExchange db access :=
  .decided (fun _ => mapper_refuses) exchange

/-- A statement may be turned down. -/
theorem exchange_of_accepted {sql : Except QueryError γ} {next : γ → Activity α}
    (exchange : ∀ c, (next c).IsExchange db access) :
    ((accepted sql).andThen next).IsExchange db access := by
  refine .decided (fun cause turnedDown => ?_) exchange
  cases sql with
  | ok c => cases turnedDown
  | error fault =>
    cases turnedDown
    exact .inr ⟨fault, rfl⟩

section Calls

variable (unlimited : s.settings.statementTimeout = none)

include unlimited

theorem exchange_run (sql : String) (params : List Stored) (answer : RunResult → α) :
    ((s.run db sql params).andThen fun result => .done (answer result)).IsExchange db .writing := by
  rw [run, bounded_eq unlimited]
  exact .sent answer rfl rfl

theorem exchange_all (sql : String) (answer : List Row → α) :
    ((s.all db sql).andThen fun rows => .done (answer rows)).IsExchange db .reading := by
  rw [all, bounded_eq unlimited]
  exact .sent answer rfl rfl

theorem exchange_get (sql : String) (answer : Option Row → α) :
    ((s.get db sql).andThen fun row => .done (answer row)).IsExchange db .reading := by
  rw [get, bounded_eq unlimited]
  exact .sent answer rfl rfl

theorem exchange_save (name : String) (r : Record) : (s.save db name r).IsExchange db .writing :=
  exchange_of_mapper fun _ => exchange_of_accepted fun _ => exchange_run unlimited _ _ _

theorem exchange_perform (request : Request α) :
    (s.perform db request).IsExchange db request.access := by
  cases request with
  | create name r => exact exchange_of_mapper fun b => exchange_run unlimited _ _ _
  | updateOrCreate name r => exact exchange_of_mapper fun b => exchange_run unlimited _ _ _
  | save name r => exact exchange_save unlimited name r
  | updateAttributes name id r => exact exchange_save unlimited name _
  | findById name id => exact exchange_of_mapper fun b => exchange_get unlimited _ _
  | find name f =>
    exact exchange_of_mapper fun b => exchange_of_accepted fun sql => exchange_all unlimited _ _
  | rowExists name id => exact exchange_of_mapper fun b => exchange_get unlimited _ _
  | remove name c =>
    exact exchange_of_mapper fun b => exchange_of_accepted fun sql => exchange_run unlimited _ _ _
  | destroy name id => exact exchange_of_mapper fun b => exchange_run unlimited _ _ _
  | destroyAll name => exact exchange_of_mapper fun b => exchange_run unlimited _ _ _
  | count name c =>
    exact exchange_of_mapper fun b => exchange_of_accepted fun sql => exchange_get unlimited _ _

end Calls

end Perform

/-! ## The course of a session -/

/-- What is done with a session. -/
inductive Act : Type 1
  | define (m : Model)
  | defineProperty (name property : String) (p : Property)
  | request {α : Type} (asked : Request α)

/-- The session after an act, and what was sent. A definition that fails changes nothing. -/
def act (db : Database) (s : Session) : Act → Session × List Event
  | .define m => (s.define m, [])
  | .defineProperty name property p => ((s.defineProperty name property p).toOption.getD s, [])
  | .request asked => (s, (s.perform db asked).log)

/-- One act after the other. -/
def course (db : Database) (s : Session) : List Act → Session × List Event
  | [] => (s, [])
  | first :: rest =>
      let (next, sent) := act db s first
      let (last, later) := course db next rest
      (last, sent ++ later)

variable {s : Session} {db : Database}

theorem course_append (before after : List Act) :
    (course db s (before ++ after)).1 = (course db (course db s before).1 after).1 := by
  induction before generalizing s with
  | nil => rfl
  | cons first rest ih => exact ih

/-- A request that is left out is missed by no definition. -/
theorem course_without_request {α : Type} (request : Request α) (before after : List Act) :
    (course db s (before ++ .request request :: after)).1.models =
      (course db s (before ++ after)).1.models := by
  rw [course_append, course_append]
  rfl

/-- A request sends at most one statement. It sends none exactly if the caller is at fault; else it
reads or writes as its kind says, and fails exactly as the database does. Whenever it is made, what
is registered stays as it is. -/
theorem request_refused_or_answered {α : Type} (s : Session) (db : Database) (request : Request α)
    (unlimited : s.settings.statementTimeout = none) :
    (s.perform db request).log.length ≤ 1 ∧
      ((s.perform db request).log = [] ↔
        (∃ name, (s.perform db request).outcome = .error (.unknownModel name)) ∨
          ∃ fault, (s.perform db request).outcome = .error (.query fault)) ∧
      (∀ event ∈ (s.perform db request).log, event.access? = some request.access ∧
        failed? (s.perform db request).outcome = (db.failure? event).map .database) ∧
      ∀ before after, (course db s (before ++ .request request :: after)).1.models =
        (course db s (before ++ after)).1.models := by
  have exchange : (s.perform db request).IsExchange db request.access :=
    exchange_perform unlimited request
  refine ⟨exchange.log_length_le, ?_, fun event => exchange.answered,
    course_without_request request⟩
  rw [exchange.log_eq_nil]
  constructor
  · rintro ⟨cause, failure, ⟨name, rfl⟩ | ⟨fault, rfl⟩⟩
    · exact .inl ⟨name, failure⟩
    · exact .inr ⟨fault, failure⟩
  · rintro (⟨name, failure⟩ | ⟨fault, failure⟩)
    · exact ⟨_, failure, .inl ⟨name, rfl⟩⟩
    · exact ⟨_, failure, .inr ⟨fault, rfl⟩⟩

/-- A database that fails at everything is asked to count, and its failure is passed on; a deletion
without a condition does not reach it. -/
theorem request_refused_or_answered_failing :
    let s : Session :=
      { dialect := .sqlite, registry := Registry.empty.define (Model.ofName "User") }
    let reply := fun α => (⟨0, .error .noRow⟩ : Reply α)
    let db : Database :=
      { run := fun _ _ => reply _, all := fun _ _ => reply _, get := fun _ _ => reply _,
        batch := fun _ _ => reply _ }
    let count : Request Int64 := .count "User" none
    let remove : Request UInt64 := .remove "User" none
    s.settings.statementTimeout = none ∧
      (s.perform db count).log = [.get "SELECT count(*) as cnt FROM `User`" []] ∧
      failed? (s.perform db count).outcome = some (.database .noRow) ∧
      (s.perform db remove).outcome = .error (.query .missingWhere) ∧
      (s.perform db remove).log = [] := by
  intro s reply db count remove
  have unlimited : s.settings.statementTimeout = none := rfl
  have sent : (s.perform db count).log = [.get "SELECT count(*) as cnt FROM `User`" []] := by
    dsimp only [s, db, reply, count, perform, Session.count]
    rfl
  have turnedDown : (s.perform db remove).outcome = .error (.query .missingWhere) := rfl
  refine ⟨unlimited, sent, ?_, turnedDown, ?_⟩
  · exact ((request_refused_or_answered s db count unlimited).2.2.1 _
      (sent ▸ List.mem_singleton_self _)).2
  · exact (request_refused_or_answered s db remove unlimited).2.1.mpr (.inr ⟨_, turnedDown⟩)

end Session

end SqlMapper
