import SqlMapper.Session.Activity

/-! # What activities send

The log of an activity that goes on is its log so far and that of what follows. Activities side by
side send what each of them sends, in some order. A batch is one call, however many of its
statements are reached; `Activity.calls` counts it once.
-/

namespace SqlMapper

/-- Whether an event is a call of its own and not a statement of a batch. -/
def Event.isCall : Event → Bool
  | .batch _ => false
  | _ => true

namespace Activity

variable {α β : Type}

/-- The calls in order; a batch is one call. -/
def calls (activity : Activity α) : List Event := activity.log.filter Event.isCall

theorem log_later (millis : Nat) (events : List (Nat × Event)) :
    (later millis events).map Prod.snd = events.map Prod.snd := by
  simp [later]

section Sequence

variable {first : Activity α} {next : α → Activity β} {a : α} {cause : SessionError}

theorem outcome_andThen (first : Activity α) (next : α → Activity β) :
    (first.andThen next).outcome = first.outcome.bind fun a => (next a).outcome := by
  rw [andThen]
  cases first.outcome <;> rfl

theorem log_andThen_ok (success : first.outcome = .ok a) :
    (first.andThen next).log = first.log ++ (next a).log := by
  simp only [andThen, success, log, List.map_append, log_later]

theorem log_andThen_error (failure : first.outcome = .error cause) :
    (first.andThen next).log = first.log := by
  simp only [andThen, failure, log]

/-- What follows may send nothing. -/
theorem log_andThen_silent (silent : ∀ a, (next a).log = []) :
    (first.andThen next).log = first.log := by
  cases outcome : first.outcome with
  | error cause => exact log_andThen_error outcome
  | ok a => rw [log_andThen_ok outcome, silent, List.append_nil]

theorem mem_log_andThen {event : Event} (sent : event ∈ (first.andThen next).log) :
    event ∈ first.log ∨ ∃ a, first.outcome = .ok a ∧ event ∈ (next a).log := by
  cases outcome : first.outcome with
  | error cause => exact .inl (log_andThen_error outcome ▸ sent)
  | ok a =>
    rw [log_andThen_ok outcome, List.mem_append] at sent
    exact sent.imp_right fun later => ⟨a, rfl, later⟩

/-- A statement is sent, and what follows only if it is answered. -/
theorem log_ofReply_andThen (event : Event) (reply : Reply α) (next : α → Activity β) :
    ((ofReply event reply).andThen next).log =
      event :: match reply.answer with
        | .ok a => (next a).log
        | .error _ => [] := by
  have outcome : (ofReply event reply).outcome = reply.answer.mapError .database := rfl
  cases answered : reply.answer with
  | error cause =>
    rw [answered] at outcome
    rw [log_andThen_error outcome]
    rfl
  | ok a =>
    rw [answered] at outcome
    rw [log_andThen_ok outcome]
    rfl

end Sequence

/-- What ends in time ends as it would without a limit. -/
theorem outcome_of_within {limit : Option UInt64} {activity : Activity α} {a : α}
    (success : (activity.within limit).outcome = .ok a) : activity.outcome = .ok a := by
  cases limit with
  | none => exact success
  | some millis =>
    rw [within] at success
    split at success
    · exact success
    · cases success

/-- A statement is sent before any limit is reached. -/
theorem log_within_ofReply (limit : Option UInt64) (event : Event) (reply : Reply α) :
    ((ofReply event reply).within limit).log = [event] := by
  cases limit with
  | none => rfl
  | some millis =>
    rw [within]
    split <;> simp [ofReply, log]

/-- Activities side by side send what each of them sends. -/
theorem log_sideBySide (activities : List (Activity α)) :
    (sideBySide activities).log.Perm (activities.flatMap log) := by
  have merged := (List.mergeSort_perm (activities.flatMap events) fun a b => a.1 ≤ b.1).map Prod.snd
  rwa [List.map_flatMap] at merged

end Activity

end SqlMapper
