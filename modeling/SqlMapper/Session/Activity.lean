import SqlMapper.Session.Database

/-!
# Activities

An `Activity` is something done with a database: the events it causes, each at its time, how long
it takes, and its outcome. Activities are done one after the other, or side by side; one that takes
too long is cut off, and what it would have sent afterwards is not sent.

Side by side, events are ordered by time; at the same time the activity that is listed first comes
first.
-/

namespace SqlMapper

structure Activity (α : Type) where
  /-- Events with the milliseconds from the start. -/
  events : List (Nat × Event)
  duration : Nat
  outcome : Except SessionError α

namespace Activity

/-- Nothing is done. -/
def ofOutcome (outcome : Except SessionError α) : Activity α := ⟨[], 0, outcome⟩

def done (a : α) : Activity α := ofOutcome (.ok a)

def failed (cause : SessionError) : Activity α := ofOutcome (.error cause)

/-- An event at once and nothing else. -/
def signal (event : Event) : Activity Unit := ⟨[(0, event)], 0, .ok ()⟩

/-- A statement is sent and answered. -/
def ofReply (event : Event) (reply : Reply α) : Activity α :=
  ⟨[(0, event)], reply.delay, reply.answer.mapError .database⟩

/-- Starts some milliseconds later. -/
def later (millis : Nat) (events : List (Nat × Event)) : List (Nat × Event) :=
  events.map fun event => (millis + event.1, event.2)

/-- Goes on with what follows from the outcome, unless that is a failure. -/
def andThen (first : Activity α) (next : α → Activity β) : Activity β :=
  match first.outcome with
  | .error cause => ⟨first.events, first.duration, .error cause⟩
  | .ok a =>
      let second := next a
      ⟨first.events ++ later first.duration second.events, first.duration + second.duration,
        second.outcome⟩

instance : Monad Activity where
  pure := done
  bind := andThen

/-- Cuts an activity off after some milliseconds, if there is a limit. -/
def within (limit : Option UInt64) (activity : Activity α) : Activity α :=
  match limit with
  | none => activity
  | some millis =>
      if activity.duration ≤ millis.toNat then activity
      else
        ⟨activity.events.filter fun event => event.1 ≤ millis.toNat, millis.toNat,
          .error (.timeout millis)⟩

/-- The later of two ends. -/
def longest : List (Activity α) → Nat
  | [] => 0
  | activity :: rest => max activity.duration (longest rest)

/-- Merges events by time, keeping the order of those at the same time. -/
def inTime (events : List (Nat × Event)) : List (Nat × Event) :=
  events.mergeSort fun a b => a.1 ≤ b.1

/-- Does activities side by side and waits for all of them. -/
def sideBySide (activities : List (Activity α)) : Activity (List (Except SessionError α)) :=
  ⟨inTime (activities.flatMap events), longest activities, .ok (activities.map outcome)⟩

/-- The events in order, without their times. -/
def log (activity : Activity α) : List Event := activity.events.map Prod.snd

end Activity

end SqlMapper
