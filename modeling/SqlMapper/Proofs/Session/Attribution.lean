import Mathlib.Data.List.Nodup
import SqlMapper.Proofs.Session.Activity

/-! # Who sends what

Activities that are done side by side share one log. `Activity.attributed` is that log with each
event under the mark of the activity that sends it. What stands under a mark is the log of that
activity alone, because an activity sends its events in the order of their times and sorting by
time is stable.
-/

namespace SqlMapper

namespace Activity

variable {ι α β : Type}

/-! ## Times -/

/-- Events come in the order of their times, none after the end. -/
structure Orderly (activity : Activity α) : Prop where
  ascending : activity.events.Pairwise fun a b => a.1 ≤ b.1
  ended : ∀ event ∈ activity.events, event.1 ≤ activity.duration

section Orderly

variable {first : Activity α} {next : α → Activity β}

theorem orderly_ofOutcome (outcome : Except SessionError α) : (ofOutcome outcome).Orderly :=
  ⟨List.Pairwise.nil, fun _ member => absurd member List.not_mem_nil⟩

theorem orderly_signal (event : Event) : (signal event).Orderly :=
  ⟨List.pairwise_singleton _ _, fun _ member => List.mem_singleton.mp member ▸ Nat.le_refl 0⟩

theorem orderly_ofReply (event : Event) (reply : Reply α) : (ofReply event reply).Orderly :=
  ⟨List.pairwise_singleton _ _, fun _ member => List.mem_singleton.mp member ▸ Nat.zero_le _⟩

theorem Orderly.andThen (orderly : first.Orderly) (followed : ∀ a, (next a).Orderly) :
    (first.andThen next).Orderly := by
  rw [Activity.andThen]
  split
  · exact ⟨orderly.ascending, orderly.ended⟩
  · next a _ =>
    have second := followed a
    constructor
    · simp only [later, List.pairwise_append, List.pairwise_map, List.forall_mem_map]
      refine ⟨orderly.ascending, second.ascending.imp fun {a b} le => ?_,
        fun event member _ _ => ?_⟩
      · exact Nat.add_le_add_left le _
      · exact Nat.le_trans (orderly.ended event member) (Nat.le_add_right _ _)
    · simp only [later, List.forall_mem_append, List.forall_mem_map]
      refine ⟨fun event member => ?_, fun event member => ?_⟩
      · exact Nat.le_trans (orderly.ended event member) (Nat.le_add_right _ _)
      · exact Nat.add_le_add_left (second.ended event member) _

/-- What is cut off was sent in order. -/
theorem Orderly.within {activity : Activity α} (orderly : activity.Orderly)
    (limit : Option UInt64) : (activity.within limit).Orderly := by
  cases limit with
  | none => exact orderly
  | some millis =>
    rw [Activity.within]
    split
    · exact orderly
    · exact ⟨orderly.ascending.filter _,
        fun event kept => of_decide_eq_true (List.mem_filter.mp kept).2⟩

/-- An activity with no other beside it sends what it sends. -/
theorem Orderly.log_sideBySide {activity : Activity α} (orderly : activity.Orderly) :
    (sideBySide [activity]).log = activity.log := by
  have ascending : activity.events.Pairwise fun a b => decide (a.1 ≤ b.1) = true := by
    simpa only [decide_eq_true_eq] using orderly.ascending
  rw [log, sideBySide, inTime, List.flatMap_cons, List.flatMap_nil, List.append_nil,
    List.mergeSort_of_pairwise ascending]
  rfl

end Orderly

/-! ## Marks -/

/-- The events of an activity, each with a mark. -/
def marked (mark : ι) (activity : Activity α) : List (Nat × ι × Event) :=
  activity.events.map fun event => (event.1, mark, event.2)

/-- What activities side by side send, each event under the mark of its activity. -/
def attributed (activities : List (ι × Activity α)) : List (ι × Event) :=
  ((activities.flatMap fun entry => marked entry.1 entry.2).mergeSort fun a b => a.1 ≤ b.1).map
    Prod.snd

variable {activities : List (ι × Activity α)} {mark : ι} {activity : Activity α}

theorem map_marked (mark : ι) (activity : Activity α) :
    (activity.marked mark).map (fun event => (event.1, event.2.2)) = activity.events := by
  rw [marked, List.map_map]
  exact List.map_id _

/-- Without the marks this is the common log. -/
theorem attributed_events (activities : List (ι × Activity α)) :
    (attributed activities).map Prod.snd = (sideBySide (activities.map Prod.snd)).log := by
  have unmarked :
      (activities.flatMap fun entry => marked entry.1 entry.2).map
          (fun event => (event.1, event.2.2)) =
        (activities.map Prod.snd).flatMap events := by
    simp only [List.map_flatMap, List.flatMap_map, map_marked]
  have merged := List.map_mergeSort (r := fun a b : Nat × ι × Event => a.1 ≤ b.1)
    (s := fun a b : Nat × Event => a.1 ≤ b.1) (f := fun event => (event.1, event.2.2))
    (l := activities.flatMap fun entry => marked entry.1 entry.2) fun _ _ _ _ => rfl
  rw [unmarked] at merged
  rw [attributed, log, sideBySide, inTime, ← merged]
  simp only [List.map_map, Function.comp_def]

theorem mark_of_attributed {entry : ι × Event} (sent : entry ∈ attributed activities) :
    entry.1 ∈ activities.map Prod.fst := by
  obtain ⟨timed, member, rfl⟩ := List.mem_map.mp sent
  obtain ⟨source, listed, own⟩ := List.mem_flatMap.mp (List.mem_mergeSort.mp member)
  obtain ⟨event, _, rfl⟩ := List.mem_map.mp own
  exact List.mem_map_of_mem listed

section Marks

variable [DecidableEq ι]

theorem filter_mark (other : ι) (source : Activity α) :
    (source.marked other).filter (·.2.1 = mark) =
      if other = mark then source.marked mark else [] := by
  rw [marked, List.filter_map, Function.comp_def]
  split
  · next same => simp [same, marked]
  · next differ => simp [differ]

/-- Under a mark that is given once stand the events of one activity. -/
theorem filter_marked (distinct : (activities.map Prod.fst).Nodup)
    (member : (mark, activity) ∈ activities) :
    (activities.flatMap fun entry => marked entry.1 entry.2).filter (·.2.1 = mark) =
      activity.marked mark := by
  induction activities with
  | nil => cases member
  | cons first rest ih =>
    rw [List.map_cons, List.nodup_cons] at distinct
    rw [List.flatMap_cons, List.filter_append, filter_mark]
    rcases List.mem_cons.mp member with rfl | later
    · have none :
          (rest.flatMap fun entry => marked entry.1 entry.2).filter (·.2.1 = mark) = [] := by
        rw [List.filter_flatMap, List.flatMap_eq_nil_iff]
        intro entry listed
        exact (filter_mark _ _).trans
          (if_neg fun same => distinct.1 (List.mem_map.mpr ⟨entry, listed, same⟩))
      simp [none]
    · have differ : first.1 ≠ mark := fun same =>
        distinct.1 (same ▸ List.mem_map_of_mem (f := Prod.fst) later)
      rw [if_neg differ, ih distinct.2 later, List.nil_append]

/-- Sorting by time keeps the order of events that are in order. -/
theorem filter_mergeSort_time {timed : List (Nat × ι × Event)}
    (ascending : (timed.filter (·.2.1 = mark)).Pairwise fun a b => a.1 ≤ b.1) :
    (timed.mergeSort fun a b => a.1 ≤ b.1).filter (·.2.1 = mark) = timed.filter (·.2.1 = mark) := by
  have kept : (timed.filter (·.2.1 = mark)).Sublist (timed.mergeSort fun a b => a.1 ≤ b.1) := by
    refine List.sublist_mergeSort (fun a b c => ?_) (fun a b => ?_) ?_ List.filter_sublist
    · simpa only [decide_eq_true_eq] using Nat.le_trans
    · simpa only [Bool.or_eq_true, decide_eq_true_eq] using Nat.le_total a.1 b.1
    · simpa only [decide_eq_true_eq] using ascending
  have own := kept.filter (·.2.1 = mark)
  rw [List.filter_filter] at own
  simp only [Bool.and_self] at own
  exact (own.eq_of_length ((List.mergeSort_perm _ _).filter _).length_eq.symm).symm

/-- What is sent under a mark is what the activity sends alone. -/
theorem attributed_own (distinct : (activities.map Prod.fst).Nodup)
    (member : (mark, activity) ∈ activities) (orderly : activity.Orderly) :
    ((attributed activities).filter (·.1 = mark)).map Prod.snd = activity.log := by
  have alone := filter_marked distinct member
  have ascending : (activity.marked mark).Pairwise fun a b => a.1 ≤ b.1 :=
    List.pairwise_map.mpr orderly.ascending
  rw [attributed, List.filter_map, Function.comp_def,
    filter_mergeSort_time (by rw [alone]; exact ascending), alone, marked, log]
  simp only [List.map_map, Function.comp_def]

end Marks

end Activity

end SqlMapper
