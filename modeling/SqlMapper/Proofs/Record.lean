import Mathlib.Data.Finmap
import SqlMapper.Proofs.Entries
import SqlMapper.Proofs.Text.Digits
import SqlMapper.Record

/-! # Records as maps in order

A record is the outcome of its history: values that are put under names, names that are removed,
and starts from nothing. Under a name it has the value that was put last, if no removal followed,
and the names stand in the order in which they came in, that is, of the first values put under them
since there was none. This says all about a record, so it answers like a finite map that is gone
through in this order. Its document holds the same values, and they come back from it wherever a
value can be told from its document.
-/

namespace SqlMapper

namespace Entries

variable {α : Type u} {entries : Entries α}

/-- Entries are their names with what is found under them. -/
theorem eq_filterMap_names (distinct : entries.names.Nodup) :
    entries = entries.names.filterMap fun name => (get? name entries).map (name, ·) :=
  calc entries
    _ = entries.filterMap some := List.filterMap_some.symm
    _ = entries.filterMap fun entry => (get? entry.1 entries).map (entry.1, ·) :=
        List.filterMap_congr fun entry member => by
          rw [get?_of_mem distinct member, Option.map_some]
    _ = _ := by rw [names, List.filterMap_map]; rfl

end Entries

namespace Record

/-! ## Histories -/

/-- An operation that makes or changes a record. -/
inductive Step
  /-- Gives a name a value of any type whose members are values. -/
  | insert {α : Type} [ToValue α] (name : String) (a : α)
  | remove (name : String)
  /-- Starts over and inserts values one after the other. -/
  | collect (added : Entries Value)

def perform (r : Record) : Step → Record
  | @Step.insert _ _ name a => r.insert name a
  | .remove name => (r.remove name).2
  | .collect added => Keyed.ofList added

/-- What happens to a record at one time. -/
inductive Change
  | put (name : String) (v : Value)
  | erase (name : String)
  | clear

namespace Change

def apply (r : Record) : Change → Record
  | .put name v => Keyed.put r name v
  | .erase name => Keyed.erase r name
  | .clear => Record.empty

/-- Whether a change leaves nothing under a name. -/
def Drops (name : String) : Change → Prop
  | .put _ _ => False
  | .erase other => other = name
  | .clear => True

end Change

/-- The changes that an operation is made of. -/
def Step.changes : Step → List Change
  | @insert _ _ name a => [.put name (toValue a)]
  | .remove name => [.erase name]
  | .collect added => .clear :: added.map fun entry => .put entry.1 entry.2

/-- The value that was put last under a name, if it was not removed since. -/
def Holds (changes : List Change) (name : String) (v : Value) : Prop :=
  ∃ before after, changes = before ++ .put name v :: after ∧
    (∀ w, .put name w ∉ after) ∧ ∀ c ∈ after, ¬ c.Drops name

/-- The place in the history at which a name came in: there was no value under it before, and it was
not removed since. -/
def EntersAt (changes : List Change) (name : String) (place : Nat) : Prop :=
  ∃ before v after, changes = before ++ .put name v :: after ∧ before.length = place ∧
    (∀ w, ¬ Holds before name w) ∧ ∀ c ∈ after, ¬ c.Drops name

/-- What a record has to do with its history. -/
structure Follows (r : Record) (changes : List Change) : Prop where
  found : ∀ name v, r.get? name = some v ↔ Holds changes name v
  ordered : r.names.Pairwise fun one other =>
    ∀ i j, EntersAt changes one i → EntersAt changes other j → i < j

section History

variable {changes : List Change} {c : Change} {name : String} {v : Value} {place : Nat} {r : Record}

/-- What stands in a list that ends with an element is this element or stands before it. -/
theorem concat_eq {α : Type} {front before after : List α} {last a : α}
    (same : front ++ [last] = before ++ a :: after) :
    (front = before ∧ last = a) ∨ ∃ rest, after = rest ++ [last] ∧ front = before ++ a :: rest := by
  rcases List.eq_nil_or_concat' after with rfl | ⟨rest, b, rfl⟩
  · obtain ⟨fronts, lasts⟩ := List.append_inj' same rfl
    exact .inl ⟨fronts, List.singleton_inj.mp lasts⟩
  · rw [← List.cons_append, ← List.append_assoc] at same
    obtain ⟨rfl, lasts⟩ := List.append_inj' same rfl
    exact .inr ⟨rest, by rw [List.singleton_inj.mp lasts], rfl⟩

theorem holds_concat_iff : Holds (changes ++ [c]) name v ↔
    c = .put name v ∨ Holds changes name v ∧ ¬ c.Drops name ∧ ∀ w, c ≠ .put name w := by
  constructor
  · rintro ⟨before, after, split, last, kept⟩
    rcases concat_eq split with ⟨_, same⟩ | ⟨rest, rfl, rfl⟩
    · exact .inl same
    · simp only [List.mem_append, List.mem_singleton, not_or, forall_and] at last
      refine .inr ⟨⟨before, rest, rfl, last.1, fun c member => ?_⟩, ?_, fun w same => ?_⟩
      · exact kept c (List.mem_append_left _ member)
      · exact kept c List.mem_concat_self
      · exact last.2 w same.symm
  · rintro (rfl | ⟨⟨before, after, rfl, last, kept⟩, keeps, other⟩)
    · exact ⟨changes, [], rfl, fun _ => List.not_mem_nil, List.forall_mem_nil _⟩
    · refine ⟨before, after ++ [c], by simp, fun w member => ?_, fun d member => ?_⟩
      · rcases List.mem_append.mp member with member | member
        · exact last w member
        · exact other w (List.mem_singleton.mp member).symm
      · rcases List.mem_append.mp member with member | member
        · exact kept d member
        · rwa [List.mem_singleton.mp member]

theorem entersAt_concat_iff : EntersAt (changes ++ [c]) name place ↔
    (place = changes.length ∧ (∃ v, c = .put name v) ∧ ∀ w, ¬ Holds changes name w) ∨
      EntersAt changes name place ∧ ¬ c.Drops name := by
  constructor
  · rintro ⟨before, v, after, split, rfl, absent, kept⟩
    rcases concat_eq split with ⟨rfl, same⟩ | ⟨rest, rfl, rfl⟩
    · exact .inl ⟨rfl, ⟨v, same⟩, absent⟩
    · refine .inr ⟨⟨before, v, rest, rfl, rfl, absent, fun d member => ?_⟩, ?_⟩
      · exact kept d (List.mem_append_left _ member)
      · exact kept c List.mem_concat_self
  · rintro (⟨rfl, ⟨v, rfl⟩, absent⟩ | ⟨⟨before, v, after, rfl, rfl, absent, kept⟩, keeps⟩)
    · exact ⟨changes, v, [], rfl, rfl, absent, List.forall_mem_nil _⟩
    · refine ⟨before, v, after ++ [c], by simp, rfl, absent, fun d member => ?_⟩
      rcases List.mem_append.mp member with member | member
      · exact kept d member
      · rwa [List.mem_singleton.mp member]

theorem not_holds_nil : ¬ Holds [] name v := by
  rintro ⟨before, after, split, _⟩
  simp at split

theorem EntersAt.lt_length (enters : EntersAt changes name place) : place < changes.length := by
  obtain ⟨before, v, after, rfl, rfl, _⟩ := enters
  simp

/-- A name has come in exactly if there is a value under it. -/
theorem exists_entersAt_iff :
    (∃ place, EntersAt changes name place) ↔ ∃ v, Holds changes name v := by
  induction changes using List.reverseRecOn with
  | nil =>
    refine iff_of_false ?_ fun ⟨_, held⟩ => not_holds_nil held
    exact fun ⟨place, enters⟩ => Nat.not_lt_zero place enters.lt_length
  | append_singleton changes c ih =>
    simp only [entersAt_concat_iff, holds_concat_iff, exists_or, exists_and_right, ih]
    by_cases puts : ∃ v, c = .put name v
    · obtain ⟨v, rfl⟩ := puts
      have keeps : ¬ (Change.put name v).Drops name := id
      by_cases held : ∃ v, Holds changes name v
      · simp [held, keeps]
      · simp [not_exists.mp held]
    · simp [not_exists.mp puts]

namespace Follows

theorem mem_names_iff (follows : Follows r changes) :
    name ∈ r.names ↔ ∃ v, Holds changes name v := by
  simp only [← follows.found, ← Option.isSome_iff_exists]
  rw [← Keyed.contains, ← Bool.not_eq_false, r.contains_eq_false_iff, not_not]

/-- A name that is there came in before. -/
theorem entersAt_of_concat (follows : Follows r changes) (member : name ∈ r.names)
    (enters : EntersAt (changes ++ [c]) name place) : EntersAt changes name place := by
  rcases entersAt_concat_iff.mp enters with ⟨_, _, absent⟩ | ⟨enters, _⟩
  · obtain ⟨v, held⟩ := follows.mem_names_iff.mp member
    exact absurd held (absent v)
  · exact enters

/-- A name that was not there comes in last. -/
theorem entersAt_last (follows : Follows r changes) (absent : name ∉ r.names)
    (enters : EntersAt (changes ++ [c]) name place) : place = changes.length := by
  rcases entersAt_concat_iff.mp enters with ⟨last, _⟩ | ⟨enters, _⟩
  · exact last
  · exact absurd (follows.mem_names_iff.mpr (exists_entersAt_iff.mp ⟨place, enters⟩)) absent

/-- A further change keeps a record to its history. -/
theorem apply (follows : Follows r changes) (c : Change) :
    Follows (c.apply r) (changes ++ [c]) := by
  have kept : r.names.Pairwise fun one other => ∀ i j, EntersAt (changes ++ [c]) one i →
      EntersAt (changes ++ [c]) other j → i < j :=
    follows.ordered.imp_of_mem fun first second before i j enters enters' =>
      before i j (follows.entersAt_of_concat first enters)
        (follows.entersAt_of_concat second enters')
  refine ⟨fun name v => ?_, ?_⟩
  · rw [holds_concat_iff, ← follows.found]
    cases c with
    | put other w =>
      have found : (Change.apply r (.put other w)).get? name =
          if other = name then some w else r.get? name := r.get?_put other w name
      rw [found]
      by_cases same : other = name <;> simp [same, Change.Drops]
    | erase other =>
      have found : (Change.apply r (.erase other)).get? name =
          if other = name then none else r.get? name := r.get?_erase other name
      rw [found]
      by_cases same : other = name <;> simp [same, Change.Drops]
    | clear =>
      have found : (Change.apply r .clear).get? name = none := rfl
      simp [found, Change.Drops]
  · cases c with
    | put name v =>
      have names : (Change.apply r (.put name v)).names =
          if name ∈ r.names then r.names else r.names ++ [name] := Entries.names_put v r.entries
      rw [names]
      split
      · exact kept
      · next absent =>
        refine List.pairwise_append.mpr ⟨kept, List.pairwise_singleton _ _, ?_⟩
        intro one member other last i j enters enters'
        obtain rfl := List.mem_singleton.mp last
        rw [follows.entersAt_last absent enters']
        exact (follows.entersAt_of_concat member enters).lt_length
    | erase name => exact kept.sublist (Entries.names_erase_sublist r.entries)
    | clear => exact .nil

end Follows

theorem follows_foldl (changes : List Change) :
    Follows (changes.foldl Change.apply empty) changes := by
  induction changes using List.reverseRecOn with
  | nil => exact ⟨fun name v => iff_of_false nofun not_holds_nil, .nil⟩
  | append_singleton changes c ih =>
    rw [List.foldl_append]
    exact ih.apply c

end History

/-! ## Operations -/

theorem foldl_put (r : Record) (added : Entries Value) :
    ((added.map fun entry => Change.put entry.1 entry.2).foldl Change.apply r).entries =
      Entries.putAll r.entries added := by
  induction added generalizing r with
  | nil => rfl
  | cons first rest ih => exact ih (Keyed.put r first.1 first.2)

theorem perform_eq (r : Record) (step : Step) :
    r.perform step = step.changes.foldl Change.apply r := by
  cases step with
  | insert name a => rfl
  | remove name => rfl
  | collect added => exact Keyed.eq_of_entries (foldl_put empty added).symm

theorem foldl_perform (r : Record) (steps : List Step) :
    steps.foldl perform r = (steps.flatMap Step.changes).foldl Change.apply r := by
  induction steps generalizing r with
  | nil => rfl
  | cons step steps ih =>
    rw [List.foldl_cons, ih, List.flatMap_cons, List.foldl_append, perform_eq]

theorem names_insert_of_mem {α : Type} [ToValue α] {r : Record} {name : String} (a : α)
    (present : name ∈ r.names) : (r.insert name a).names = r.names :=
  (Entries.names_put (toValue a) r.entries).trans (if_pos present)

theorem length_insert_of_mem {α : Type} [ToValue α] {r : Record} {name : String} (a : α)
    (present : name ∈ r.names) : (r.insert name a).entries.length = r.entries.length := by
  simpa [Keyed.names, Entries.names] using congrArg List.length (names_insert_of_mem a present)

/-! ## The map without its order -/

/-- The values of a record by name. -/
def toMap (r : Record) : Finmap fun _ : String => Value where
  entries := (r.entries.map fun entry => ⟨entry.1, entry.2⟩ : List (Σ _ : String, Value))
  nodupKeys := by
    rw [Multiset.coe_nodupKeys, List.NodupKeys, List.keys, List.map_map]
    exact r.distinct

theorem lookup_toMap (r : Record) (name : String) : r.toMap.lookup name = r.get? name := by
  ext v
  rw [Finmap.lookup_eq_some_iff, Keyed.get?_eq_some_iff]
  simp [toMap]

theorem mem_toMap_iff (r : Record) {name : String} : name ∈ r.toMap ↔ name ∈ r.names := by
  rw [← Finmap.mem_keys]
  simp [toMap, Finmap.keys, List.keys, Keyed.names, Entries.names]

theorem card_keys_toMap (r : Record) : r.toMap.keys.card = r.entries.length := by
  simp [toMap, Finmap.keys, Finset.card, List.keys]

theorem toMap_eq_empty_iff (r : Record) : r.toMap = ∅ ↔ r.entries.isEmpty = true := by
  rw [List.isEmpty_iff, ← List.length_eq_zero_iff, ← card_keys_toMap, Finset.card_eq_zero]
  constructor
  · rintro empty
    rw [empty, Finmap.keys_empty]
  · intro none
    refine Finmap.ext_lookup fun name => ?_
    rw [Finmap.lookup_empty, Finmap.lookup_eq_none, ← Finmap.mem_keys, none]
    exact Finset.notMem_empty name

end Record

/-! ## Documents of records -/

/-- Null, a truth value, an integer, a finite number, a text, a list or an object. -/
def Value.isPlain : Value → Bool
  | .null | .bool _ | .int _ | .text _ | .json (.array _) | .json (.object _) => true
  | .float x => x.isFinite
  | _ => false

/-- These values, and no others, can be told from their documents. -/
theorem Value.ofJson_toJson_iff (v : Value) : ofJson v.toJson = v ↔ v.isPlain = true := by
  cases v with
  | int n =>
    have word : toInt64? n.toInt = some n := Text.toInt64?_eq_some_iff.mpr rfl
    simp [toJson, ofJson, word, isPlain]
  | float x => cases finite : x.isFinite <;> simp [toJson, ofJson, finite, isPlain]
  | json j =>
    cases j with
    | int n => cases word : toInt64? n <;> simp [toJson, ofJson, word, isPlain]
    | _ => simp [toJson, ofJson, isPlain]
  | _ => simp [toJson, ofJson, isPlain]

namespace Record

/-- A record comes back from its document, in its order, exactly if each of its values does. -/
theorem ofJsonEntries_eq_iff (r : Record) :
    ofJsonEntries (r.entries.map fun entry => (entry.1, entry.2.toJson)) = r ↔
      ∀ entry ∈ r.entries, entry.2.isPlain = true := by
  have entries : (ofJsonEntries (r.entries.map fun entry => (entry.1, entry.2.toJson))).entries =
      r.entries.map fun entry => (entry.1, Value.ofJson entry.2.toJson) := by
    rw [ofJsonEntries, List.map_map]
    exact Entries.putAll_of_distinct (by simpa [Entries.names, Function.comp_def] using r.distinct)
  have each : (r.entries.map fun entry => (entry.1, Value.ofJson entry.2.toJson)) = r.entries ↔
      ∀ entry ∈ r.entries, entry.2.isPlain = true := by
    conv_lhs => rw [← List.map_id r.entries, List.map_map, List.map_inj_left]
    simp only [Function.comp_apply, id_eq, Prod.ext_iff, true_and, Value.ofJson_toJson_iff]
  rw [← each, ← entries]
  exact ⟨congrArg Keyed.entries, Keyed.eq_of_entries⟩

/-! ## Whatever was done -/

/-- After any operations the names of a record are those that have come in, in this order, and it
answers in every way like the finite map of the values that were put last. A value under a name that
is there changes neither the length nor the order. A record comes back from its document exactly if
its values are null, truth values, integers, finite numbers, texts, lists and objects. -/
theorem insertion_ordered_map :
    (∀ steps : List Step,
      let r := steps.foldl perform empty
      let changes := steps.flatMap Step.changes
      r.names.Nodup ∧
      (∀ name, name ∈ r.names ↔ ∃ place, EntersAt changes name place) ∧
      r.names.Pairwise (fun one other =>
        ∀ i j, EntersAt changes one i → EntersAt changes other j → i < j) ∧
      ∃ m : Finmap fun _ : String => Value,
        (∀ name v, m.lookup name = some v ↔ Holds changes name v) ∧
        (∀ name, r.get? name = m.lookup name) ∧
        (∀ name, (r.remove name).1 = m.lookup name ∧
          (r.remove name).2.entries = r.entries.filter fun entry => entry.1 != name) ∧
        r.entries = r.names.filterMap (fun name => (m.lookup name).map (name, ·)) ∧
        r.entries.length = m.keys.card ∧
        (r.entries.isEmpty = true ↔ m = ∅) ∧
        r.id? = (m.lookup idName).bind Value.integer? ∧
        ∀ name ∈ m, ∀ {α : Type} [ToValue α] (a : α),
          (r.insert name a).names = r.names ∧
            (r.insert name a).entries.length = r.entries.length) ∧
    ∀ r : Record, ∃ entries, r.toJson = .object entries ∧
      (ofJsonEntries entries = r ↔ ∀ entry ∈ r.entries, entry.2.isPlain = true) := by
  refine ⟨fun steps => ?_, fun r => ⟨_, rfl, r.ofJsonEntries_eq_iff⟩⟩
  intro r changes
  have follows : Follows r changes := by
    have run : r = changes.foldl Change.apply empty := foldl_perform empty steps
    exact run ▸ follows_foldl changes
  refine ⟨r.distinct, fun name => ?_, follows.ordered, r.toMap, fun name v => ?_,
    fun name => (r.lookup_toMap name).symm, fun name => ⟨(r.lookup_toMap name).symm, ?_⟩, ?_,
    r.card_keys_toMap.symm, r.toMap_eq_empty_iff.symm, ?_, fun name member α _ a => ?_⟩
  · rw [follows.mem_names_iff, exists_entersAt_iff]
  · rw [lookup_toMap, follows.found]
  · exact Entries.erase_eq_filter r.distinct
  · simp only [lookup_toMap]
    exact Entries.eq_filterMap_names r.distinct
  · rw [lookup_toMap]
    rfl
  · have there : name ∈ r.names := r.mem_toMap_iff.mp member
    exact ⟨r.names_insert_of_mem a there, r.length_insert_of_mem a there⟩

/-- A record that is started over with a name twice, and loses its first name and gets it back. -/
theorem insertion_ordered_map_mixed :
    let steps : List Step :=
      [.insert "z" true, .collect [("a", .null), ("b", .json (.array [])), ("a", .bool true)],
        .remove "a", .insert "c" (some "x"), .insert "a" (7 : Int64), .insert "b" (Json.object [])]
    let r := steps.foldl perform empty
    r.names = ["b", "c", "a"] ∧ r.get? "b" = some (.json (.object [])) ∧ r.get? "z" = none ∧
      (r.remove "c").2.names = ["b", "a"] ∧ (r.insert "c" "y").names = r.names ∧
      ∃ entries, r.toJson = .object entries ∧ ofJsonEntries entries = r := by
  intro steps r
  obtain ⟨course, document⟩ := insertion_ordered_map
  obtain ⟨_, _, _, m, holds, found, _, _, _, _, _, present⟩ := course steps
  have last : m.lookup "b" = some (.json (.object [])) :=
    (holds "b" _).mpr ⟨(steps.flatMap Step.changes).dropLast, [], rfl,
      fun _ => List.not_mem_nil, List.forall_mem_nil _⟩
  have there : "c" ∈ m := Finmap.lookup_isSome.mp (found "c" ▸ rfl)
  obtain ⟨entries, written, back⟩ := document r
  exact ⟨rfl, (found "b").trans last, rfl, rfl, (present "c" there "y").1,
    entries, written, back.mpr (by decide)⟩

end Record

end SqlMapper
