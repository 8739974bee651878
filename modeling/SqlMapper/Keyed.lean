/-!
# Entries in order of first insertion

`Entries` are pairs of a name and a value. `put` gives a name a new value at its old place, or at
the end if the name is new, so it never makes a name occur twice. A `Keyed α` is a list of entries
in which no name occurs twice.
-/

namespace SqlMapper

abbrev Entries (α : Type u) := List (String × α)

namespace Entries

variable {α : Type u} {name other : String}

def names (entries : Entries α) : List String := entries.map Prod.fst

/-- The first value of a name. -/
def get? (name : String) : Entries α → Option α
  | [] => none
  | (n, a) :: rest => if n = name then some a else get? name rest

/-- Replaces the first value of a name in place, or appends one. -/
def put (name : String) (a : α) : Entries α → Entries α
  | [] => [(name, a)]
  | (n, b) :: rest => if n = name then (n, a) :: rest else (n, b) :: put name a rest

/-- Removes the first value of a name. -/
def erase (name : String) : Entries α → Entries α
  | [] => []
  | (n, b) :: rest => if n = name then rest else (n, b) :: erase name rest

/-- Puts the entries of the second list into the first, in order. -/
def putAll (entries added : Entries α) : Entries α :=
  added.foldl (fun entries entry => put entry.1 entry.2 entries) entries

@[simp] theorem get?_put_self (a : α) (entries : Entries α) :
    get? name (put name a entries) = some a := by
  induction entries with
  | nil => simp [put, get?]
  | cons entry rest ih => by_cases same : entry.1 = name <;> simp [put, get?, same, ih]

theorem get?_put_other (a : α) (entries : Entries α) (differ : name ≠ other) :
    get? other (put name a entries) = get? other entries := by
  induction entries with
  | nil => simp [put, get?, differ]
  | cons entry rest ih =>
      by_cases same : entry.1 = name
      · simp [put, get?, same, differ]
      · simp only [put, same, if_false, get?, ih]

/-- A present name keeps its place, and a new one comes last. -/
theorem names_put (a : α) (entries : Entries α) :
    names (put name a entries) =
      if name ∈ names entries then names entries else names entries ++ [name] := by
  induction entries with
  | nil => simp [put, names]
  | cons entry rest ih =>
      simp only [names] at ih
      by_cases same : entry.1 = name
      · simp [put, names, same]
      · have differ : ¬ name = entry.1 := fun h => same h.symm
        simp only [put, same, if_false, names, List.map_cons, List.mem_cons, differ, false_or]
        rw [ih]
        split <;> simp [*]

theorem names_erase_sublist (entries : Entries α) :
    (names (erase name entries)).Sublist (names entries) := by
  induction entries with
  | nil => exact List.Sublist.refl _
  | cons entry rest ih =>
      by_cases same : entry.1 = name
      · simp [erase, names, same]
      · simpa [erase, names, same] using ih

theorem nodup_put (a : α) {entries : Entries α} (distinct : (names entries).Nodup) :
    (names (put name a entries)).Nodup := by
  rw [names_put]
  split
  · exact distinct
  · next absent =>
      exact List.nodup_append.2 ⟨distinct, by simp, fun n here m last => by
        rintro rfl
        exact absent (by simpa using List.mem_singleton.1 last ▸ here)⟩

theorem nodup_putAll {entries : Entries α} (added : Entries α)
    (distinct : (names entries).Nodup) : (names (putAll entries added)).Nodup := by
  induction added generalizing entries with
  | nil => exact distinct
  | cons entry rest ih => exact ih (nodup_put entry.2 distinct)

end Entries

/-- Entries of which no two have the same name. -/
structure Keyed (α : Type u) where
  entries : Entries α
  distinct : entries.names.Nodup

namespace Keyed

variable {α : Type u}

def empty : Keyed α := ⟨[], List.nodup_nil⟩

instance : Inhabited (Keyed α) := ⟨empty⟩

instance [DecidableEq α] : DecidableEq (Keyed α) := fun a b =>
  decidable_of_iff (a.entries = b.entries) (by cases a; cases b; simp)

instance [Repr α] : Repr (Keyed α) := ⟨fun k n => reprPrec k.entries n⟩

def names (k : Keyed α) : List String := k.entries.names

def get? (k : Keyed α) (name : String) : Option α := k.entries.get? name

def contains (k : Keyed α) (name : String) : Bool := (k.get? name).isSome

/-- Gives a name a value, at its old place or at the end. -/
def put (k : Keyed α) (name : String) (a : α) : Keyed α :=
  ⟨k.entries.put name a, Entries.nodup_put a k.distinct⟩

def erase (k : Keyed α) (name : String) : Keyed α :=
  ⟨k.entries.erase name, k.distinct.sublist (Entries.names_erase_sublist k.entries)⟩

/-- Puts entries one after the other into an empty collection. -/
def ofList (added : Entries α) : Keyed α :=
  ⟨Entries.putAll [] added, Entries.nodup_putAll added List.nodup_nil⟩

end Keyed

end SqlMapper
