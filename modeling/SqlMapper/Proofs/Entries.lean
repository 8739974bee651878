import SqlMapper.Keyed

/-! # Entries

What is found among entries after one of them is put or erased.
-/

namespace SqlMapper

namespace Entries

variable {α : Type u} {name : String} {a : α} {entry : String × α} {entries : Entries α}

theorem mem_of_get? (found : get? name entries = some a) : (name, a) ∈ entries := by
  induction entries with
  | nil => cases found
  | cons first rest ih =>
    rw [get?] at found
    split at found
    · rename_i same
      cases found
      rw [← same]
      exact List.mem_cons_self
    · exact List.mem_cons_of_mem _ (ih found)

theorem get?_of_mem (distinct : entries.names.Nodup) (member : entry ∈ entries) :
    get? entry.1 entries = some entry.2 := by
  induction entries with
  | nil => cases member
  | cons first rest ih =>
    obtain ⟨new, distinct⟩ := List.nodup_cons.mp distinct
    rw [get?]
    rcases List.mem_cons.mp member with rfl | later
    · rw [if_pos rfl]
    · have differ : first.1 ≠ entry.1 := by
        intro same
        exact new (same ▸ List.mem_map_of_mem later)
      rw [if_neg differ, ih distinct later]

theorem get?_eq_some_iff (distinct : entries.names.Nodup) :
    get? name entries = some a ↔ (name, a) ∈ entries :=
  ⟨mem_of_get?, get?_of_mem distinct⟩

theorem get?_eq_none_iff : get? name entries = none ↔ name ∉ entries.names := by
  induction entries with
  | nil => simp [get?, names]
  | cons first rest ih =>
    rw [get?, names, List.map_cons, List.mem_cons]
    by_cases same : first.1 = name
    · simp [same]
    · rw [if_neg same, ih, names]
      simp [Ne.symm same]

/-- What is found does not depend on the order. -/
theorem get?_perm {other : Entries α} (perm : other.Perm entries)
    (distinct : entries.names.Nodup) (name : String) : get? name other = get? name entries := by
  have otherDistinct : other.names.Nodup := (perm.map Prod.fst).nodup_iff.mpr distinct
  ext a
  rw [get?_eq_some_iff otherDistinct, get?_eq_some_iff distinct, perm.mem_iff]

/-- Entries in which the same is found differ in their order only. -/
theorem perm_of_get? {other : Entries α} (distinct : entries.names.Nodup)
    (otherDistinct : other.names.Nodup) (same : ∀ name, get? name other = get? name entries) :
    other.Perm entries := by
  have nodup {entries : Entries α} (distinct : entries.names.Nodup) : entries.Nodup :=
    List.Pairwise.of_map _ (fun _ _ differ same => differ (congrArg Prod.fst same)) distinct
  rw [List.perm_ext_iff_of_nodup (nodup otherDistinct) (nodup distinct)]
  rintro ⟨name, a⟩
  rw [← get?_eq_some_iff otherDistinct, same, get?_eq_some_iff distinct]

theorem get?_erase (distinct : entries.names.Nodup) (other : String) :
    get? other (erase name entries) = if name = other then none else get? other entries := by
  induction entries with
  | nil => simp [erase, get?]
  | cons first rest ih =>
    obtain ⟨new, distinct⟩ := List.nodup_cons.mp distinct
    rw [erase]
    by_cases here : first.1 = name
    · rw [if_pos here, get?]
      by_cases same : name = other
      · rw [if_pos same, ← same, ← here]
        exact get?_eq_none_iff.mpr new
      · rw [if_neg same, if_neg (here ▸ same)]
    · rw [if_neg here, get?, get?, ih distinct]
      by_cases first_other : first.1 = other
      · have differ : name ≠ other := fun same => here (first_other.trans same.symm)
        rw [if_pos first_other, if_pos first_other, if_neg differ]
      · rw [if_neg first_other, if_neg first_other]

theorem erase_eq_filter (distinct : entries.names.Nodup) :
    erase name entries = entries.filter fun entry => entry.1 != name := by
  induction entries with
  | nil => rfl
  | cons first rest ih =>
    obtain ⟨new, distinct⟩ := List.nodup_cons.mp distinct
    rw [erase]
    split
    · next same =>
      have others : ∀ entry ∈ rest, (entry.1 != name) = true := by
        intro entry member
        rw [← same, bne_iff_ne]
        rintro again
        exact new (again ▸ List.mem_map_of_mem member)
      rw [List.filter_cons_of_neg (by simp [same]), List.filter_eq_self.mpr others]
    · next differ => rw [List.filter_cons_of_pos (by simp [differ]), ih distinct]

theorem put_of_notMem (new : name ∉ entries.names) : put name a entries = entries ++ [(name, a)] := by
  induction entries with
  | nil => rfl
  | cons first rest ih =>
    rw [names, List.map_cons, List.mem_cons, not_or] at new
    rw [put, if_neg (Ne.symm new.1), ih new.2, List.cons_append]

/-- What is put under a name is not among the entries of the others. -/
theorem filter_put {keep : String × α → Bool} (dropped : ∀ a, keep (name, a) = false) :
    (put name a entries).filter keep = entries.filter keep := by
  induction entries with
  | nil => simp [put, dropped]
  | cons first rest ih =>
    obtain ⟨n, b⟩ := first
    rw [put]
    split
    · next same =>
      subst same
      rw [List.filter_cons_of_neg (by simp [dropped]), List.filter_cons_of_neg (by simp [dropped])]
    · rw [List.filter_cons, List.filter_cons, ih]

/-- New entries are put at the end in their order. -/
theorem putAll_of_distinct {added : Entries α} (distinct : (names (entries ++ added)).Nodup) :
    putAll entries added = entries ++ added := by
  induction added generalizing entries with
  | nil => exact (List.append_nil _).symm
  | cons first rest ih =>
    obtain ⟨n, a⟩ := first
    have new : n ∉ entries.names := by
      rw [names, List.map_append, List.nodup_append] at distinct
      intro member
      exact distinct.2.2 n member n List.mem_cons_self rfl
    have next : putAll (entries ++ [(n, a)]) rest = entries ++ [(n, a)] ++ rest :=
      ih (by simpa using distinct)
    rw [List.append_assoc, List.singleton_append] at next
    rw [putAll, List.foldl_cons, put_of_notMem new]
    exact next

/-- What is put is named where the name occurs first. -/
theorem names_putAll (entries added : Entries α) :
    (putAll entries added).names =
      entries.names ++ (added.names.removeAll entries.names).eraseDups := by
  induction added generalizing entries with
  | nil => simp [putAll, names, List.removeAll]
  | cons first rest ih =>
    obtain ⟨n, a⟩ := first
    change (putAll (put n a entries) rest).names = _
    have head : names ((n, a) :: rest) = n :: names rest := rfl
    rw [ih, names_put, head, List.cons_removeAll]
    by_cases member : n ∈ entries.names
    · simp [member]
    · have others : (names rest).removeAll (entries.names ++ [n]) =
          ((names rest).removeAll entries.names).filter fun other => !other == n := by
        simp [List.removeAll, List.filter_filter, Bool.and_comm, Bool.beq_eq_decide_eq]
      simp [member, others, List.eraseDups_cons]

theorem putAll_append (entries front back : Entries α) :
    putAll entries (front ++ back) = putAll (putAll entries front) back := List.foldl_append

theorem get?_append (front back : Entries α) :
    get? name (front ++ back) = (get? name front).or (get? name back) := by
  induction front with
  | nil => rfl
  | cons first rest ih =>
    rw [List.cons_append, get?, get?]
    split
    · rfl
    · exact ih

/-- What is found under a name is what was put last under it. -/
theorem get?_putAll (added : Entries α) :
    get? name (putAll entries added) = (get? name added.reverse).or (get? name entries) := by
  induction added generalizing entries with
  | nil => rfl
  | cons first rest ih =>
    obtain ⟨n, b⟩ := first
    change get? name (putAll (put n b entries) rest) = _
    rw [ih, List.reverse_cons, get?_append, Option.or_assoc]
    by_cases same : n = name
    · simp [same, get?]
    · simp [get?_put_other _ _ same, get?, same]

theorem get?_map {β : Type v} (f : String → α → β) (entries : Entries α) :
    get? name (entries.map fun entry => (entry.1, f entry.1 entry.2)) =
      (get? name entries).map (f name) := by
  induction entries with
  | nil => rfl
  | cons first rest ih =>
    rw [List.map_cons, get?, get?]
    split
    · next same => rw [same, Option.map_some]
    · exact ih

end Entries

namespace Keyed

variable {α : Type u} (k : Keyed α) (name : String)

theorem get?_put (a : α) (other : String) :
    (k.put name a).get? other = if name = other then some a else k.get? other := by
  by_cases same : name = other
  · rw [if_pos same, ← same]
    exact Entries.get?_put_self a k.entries
  · rw [if_neg same]
    exact Entries.get?_put_other a k.entries same

theorem get?_erase (other : String) :
    (k.erase name).get? other = if name = other then none else k.get? other :=
  Entries.get?_erase k.distinct other

theorem get?_eq_some_iff {a : α} : k.get? name = some a ↔ (name, a) ∈ k.entries :=
  Entries.get?_eq_some_iff k.distinct

theorem contains_eq_false_iff : k.contains name = false ↔ name ∉ k.names := by
  rw [contains, Option.isSome_eq_false_iff, Option.isNone_iff_eq_none]
  exact Entries.get?_eq_none_iff

theorem entries_put_of_notMem (a : α) (new : name ∉ k.names) :
    (k.put name a).entries = k.entries ++ [(name, a)] := Entries.put_of_notMem new

variable {k}

theorem eq_of_entries {other : Keyed α} (same : k.entries = other.entries) : k = other := by
  cases k
  cases other
  cases same
  rfl

end Keyed

end SqlMapper
