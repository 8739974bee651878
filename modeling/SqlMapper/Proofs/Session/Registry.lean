import Mathlib.Data.List.Nodup
import SqlMapper.Session.Basic

/-! # What is registered

A registry is told by what is found in it under each name. What is found is the model that was
registered last under the name, wherever it stands among the others, and models with different names
are all found again.
-/

namespace SqlMapper

/-- Of two models of one name only the new one is left, and any other stays. -/
theorem find?_insertModel (m : Model) (models : List Model) (name : String) :
    (insertModel m models).find? (·.name == name) =
      if m.name = name then some m else models.find? (·.name == name) := by
  induction models with
  | nil => by_cases same : m.name = name <;> simp [insertModel, same]
  | cons other rest ih =>
    rw [insertModel]
    split
    · by_cases same : m.name = name <;> simp [same]
    · split
      · next replaced => by_cases same : m.name = name <;> simp [same, ← replaced]
      · next differ =>
        rw [List.find?_cons, List.find?_cons, ih]
        by_cases same : m.name = name
        · have passed : (other.name == name) = false := by simpa [← same] using Ne.symm differ
          simp [same, passed]
        · simp [same]

/-- Where no two models have the same name, exactly those of a name are found under it. -/
theorem find?_name_eq_some_iff {models : List Model} (distinct : (models.map Model.name).Nodup)
    {name : String} {m : Model} :
    models.find? (·.name == name) = some m ↔ m ∈ models ∧ m.name = name := by
  constructor
  · intro found
    exact ⟨List.mem_of_find?_eq_some found, by simpa using List.find?_some found⟩
  · rintro ⟨member, rfl⟩
    cases found : models.find? (·.name == m.name) with
    | none =>
      have none := List.find?_eq_none.mp found m member
      simp at none
    | some other =>
      have same : other.name = m.name := by simpa using List.find?_some found
      rw [List.inj_on_of_nodup_map distinct (List.mem_of_find?_eq_some found) member same]

namespace Registry

variable {r : Registry} {m : Model} {name : String}

theorem get?_define (r : Registry) (m : Model) (name : String) :
    (r.define m).get? name = if m.name = name then some m else r.get? name :=
  find?_insertModel m r.models name

theorem nodup_names (r : Registry) : (r.models.map Model.name).Nodup :=
  List.pairwise_map.mpr (r.ascending.imp fun less => Std.ne_of_lt less)

/-- A model is kept under its own name. -/
theorem get?_eq_some_iff : r.get? name = some m ↔ m ∈ r.models ∧ m.name = name :=
  find?_name_eq_some_iff r.nodup_names

/-- Models of different names are found besides what was registered before. -/
theorem get?_defines {models : List Model} (r : Registry)
    (distinct : (models.map Model.name).Nodup) (name : String) :
    (models.foldl define r).get? name = (models.find? (·.name == name)).or (r.get? name) := by
  induction models generalizing r with
  | nil => rfl
  | cons first rest ih =>
    obtain ⟨new, distinct⟩ := List.nodup_cons.mp distinct
    rw [List.foldl_cons, ih _ distinct, get?_define]
    by_cases same : first.name = name
    · have none : rest.find? (·.name == name) = none := by
        refine List.find?_eq_none.mpr fun m member found => new ?_
        rw [same, ← eq_of_beq found]
        exact List.mem_map_of_mem member
      simp [same, none]
    · simp [same]

/-- Whatever order models of different names are registered in, they are what is registered. -/
theorem models_defines_perm {models order : List Model} (perm : order.Perm models)
    (distinct : (models.map Model.name).Nodup) :
    (order.foldl define empty).models.Perm models := by
  have orderDistinct : (order.map Model.name).Nodup := (perm.map Model.name).nodup_iff.mpr distinct
  have same (m : Model) : m ∈ (order.foldl define empty).models ↔ m ∈ order := by
    have nothing : empty.get? m.name = none := rfl
    have registered : m ∈ (order.foldl define empty).models ↔
        (order.foldl define empty).get? m.name = some m := by
      rw [get?_eq_some_iff]
      exact (and_iff_left rfl).symm
    rw [registered, get?_defines empty orderDistinct, nothing, Option.or_none,
      find?_name_eq_some_iff orderDistinct]
    exact and_iff_left rfl
  refine ((List.perm_ext_iff_of_nodup ?_ ?_).mpr same).trans perm
  · exact (nodup_names _).of_map
  · exact orderDistinct.of_map

end Registry

namespace Session

variable {s : Session} {name : String} {m : Model}

theorem model_eq_ok_iff : s.model name = .ok m ↔ m ∈ s.models ∧ m.name = name := by
  rw [models, ← Registry.get?_eq_some_iff, model]
  cases s.registry.get? name <;> simp

theorem registry_defines (s : Session) (models : List Model) :
    (models.foldl define s).registry = models.foldl Registry.define s.registry := by
  induction models generalizing s with
  | nil => rfl
  | cons first rest ih => exact ih (s.define first)

end Session

end SqlMapper
