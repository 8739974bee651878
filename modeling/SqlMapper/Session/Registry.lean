import SqlMapper.Model.Basic

/-!
# Registered models

A registry keeps models by name in ascending order, one for each name.
-/

namespace SqlMapper

/-- Puts a model in its place, replacing one of the same name. -/
def insertModel (m : Model) : List Model → List Model
  | [] => [m]
  | other :: rest =>
      if m.name < other.name then m :: other :: rest
      else if m.name = other.name then m :: rest
      else other :: insertModel m rest

theorem mem_insertModel {m n : Model} {models : List Model} (member : n ∈ insertModel m models) :
    n = m ∨ n ∈ models := by
  induction models with
  | nil => exact Or.inl (by simpa [insertModel] using member)
  | cons other rest ih =>
      simp only [insertModel] at member
      split at member
      · simpa using member
      · split at member
        · rcases List.mem_cons.1 member with rfl | member
          · exact Or.inl rfl
          · exact Or.inr (List.mem_cons_of_mem _ member)
        · rcases List.mem_cons.1 member with rfl | member
          · exact Or.inr (List.mem_cons_self ..)
          · exact (ih member).imp_right (List.mem_cons_of_mem _)

/-- Names ascend strictly. -/
def Ascending (models : List Model) : Prop := models.Pairwise fun a b => a.name < b.name

theorem Ascending.insertModel (m : Model) {models : List Model} (ascending : Ascending models) :
    Ascending (insertModel m models) := by
  induction models with
  | nil => simp [SqlMapper.insertModel, Ascending]
  | cons other rest ih =>
      have later := List.pairwise_cons.1 ascending
      simp only [SqlMapper.insertModel]
      split
      · next less =>
          refine List.pairwise_cons.2 ⟨fun n member => ?_, ascending⟩
          rcases List.mem_cons.1 member with rfl | member
          · exact less
          · exact String.lt_trans less (later.1 n member)
      · next notLess =>
          split
          · next same =>
              exact List.pairwise_cons.2 ⟨fun n member => same ▸ later.1 n member, later.2⟩
          · next differ =>
              have greater : other.name < m.name :=
                Std.lt_of_le_of_ne (String.not_lt.1 notLess) (Ne.symm differ)
              refine List.pairwise_cons.2 ⟨fun n member => ?_, ih later.2⟩
              rcases mem_insertModel member with rfl | member
              · exact greater
              · exact later.1 n member

structure Registry where
  models : List Model
  ascending : Ascending models

namespace Registry

def empty : Registry := ⟨[], List.Pairwise.nil⟩

def get? (r : Registry) (name : String) : Option Model := r.models.find? (·.name == name)

/-- Registers a model, replacing one of the same name. -/
def define (r : Registry) (m : Model) : Registry :=
  ⟨insertModel m r.models, r.ascending.insertModel m⟩

end Registry

end SqlMapper
