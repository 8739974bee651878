import Mathlib.Data.List.Forall2

/-! # Steps that can fail

When a sequence of steps goes through, and with what result.
-/

namespace SqlMapper

/-- A sequence has a result if its first part has one, from which the second has it. -/
theorem bind_eq_ok_iff {ε α β : Type} {first : Except ε α} {next : α → Except ε β} {b : β} :
    first >>= next = .ok b ↔ ∃ a, first = .ok a ∧ next a = .ok b := by
  cases first <;> simp [bind, Except.bind]

theorem map_eq_ok_iff {ε α β : Type} {f : α → β} {first : Except ε α} {b : β} :
    f <$> first = .ok b ↔ ∃ a, first = .ok a ∧ f a = b := by
  cases first <;> simp [Functor.map, Except.map]

theorem toOption_eq_some_iff {ε α : Type} {first : Except ε α} {a : α} :
    first.toOption = some a ↔ first = .ok a := by
  cases first <;> simp [Except.toOption]

/-- What is put together from two results is some `c` only where they are `a` and `b`. -/
theorem both_eq_ok_iff {ε α β γ : Type} {first : Except ε α} {second : Except ε β}
    {f : α → β → γ} {a : α} {b : β} {c : γ} (only : ∀ i j, f i j = c ↔ i = a ∧ j = b) :
    (do let i ← first; let j ← second; .ok (f i j)) = .ok c ↔ first = .ok a ∧ second = .ok b := by
  simp only [bind_eq_ok_iff, Except.ok.injEq, only]
  constructor
  · rintro ⟨_, one, _, two, rfl, rfl⟩
    exact ⟨one, two⟩
  · rintro ⟨one, two⟩
    exact ⟨a, one, b, two, rfl, rfl⟩

/-- Every element has a result exactly if the row of them has. -/
theorem mapM_eq_ok_iff {ε α β : Type} {f : α → Except ε β} {items : List α} {found : List β} :
    items.mapM f = .ok found ↔ List.Forall₂ (fun a b => f a = .ok b) items found := by
  induction items generalizing found with
  | nil =>
    rw [List.forall₂_nil_left_iff]
    exact ⟨fun same => (Except.ok.inj same).symm, fun same => same ▸ rfl⟩
  | cons a items ih =>
    constructor
    · intro mapped
      rw [List.mapM_cons] at mapped
      obtain ⟨b, first, mapped⟩ := bind_eq_ok_iff.mp mapped
      obtain ⟨more, rest, mapped⟩ := bind_eq_ok_iff.mp mapped
      cases mapped
      exact .cons first (ih.mp rest)
    · rintro (_ | ⟨first, rest⟩)
      rw [List.mapM_cons]
      exact bind_eq_ok_iff.mpr ⟨_, first, bind_eq_ok_iff.mpr ⟨_, ih.mpr rest, rfl⟩⟩

/-- There is a row of partners exactly if every element has a partner. -/
theorem exists_forall₂_iff {α β : Type} {R : α → β → Prop} {items : List α} :
    (∃ found, List.Forall₂ R items found) ↔ ∀ a ∈ items, ∃ b, R a b := by
  induction items with
  | nil => exact ⟨nofun, fun _ => ⟨[], .nil⟩⟩
  | cons a items ih =>
    rw [List.forall_mem_cons, ← ih]
    constructor
    · rintro ⟨_, _ | ⟨first, rest⟩⟩
      exact ⟨⟨_, first⟩, _, rest⟩
    · rintro ⟨⟨b, first⟩, found, rest⟩
      exact ⟨b :: found, .cons first rest⟩

/-- Whether a run goes through depends on its steps alone if none of these depends on the state. -/
theorem foldlM_ok_iff {ε α β : Type} {step : β → α → Except ε β} {accepted : α → Prop}
    (each : ∀ b a, (∃ next, step b a = .ok next) ↔ accepted a) (items : List α) (start : β) :
    (∃ last, items.foldlM step start = .ok last) ↔ ∀ a ∈ items, accepted a := by
  induction items generalizing start with
  | nil => exact iff_of_true ⟨start, rfl⟩ nofun
  | cons a items ih =>
    rw [List.forall_mem_cons, ← each start a]
    simp only [List.foldlM_cons, bind_eq_ok_iff]
    constructor
    · rintro ⟨last, next, first, rest⟩
      exact ⟨⟨next, first⟩, (ih next).mp ⟨last, rest⟩⟩
    · rintro ⟨⟨next, first⟩, accepted⟩
      obtain ⟨last, rest⟩ := (ih next).mpr accepted
      exact ⟨last, next, first, rest⟩

end SqlMapper
