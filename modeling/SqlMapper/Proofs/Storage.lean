import SqlMapper.Storage
import SqlMapper.Proofs.Entries

/-! # Stored values come back

A value comes back from its cell if the declaration of its property is one for values of its kind:
truth values for booleans, numbers for numbers and texts or bytes for texts. Without a declaration
whatever has a cell of its own comes back, and null does under every one.
-/

namespace SqlMapper

/-- Whether a declaration is one for values of such a kind. -/
def Value.fits (declared : Option Property) (v : Value) : Bool :=
  match declared.map Property.kind, v with
  | _, .null => true
  | some .boolean, .bool _ => true
  | some .number, .int _ => true
  | some .number, .float _ => true
  | some .string, .text _ => true
  | some .string, .blob _ => true
  | some .text, .text _ => true
  | some .text, .blob _ => true
  | none, .int _ => true
  | none, .float _ => true
  | none, .text _ => true
  | none, .blob _ => true
  | _, _ => false

theorem restore_store {declared : Option Property} {v : Value} (fits : v.fits declared) :
    restore declared (store declared v) = v := by
  cases declared with
  | none => cases v <;> first | exact absurd fits Bool.false_ne_true | rfl
  | some p =>
    obtain ⟨kind, _, _, _, _⟩ := p
    cases v with
    | bool b => cases kind <;> first | exact absurd fits Bool.false_ne_true | cases b <;> rfl
    | _ => cases kind <;> first | exact absurd fits Bool.false_ne_true | rfl

theorem Keyed.ofList_entries {α : Type u} (k : Keyed α) : Keyed.ofList k.entries = k := by
  obtain ⟨entries, distinct⟩ := k
  have same : Entries.putAll [] entries = entries := Entries.putAll_of_distinct distinct
  simp only [ofList, same]

/-- The record of fitting values is the record of its cells. -/
theorem restoreRow_store {m : Model} {r : Record}
    (fits : ∀ entry ∈ r.entries, entry.2.fits (m.declaration? entry.1)) :
    restoreRow m (r.entries.map fun entry => (entry.1, store (m.declaration? entry.1) entry.2)) =
      r := by
  have back : (r.entries.map fun entry =>
      (entry.1, restore (m.declaration? entry.1) (store (m.declaration? entry.1) entry.2))) =
        r.entries := by
    refine (List.map_congr_left fun entry member => ?_).trans (List.map_id r.entries)
    rw [restore_store (fits entry member), id]
  rw [restoreRow, List.map_map, Function.comp_def, back]
  exact Keyed.ofList_entries r

end SqlMapper
