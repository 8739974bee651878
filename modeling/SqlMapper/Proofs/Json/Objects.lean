import SqlMapper.Proofs.Json.Reading
import SqlMapper.Proofs.Json.Structure

/-! # Objects in any order

What a field of a structure is read from is what stands under its keys, and a structure is accepted
only where at most one value does. So the order of the entries is without meaning: if a structure is
read from an object, it is read from the text of this object with its entries in any order.
-/

namespace SqlMapper.Json

/-! ## Written objects -/

section Objects

variable {entries order : List (String × Json)}

theorem Doc.ofEntries_eq_map (entries : List (String × Json)) :
    ofEntries entries = entries.map fun entry => (entry.1, ofJson entry.2) := by
  induction entries with
  | nil => rfl
  | cons first rest ih => rw [ofEntries, ih, List.map_cons]

theorem entriesNesting_le_iff {depth : Nat} :
    entriesNesting entries ≤ depth ↔ ∀ entry ∈ entries, entry.2.nesting ≤ depth := by
  induction entries with
  | nil => simp [entriesNesting]
  | cons first rest ih => rw [entriesNesting, max_le_iff, ih, List.forall_mem_cons]

theorem isExact_object_perm (perm : order.Perm entries) (exact : (Json.object entries).IsExact) :
    (Json.object order).IsExact :=
  ⟨(perm.map Prod.fst).nodup_iff.mpr exact.1,
    entriesExact_iff.mpr fun entry member =>
      entriesExact_iff.mp exact.2 entry (perm.mem_iff.mp member)⟩

theorem nesting_object_perm (perm : order.Perm entries) {depth : Nat}
    (nested : (Json.object entries).nesting ≤ depth) : (Json.object order).nesting ≤ depth := by
  rw [nesting] at nested ⊢
  have each := entriesNesting_le_iff.mp (Nat.le_refl (entriesNesting entries))
  have all : entriesNesting order ≤ entriesNesting entries :=
    entriesNesting_le_iff.mpr fun entry member => each entry (perm.mem_iff.mp member)
  omega

/-- The text of a document is this document and nothing else. -/
theorem holds_text {j : Json} (exact : j.IsExact) (nested : j.nesting ≤ depthLimit) :
    Holds j.text (Doc.ofJson j) := ⟨[], read_text exact nested, rfl⟩

end Objects

/-! ## Structures -/

section Structures

variable {σ : Type} {fields : List (StructField σ)} {a b : σ}

/-- Of at most one value there is only one order. -/
theorem StructField.Gathers.eq_of_perm {docs others : List (List Doc)}
    (gathers : Gathers fields docs a b) (perm : List.Forall₂ List.Perm others docs) :
    others = docs := by
  induction gathers generalizing others with
  | nil => exact List.forall₂_nil_right_iff.mp perm
  | missing _ ih =>
    obtain ⟨_, _, first, rest, rfl⟩ := List.forall₂_cons_right_iff.mp perm
    rw [first.eq_nil, ih rest]
  | present _ _ ih =>
    obtain ⟨_, _, first, rest, rfl⟩ := List.forall₂_cons_right_iff.mp perm
    rw [List.perm_singleton.mp first, ih rest]

/-- A structure is read from an object in any order. -/
theorem Doc.decodeStruct_perm (independent : fields.Pairwise StructField.Independent)
    {origin : Origin} {name : String} {entries order : Entries Doc} (perm : order.Perm entries)
    (decoded : (Doc.object entries .closed).decodeStruct origin name fields a = .ok b) :
    (Doc.object order .closed).decodeStruct origin name fields a = .ok b := by
  rw [decodeStruct_eq_ok_iff independent] at decoded ⊢
  obtain ⟨docs, provides, complete, gathers⟩ := decoded
  obtain ⟨_, rfl⟩ := provides_object_iff.mp provides
  have same : List.Forall₂ List.Perm ((fields.map StructField.keys).map (standing · order))
      ((fields.map StructField.keys).map (standing · entries)) := by
    rw [List.forall₂_map_left_iff, List.forall₂_map_right_iff, List.forall₂_same]
    exact fun keys _ => perm.filterMap _
  exact ⟨_, gathers.eq_of_perm same ▸ .object order, complete, gathers⟩

/-- What is read from a document is read from its text, in whatever order the entries stand. -/
theorem decodeText_struct_perm (independent : fields.Pairwise StructField.Independent)
    {origin : Origin} {name : String} {entries order : List (String × Json)}
    (exact : (Json.object entries).IsExact) (nested : (Json.object entries).nesting ≤ depthLimit)
    (perm : order.Perm entries)
    (decoded : (Doc.ofJson (.object entries)).decodeStruct origin name fields a = .ok b) :
    decodeText (Doc.decodeStruct origin name fields a) (Json.object order).text = .ok b := by
  have holds := holds_text (isExact_object_perm perm exact) (nesting_object_perm perm nested)
  refine decodeText_eq_ok_iff.mpr ⟨_, holds, ?_⟩
  rw [Doc.ofJson, Doc.ofEntries_eq_map] at decoded ⊢
  exact Doc.decodeStruct_perm independent (perm.map _) decoded

/-- A part is set to what is decoded from its document, and the other parts after it. -/
theorem StructField.Sets.gathers_present {τ : Type} {field : StructField σ}
    {decode : Doc → Decoded τ} {assign : τ → σ → σ} {doc : Doc} {docs : List (List Doc)} {t : τ}
    (sets : field.Sets decode assign) (read : decode doc = .ok t)
    (rest : Gathers fields docs (assign t a) b) :
    Gathers (field :: fields) ([doc] :: docs) a b :=
  .present (sets.read_eq_ok_iff.mpr ⟨t, read, rfl⟩) rest

end Structures

/-- A natural within its bound is read. -/
theorem Doc.decodeOption_int {α : Type} (ofNat : Nat → α) (expected : String) {high n : Nat}
    (small : n ≤ high) :
    (Doc.int n).decodeOption (fun doc => ofNat <$> doc.decodeNat high expected) =
      .ok (some (ofNat n)) := by
  have read : (Doc.int n).decodeNat high expected = .ok n := by
    rw [decodeNat, if_pos ⟨Int.natCast_nonneg n, Int.ofNat_le.mpr small⟩, Int.toNat_natCast]
  rw [decodeOption.eq_def]
  simp only [read, Except.map_ok]

end SqlMapper.Json
