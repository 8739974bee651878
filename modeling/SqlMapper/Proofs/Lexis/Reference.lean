import SqlMapper.Proofs.Lexis.Written

/-! # Paths and references

A field is named by the names of its path, and it is found again by putting the points back between
them. Among the tokens of a statement a reference is a row of names with points between them.
Tokens that are put together refer to what their parts refer to, since no part starts with a point.
-/

namespace SqlMapper

open Text

/-! ## Paths -/

/-- The field that is named by a path. -/
def Text.ofPath (names : List String) : String :=
  String.ofList (joinWith ['.'] (names.map String.toList))

theorem Text.joinWith_splitAt (c : Char) (cs : List Char) : joinWith [c] (splitAt c cs) = cs := by
  induction cs with
  | nil => rfl
  | cons head cs ih =>
    obtain ⟨piece, pieces, shape⟩ := List.exists_cons_of_ne_nil (splitAt_ne_nil c cs)
    rw [shape] at ih
    by_cases same : head = c
    · rw [splitAt, if_pos same, shape, joinWith, ih, same]
      · rfl
      · simp
    · rw [splitAt, if_neg same, shape]
      cases pieces with
      | nil => simpa [joinWith] using ih
      | cons next pieces => simpa [joinWith] using ih

theorem Text.splitAt_of_notMem {c : Char} {cs : List Char} (plain : c ∉ cs) : splitAt c cs = [cs] := by
  induction cs with
  | nil => rfl
  | cons d cs ih =>
    rw [List.mem_cons, not_or] at plain
    rw [splitAt, if_neg (Ne.symm plain.1), ih plain.2]

theorem Text.splitAt_append {c : Char} {cs : List Char} (plain : c ∉ cs) (rest : List Char) :
    splitAt c (cs ++ c :: rest) = cs :: splitAt c rest := by
  induction cs with
  | nil => simp [splitAt]
  | cons d cs ih =>
    rw [List.mem_cons, not_or] at plain
    rw [List.cons_append, splitAt, if_neg (Ne.symm plain.1), ih plain.2]

/-- Pieces without the separator are found again. -/
theorem Text.splitAt_joinWith {c : Char} {pieces : List (List Char)} (nonempty : pieces ≠ [])
    (plain : ∀ piece ∈ pieces, c ∉ piece) : splitAt c (joinWith [c] pieces) = pieces := by
  induction pieces with
  | nil => exact absurd rfl nonempty
  | cons piece pieces ih =>
    obtain ⟨first, others⟩ := List.forall_mem_cons.mp plain
    cases pieces with
    | nil => exact splitAt_of_notMem first
    | cons next pieces =>
      have inner := ih (List.cons_ne_nil _ _) others
      rw [joinWith, List.append_assoc, List.singleton_append, splitAt_append first, inner]
      exact List.cons_ne_nil _ _

theorem Text.notMem_of_mem_splitAt {c : Char} {cs piece : List Char} (member : piece ∈ splitAt c cs) :
    c ∉ piece := by
  induction cs generalizing piece with
  | nil => simp_all [splitAt]
  | cons d cs ih =>
    obtain ⟨first, others, shape⟩ := List.exists_cons_of_ne_nil (splitAt_ne_nil c cs)
    rw [shape] at ih
    rw [splitAt, shape] at member
    split at member
    · rcases List.mem_cons.mp member with rfl | member
      · exact List.not_mem_nil
      · exact ih member
    · next differ =>
      rcases List.mem_cons.mp member with rfl | member
      · exact List.not_mem_cons_of_ne_of_not_mem (Ne.symm differ) (ih List.mem_cons_self)
      · exact ih (List.mem_cons_of_mem _ member)

@[simp] theorem Text.ofPath_path (field : String) : ofPath (path field) = field := by
  have same : (path field).map String.toList = splitAt '.' field.toList := by
    simp [path, Function.comp_def]
  rw [ofPath, same, joinWith_splitAt, String.ofList_toList]

theorem Text.length_splitAt (c : Char) (cs : List Char) :
    (splitAt c cs).length = cs.count c + 1 := by
  induction cs with
  | nil => rfl
  | cons head cs ih =>
    obtain ⟨piece, pieces, shape⟩ := List.exists_cons_of_ne_nil (splitAt_ne_nil c cs)
    rw [shape] at ih
    by_cases same : head = c
    · rw [splitAt, if_pos same, shape, same, List.count_cons_self, List.length_cons, ih]
    · rw [splitAt, if_neg same, shape, List.count_cons_of_ne same]
      exact ih

theorem Text.length_path (field : String) :
    (path field).length = field.toList.count '.' + 1 := by
  rw [path, List.length_map, length_splitAt]

/-- A path of one name is that of a field without points. -/
theorem Text.path_eq_singleton {field : String} : path field = [field] ↔ '.' ∉ field.toList := by
  constructor
  · intro single
    have length := length_path field
    rw [single, List.length_singleton] at length
    exact List.count_eq_zero.mp (by omega)
  · intro plain
    have length := length_path field
    rw [List.count_eq_zero.mpr plain] at length
    obtain ⟨name, single⟩ := List.length_eq_one_iff.mp length
    have back := ofPath_path field
    rw [single, ofPath, List.map_singleton, joinWith, String.ofList_toList] at back
    rw [single, back]

/-! ## References -/

namespace Token

/-- Puts a name in front of the first reference. -/
def qualify (n : String) : List (List String) → List (List String)
  | [] => [[n]]
  | first :: more => (n :: first) :: more

/-- The references among tokens. -/
def references : List Token → List (List String)
  | [] => []
  | .name n :: .symbol s :: .name k :: rest =>
      if s = "." then qualify n (references (.name k :: rest))
      else [n] :: references (.name k :: rest)
  | .name n :: rest => [n] :: references rest
  | _ :: rest => references rest

/-- A token that is no part of a reference. -/
def separates : Token → Bool
  | .name _ => false
  | .symbol s => s != "."
  | _ => true

/-- Tokens with some references, whatever follows, if it is not a point. -/
structure Refers (ts : List Token) (refs : List (List String)) : Prop where
  starts : ts.head? ≠ some (.symbol ".")
  reads : ∀ rest, rest.head? ≠ some (.symbol ".") →
    references (ts ++ rest) = refs ++ references rest

namespace Refers

variable {ts us : List Token} {refs more : List (List String)}

theorem eq (refers : Refers ts refs) : references ts = refs := by
  simpa [references] using refers.reads [] (by simp)

theorem nil : Refers [] [] := ⟨by simp, fun _ _ => rfl⟩

theorem append (first : Refers ts refs) (second : Refers us more) :
    Refers (ts ++ us) (refs ++ more) where
  starts := by
    cases ts with
    | nil => exact second.starts
    | cons t ts => exact first.starts
  reads rest ends := by
    have next : (us ++ rest).head? ≠ some (.symbol ".") := by
      cases us with
      | nil => exact ends
      | cons u us => exact second.starts
    rw [List.append_assoc, first.reads _ next, second.reads _ ends, List.append_assoc]

theorem of_separates (all : ∀ t ∈ ts, t.separates) : Refers ts [] := by
  induction ts with
  | nil => exact nil
  | cons t ts ih =>
    obtain ⟨first, rest⟩ := List.forall_mem_cons.mp all
    have tail := ih rest
    refine ⟨?_, fun rest ends => ?_⟩
    · rintro ⟨⟩
      exact absurd first (by decide)
    · rw [List.cons_append, ← tail.reads rest ends]
      cases t with
      | name n => cases first
      | _ => rfl

theorem name (n : String) : Refers [.name n] [[n]] where
  starts := by simp
  reads rest ends := by
    cases rest with
    | nil => rfl
    | cons t rest =>
      cases t with
      | symbol s =>
        have other : s ≠ "." := by
          rintro rfl
          exact ends rfl
        cases rest with
        | nil => rfl
        | cons u rest => cases u <;> simp [references, other]
      | _ => rfl

theorem names {names : List String} (nonempty : names ≠ []) :
    Refers (separated "." names) [names] := by
  induction names with
  | nil => exact absurd rfl nonempty
  | cons n names ih =>
    cases names with
    | nil => exact name n
    | cons k names =>
      have tail := ih (by simp)
      obtain ⟨more, shape⟩ : ∃ more, separated "." (k :: names) = .name k :: more := by
        cases names <;> exact ⟨_, rfl⟩
      have whole : separated "." (n :: k :: names) =
          .name n :: .symbol "." :: separated "." (k :: names) := rfl
      refine ⟨by simp [whole], fun rest ends => ?_⟩
      have read := tail.reads rest ends
      rw [whole]
      rw [shape] at read ⊢
      simp only [List.cons_append, references, if_true] at read ⊢
      rw [read]
      rfl

/-- A list refers to what its items refer to. -/
theorem commas {α : Type u} {tokens : α → List Token} {refs : α → List (List String)}
    {items : List α} (each : ∀ a ∈ items, Refers (tokens a) (refs a)) :
    Refers (Token.commas (items.map tokens)) (items.flatMap refs) := by
  induction items with
  | nil => exact nil
  | cons a items ih =>
    obtain ⟨first, rest⟩ := List.forall_mem_cons.mp each
    have tail := ih rest
    cases items with
    | nil => simpa [Token.commas] using first
    | cons next items =>
      have comma : Refers [.symbol ","] [] := of_separates (by decide)
      have joined := first.append (comma.append tail)
      rw [List.map_cons, List.map_cons, Token.commas, List.intercalate_cons_cons, List.append_assoc,
        List.flatMap_cons]
      exact joined

theorem commas_of_separate {α : Type u} {tokens : α → List Token} {items : List α}
    (each : ∀ a ∈ items, Refers (tokens a) []) : Refers (Token.commas (items.map tokens)) [] := by
  have none : items.flatMap (fun _ => ([] : List (List String))) = [] := by simp
  have all := commas each
  rwa [none] at all

end Refers

end Token

namespace Dialect

/-- The references in a text. -/
def references? (d : Dialect) (text : String) : Option (List (List String)) :=
  (d.tokens? text.toList).map Token.references

theorem references?_eq {d : Dialect} {cs : List Char} {ts : List Token} {refs : List (List String)}
    (read : d.tokens? cs = some ts) (refers : Token.Refers ts refs) :
    d.references? (String.ofList cs) = some refs := by
  rw [references?, String.toList_ofList, read, Option.map_some, refers.eq]

end Dialect

end SqlMapper
