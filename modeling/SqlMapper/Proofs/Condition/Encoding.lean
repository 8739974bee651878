import Mathlib.Data.List.Nodup
import SqlMapper.Proofs.Condition.Refusal
import SqlMapper.Proofs.Json.Reading
import SqlMapper.Proofs.Text.Digits

/-! # Criteria and their documents

A document is read as criteria exactly if it follows the grammar: null, or an object in which a list
stands under the key of the branches, and only there, with documents of the same kind in it.
Criteria with plain values can be written as such documents, with the branches anywhere among the
fields, and each of these is read back as the criteria. Both are shown by recursion on the nesting,
with what has been read of an object so far as a parameter.
-/

namespace SqlMapper

/-! ## Which documents are criteria -/

namespace Criteria

mutual

/-- A document that says what rows are wanted. -/
inductive IsDocument : Json → Prop
  | null : IsDocument .null
  | object {entries} (each : ∀ entry ∈ entries, IsEntry entry.1 entry.2) :
      IsDocument (.object entries)

/-- The branches in a list, or a field with anything but a list. -/
inductive IsEntry : String → Json → Prop
  | branches {items} (each : ∀ item ∈ items, IsDocument item) : IsEntry branchesKey (.array items)
  | field {key j} (other : key ≠ branchesKey) (single : ∀ items, j ≠ .array items) : IsEntry key j

end

theorem isDocument_object {entries : List (String × Json)} :
    IsDocument (.object entries) ↔ ∀ entry ∈ entries, IsEntry entry.1 entry.2 := by
  constructor
  · rintro (_ | ⟨each⟩)
    exact each
  · exact .object

theorem isEntry_branches {items : List Json} :
    IsEntry branchesKey (.array items) ↔ ∀ item ∈ items, IsDocument item := by
  constructor
  · rintro (⟨each⟩ | ⟨other, _⟩)
    · exact each
    · exact absurd rfl other
  · exact .branches

theorem isEntry_field {key : String} {j : Json} (other : key ≠ branchesKey) :
    IsEntry key j ↔ ∀ items, j ≠ .array items := by
  constructor
  · rintro (_ | ⟨_, single⟩)
    · exact absurd rfl other
    · exact single
  · exact .field other

end Criteria

/-- Only a list says nothing about a field. -/
theorem Test.ofJson_refuses (j : Json) : Refuses (Test.ofJson j) (¬ ∀ items, j ≠ .array items) := by
  cases j with
  | array items => exact .refused _ rfl fun single => single items rfl
  | _ => exact .accepted _ rfl (not_not_intro nofun)

namespace Criteria

/-- What follows the test of a field is read with the test set. -/
theorem ofEntries_field {c : Criteria} {key : String} (j : Json) (rest : List (String × Json))
    (other : key ≠ branchesKey) :
    ofEntries c ((key, j) :: rest) =
      Test.ofJson j >>= fun test => ofEntries (c.set key test) rest := by
  cases j <;> rw [ofEntries, if_neg other] <;> nofun

theorem ofEntries_single {c : Criteria} {j : Json} (rest : List (String × Json))
    (single : ∀ items, j ≠ .array items) :
    ofEntries c ((branchesKey, j) :: rest) = invalid .orNotAList := by
  cases j with
  | array items => exact absurd rfl (single items)
  | _ => rw [ofEntries, if_pos rfl]; nofun

mutual

theorem ofJson_refuses : (j : Json) → Refuses (ofJson j) (¬ IsDocument j)
  | .null => .accepted _ (by rw [ofJson]) (not_not_intro .null)
  | .object entries => by
    rw [ofJson]
    exact (ofEntries_refuses empty entries).congr (not_congr isDocument_object.symm)
  | .bool _ | .int _ | .float _ | .string _ | .array _ =>
    .refused _ (by rw [ofJson] <;> nofun) nofun

theorem ofEntries_refuses (c : Criteria) : (entries : List (String × Json)) →
    Refuses (ofEntries c entries) (¬ ∀ entry ∈ entries, IsEntry entry.1 entry.2)
  | [] => (Refuses.ok c).congr (by simp)
  | (key, j) :: rest => by
    rw [List.forall_mem_cons, not_and_or]
    by_cases own : key = branchesKey
    · subst own
      cases j with
      | array items =>
        rw [ofEntries, if_pos rfl]
        have parts := (ofItems_refuses items).bind fun branches =>
          ofEntries_refuses (c.withBranches branches) rest
        exact parts.congr (or_congr_left (not_congr isEntry_branches.symm))
      | _ =>
        refine .refused _ (ofEntries_single rest nofun) (.inl ?_)
        rintro (_ | ⟨other, _⟩)
        exact other rfl
    · rw [ofEntries_field j rest own]
      have parts := (Test.ofJson_refuses j).bind fun test => ofEntries_refuses (c.set key test) rest
      exact parts.congr (or_congr_left (not_congr (isEntry_field own).symm))

theorem ofItems_refuses : (items : List Json) →
    Refuses (ofItems items) (¬ ∀ item ∈ items, IsDocument item)
  | [] => (Refuses.ok []).congr (by simp)
  | item :: rest => by
    rw [List.forall_mem_cons, not_and_or, ofItems]
    have parts := (ofJson_refuses item).bind fun branch => (ofItems_refuses rest).bind fun more =>
      Refuses.ok (branch :: more)
    exact parts.congr (by rw [or_false])

end

end Criteria

/-! ## Plain values and their documents -/

/-- A value that is a scalar of a document. -/
def Value.IsEncodable : Value → Prop
  | .null | .bool _ | .int _ | .text _ => True
  | _ => False

def Operand.IsEncodable : Operand → Prop
  | .value v => v.IsEncodable
  | .list vs => ∀ v ∈ vs, v.IsEncodable

def Operand.toJson : Operand → Json
  | .value v => v.toJson
  | .list vs => .array (vs.map Value.toJson)

/-- The key of an operator, of two the first one. -/
def Operator.key : Operator → String
  | .gt => "gt"
  | .gte => "gte"
  | .lt => "lt"
  | .lte => "lte"
  | .eq => "eq"
  | .neq => "neq"
  | .between => "between"
  | .isIn => "in"
  | .notIn => "nin"
  | .like => "like"
  | .notLike => "nlike"
  | .regex => "regex"
  | .other key => key

/-- A comparison by its token has no key of another operator. -/
def Operator.IsEncodable : Operator → Prop
  | .other key => key ∉ named.names
  | _ => True

namespace Test

/-- A test for one truth value, integer or text, where no text is a pattern, or for operators of
which none occurs twice. -/
inductive IsEncodable : Test → Prop
  | isNull : IsEncodable .isNull
  | bool (b : Bool) : IsEncodable (.equals (.bool b))
  | int (n : Int64) : IsEncodable (.equals (.int n))
  | text {s} (unslashed : ∀ pattern, ¬ IsSlashed s pattern) : IsEncodable (.equals (.text s))
  | regex (pattern : String) : IsEncodable (.regex pattern)
  | operators {ops} (distinct : (ops.map Prod.fst).Nodup)
      (each : ∀ op ∈ ops, op.1.IsEncodable ∧ op.2.IsEncodable) : IsEncodable (.operators ops)

def toJson : Test → Json
  | .isNull => .null
  | .equals v => v.toJson
  | .regex pattern => .string ("/" ++ pattern ++ "/")
  | .operators ops => .object (ops.map fun op => (op.1.key, op.2.toJson))

end Test

section Values

variable {v : Value} {operand : Operand} {op other : Operator} {t : Test}

theorem Value.ofJson_toJson (plain : v.IsEncodable) : ofJson v.toJson = v := by
  cases v with
  | int n =>
    have read : toInt64? n.toInt = some n := Text.toInt64?_eq_some_iff.mpr rfl
    rw [toJson, ofJson, read]
  | null | bool | text => rfl
  | _ => exact absurd plain id

theorem Value.isExact_toJson (plain : v.IsEncodable) : v.toJson.IsExact := by
  cases v with
  | int n =>
    have low := n.le_toInt
    have high := n.toInt_lt
    exact ⟨by simpa using low, by omega⟩
  | null | bool | text => trivial
  | _ => exact absurd plain id

theorem Value.toJson_ne_array (plain : v.IsEncodable) (items : List Json) :
    v.toJson ≠ .array items := by
  cases v with
  | null | bool | int | text => nofun
  | _ => exact absurd plain id

theorem Operand.ofJson_toJson (plain : operand.IsEncodable) : ofJson operand.toJson = operand := by
  cases operand with
  | value v =>
    rw [toJson, ofJson, Value.ofJson_toJson plain]
    exact Value.toJson_ne_array plain
  | list vs =>
    have same : vs.map (fun v => Value.ofJson v.toJson) = vs.map id :=
      List.map_congr_left fun v member => Value.ofJson_toJson (plain v member)
    rw [toJson, ofJson, List.map_map, Function.comp_def, same, List.map_id]

theorem Operator.ofKey_key (plain : op.IsEncodable) : ofKey op.key = op := by
  cases op with
  | other key => rw [Operator.key, ofKey, Entries.get?_eq_none_iff.mpr plain, Option.getD_none]
  | _ => rfl

theorem Operator.key_inj (plain : op.IsEncodable) (plain' : other.IsEncodable)
    (same : op.key = other.key) : op = other := by
  rw [← ofKey_key plain, ← ofKey_key plain', same]

theorem isSlashed_slashes (pattern : String) : IsSlashed ("/" ++ pattern ++ "/") pattern :=
  ⟨[], List.not_mem_nil, by simp⟩

theorem slashedPattern?_eq_none {s : String} :
    slashedPattern? s = none ↔ ∀ pattern, ¬ IsSlashed s pattern := by
  simp only [Option.eq_none_iff_forall_ne_some, ne_eq, slashedPattern?_eq_some]

theorem Test.ofJson_toJson (plain : t.IsEncodable) : ofJson t.toJson = .ok t := by
  cases plain with
  | isNull | bool => rfl
  | int n =>
    have read : Value.ofJson (.int n.toInt) = .int n := Value.ofJson_toJson (v := .int n) trivial
    exact congrArg (fun v => Except.ok (equals v)) read
  | text unslashed => rw [toJson, Value.toJson, ofJson, slashedPattern?_eq_none.mpr unslashed]
  | regex pattern =>
    rw [toJson, ofJson, slashedPattern?_eq_some.mpr (isSlashed_slashes pattern)]
  | @operators ops _ each =>
    have same : ops.map (fun op => (Operator.ofKey op.1.key, Operand.ofJson op.2.toJson)) =
        ops.map id := by
      refine List.map_congr_left fun op member => ?_
      rw [Operator.ofKey_key (each op member).1, Operand.ofJson_toJson (each op member).2]
      rfl
    rw [toJson, ofJson, List.map_map, Function.comp_def, same, List.map_id]

theorem Operand.isExact_toJson (plain : operand.IsEncodable) : operand.toJson.IsExact := by
  cases operand with
  | value v => exact Value.isExact_toJson plain
  | list vs =>
    rw [toJson, Json.IsExact, Json.allExact_iff, List.forall_mem_map]
    exact fun v member => Value.isExact_toJson (plain v member)

/-- No two operators are written under one key. -/
theorem Test.IsEncodable.isExact_toJson (plain : t.IsEncodable) : t.toJson.IsExact := by
  cases plain with
  | isNull | bool | text | regex => trivial
  | int n => exact Value.isExact_toJson (v := .int n) trivial
  | @operators ops distinct each =>
    rw [toJson, Json.IsExact, Json.entriesExact_iff, List.forall_mem_map, Entries.names,
      List.map_map]
    refine ⟨?_, fun op member => Operand.isExact_toJson (each op member).2⟩
    have keys : ops.map (Prod.fst ∘ fun op => (op.1.key, op.2.toJson)) =
        (ops.map Prod.fst).map Operator.key := by
      rw [List.map_map]
      rfl
    rw [keys]
    refine List.Nodup.map_on (fun op member other further => ?_) distinct
    obtain ⟨_, listed, rfl⟩ := List.mem_map.mp member
    obtain ⟨_, listed', rfl⟩ := List.mem_map.mp further
    exact Operator.key_inj (each _ listed).1 (each _ listed').1

end Values

/-! ## Criteria and what is written of them -/

namespace Criteria

/-- Every field is tested once, by a plain test, and none has the name of the branches, at any
depth. -/
inductive IsEncodable : Criteria → Prop
  | mk {tests branches} (distinct : (Entries.names tests).Nodup)
      (fields : ∀ t ∈ tests, t.1 ≠ branchesKey ∧ t.2.IsEncodable)
      (each : ∀ branch ∈ branches, IsEncodable branch) : IsEncodable ⟨tests, branches⟩

/-- The entries of fields. -/
def testEntries (tests : List (String × Test)) : List (String × Json) :=
  tests.map fun t => (t.1, t.2.toJson)

mutual

/-- An object has an entry for each field in order, and the branches before, between or behind
these. If there are none, their key may be missing. -/
inductive Encodes : Criteria → Json → Prop
  | tests (tests) : Encodes ⟨tests, []⟩ (.object (testEntries tests))
  | branches {before after branches items} (each : EncodeAll branches items) :
      Encodes ⟨before ++ after, branches⟩
        (.object (testEntries before ++ (branchesKey, .array items) :: testEntries after))

inductive EncodeAll : List Criteria → List Json → Prop
  | nil : EncodeAll [] []
  | cons {branch item branches items} (first : Encodes branch item)
      (rest : EncodeAll branches items) : EncodeAll (branch :: branches) (item :: items)

end

section Documents

variable {c : Criteria} {tests before after : List (String × Test)} {branches : List Criteria}
  {j : Json} {items : List Json}

theorem IsEncodable.parts (plain : IsEncodable ⟨tests, branches⟩) :
    (Entries.names tests).Nodup ∧ (∀ t ∈ tests, t.1 ≠ branchesKey ∧ t.2.IsEncodable) ∧
      ∀ branch ∈ branches, branch.IsEncodable := by
  obtain ⟨distinct, fields, each⟩ := plain
  exact ⟨distinct, fields, each⟩

theorem names_testEntries (tests : List (String × Test)) :
    Entries.names (testEntries tests) = Entries.names tests := by
  simp [Entries.names, testEntries]

theorem isExact_testEntries (fields : ∀ t ∈ tests, t.1 ≠ branchesKey ∧ t.2.IsEncodable) :
    ∀ entry ∈ testEntries tests, entry.2.IsExact :=
  List.forall_mem_map.mpr fun t member => (fields t member).2.isExact_toJson

/-- The entries of new fields add their tests. -/
theorem ofEntries_testEntries (distinct : (Entries.names (c.tests ++ tests)).Nodup)
    (fields : ∀ t ∈ tests, t.1 ≠ branchesKey ∧ t.2.IsEncodable) (rest : List (String × Json)) :
    ofEntries c (testEntries tests ++ rest) =
      ofEntries { c with tests := c.tests ++ tests } rest := by
  induction tests generalizing c with
  | nil =>
    obtain ⟨known, branches⟩ := c
    simp [testEntries]
  | cons t tests ih =>
    obtain ⟨⟨other, plain⟩, fields⟩ := List.forall_mem_cons.mp fields
    have new : t.1 ∉ Entries.names c.tests := by
      rw [Entries.names, List.map_append, List.nodup_append] at distinct
      exact fun member => distinct.2.2 _ member _ List.mem_cons_self rfl
    have added : c.set t.1 t.2 = { c with tests := c.tests ++ [t] } := by
      rw [set, Entries.put_of_notMem new]
    have step : ofEntries c (testEntries (t :: tests) ++ rest) =
        ofEntries (c.set t.1 t.2) (testEntries tests ++ rest) := by
      rw [testEntries, List.map_cons, List.cons_append, ofEntries_field _ _ other,
        Test.ofJson_toJson plain]
      rfl
    rw [step, added, ih (by simpa using distinct) fields]
    simp

mutual

theorem ofJson_encoded : (c : Criteria) → {j : Json} → c.IsEncodable → Encodes c j →
    ofJson j = .ok c
  | ⟨tests, branches⟩, j, plain, encoded => by
    obtain ⟨distinct, fields, each⟩ := plain.parts
    cases encoded with
    | tests =>
      have read := ofEntries_testEntries (c := empty) distinct fields []
      rw [List.append_nil] at read
      rw [ofJson, read, ofEntries]
      rfl
    | @branches before after _ items encoded =>
      have apart : (Entries.names before).Nodup := by
        rw [Entries.names, List.map_append, List.nodup_append] at distinct
        exact distinct.1
      obtain ⟨front, back⟩ := List.forall_mem_append.mp fields
      rw [ofJson, ofEntries_testEntries (c := empty) apart front, ofEntries, if_pos rfl,
        ofItems_encoded branches each encoded]
      have read := ofEntries_testEntries (c := ⟨before, branches⟩) distinct back []
      rw [List.append_nil, ofEntries] at read
      exact read

theorem ofItems_encoded : (branches : List Criteria) → {items : List Json} →
    (∀ branch ∈ branches, branch.IsEncodable) → EncodeAll branches items →
      ofItems items = .ok branches
  | [], _, _, encoded => by
    cases encoded
    rw [ofItems]
  | branch :: rest, _, each, encoded => by
    obtain ⟨plain, each⟩ := List.forall_mem_cons.mp each
    cases encoded with
    | cons first others =>
      rw [ofItems, ofJson_encoded branch plain first, ofItems_encoded rest each others]
      rfl

end

mutual

/-- What is written of plain criteria is a document, with no key twice. -/
theorem isExact_encoded : (c : Criteria) → {j : Json} → c.IsEncodable → Encodes c j → j.IsExact
  | ⟨tests, branches⟩, j, plain, encoded => by
    obtain ⟨distinct, fields, each⟩ := plain.parts
    cases encoded with
    | tests =>
      rw [Json.IsExact, names_testEntries]
      exact ⟨distinct, Json.entriesExact_iff.mpr (isExact_testEntries fields)⟩
    | @branches before after _ items encoded =>
      obtain ⟨front, back⟩ := List.forall_mem_append.mp fields
      have own : branchesKey ∉ Entries.names (before ++ after) := by
        intro member
        obtain ⟨t, tested, same⟩ := List.mem_map.mp member
        exact (fields t tested).1 same
      have names : Entries.names (testEntries before ++ (branchesKey, .array items) ::
          testEntries after) = Entries.names before ++ branchesKey :: Entries.names after := by
        rw [← names_testEntries before, ← names_testEntries after, Entries.names, List.map_append]
        rfl
      rw [Json.IsExact, Json.entriesExact_iff, names, List.nodup_middle, List.forall_mem_append,
        List.forall_mem_cons]
      refine ⟨?_, isExact_testEntries front, allExact_encoded branches each encoded,
        isExact_testEntries back⟩
      rw [Entries.names, List.map_append] at own distinct
      exact List.nodup_cons.mpr ⟨own, distinct⟩

theorem allExact_encoded : (branches : List Criteria) → {items : List Json} →
    (∀ branch ∈ branches, branch.IsEncodable) → EncodeAll branches items → Json.AllExact items
  | [], _, _, encoded => by
    cases encoded
    trivial
  | branch :: rest, _, each, encoded => by
    obtain ⟨plain, each⟩ := List.forall_mem_cons.mp each
    cases encoded with
    | cons first others =>
      exact ⟨isExact_encoded branch plain first, allExact_encoded rest each others⟩

end

mutual

/-- There is a document of any criteria. -/
theorem exists_encoded : (c : Criteria) → ∃ j, Encodes c j
  | ⟨tests, branches⟩ => by
    obtain ⟨items, each⟩ := exists_encodedAll branches
    have whole : Encodes ⟨[] ++ tests, branches⟩ _ := .branches each
    exact ⟨_, whole⟩

theorem exists_encodedAll : (branches : List Criteria) → ∃ items, EncodeAll branches items
  | [] => ⟨[], .nil⟩
  | branch :: rest => by
    obtain ⟨item, first⟩ := exists_encoded branch
    obtain ⟨items, others⟩ := exists_encodedAll rest
    exact ⟨item :: items, .cons first others⟩

end

/-- Criteria are read exactly from the documents of the grammar, and every other document is an
invalid condition. Criteria with plain values are read back from every document that encodes them,
of which there is one, and none of these has a key twice. -/
theorem documents_read_back :
    (∀ j, ((∃ c, ofJson j = .ok c) ↔ IsDocument j) ∧
      ∀ e, ofJson j = .error e → ∃ cause, e = .invalidCondition cause) ∧
    ∀ c : Criteria, c.IsEncodable →
      (∃ j, Encodes c j) ∧ ∀ j, Encodes c j → j.IsExact ∧ ofJson j = .ok c := by
  constructor
  · intro j
    have refuses := ofJson_refuses j
    exact ⟨refuses.ok_iff.trans not_not, fun e error => refuses.cause error⟩
  · intro c plain
    exact ⟨exists_encoded c, fun j encoded =>
      ⟨isExact_encoded c plain encoded, ofJson_encoded c plain encoded⟩⟩

/-- Branches between two fields, one with branches of its own before its field, the other without
tests. The pattern has a slash in it, and one operator compares by its token. -/
theorem documents_read_back_nested :
    ofJson (.object [("name", .string "/^a/b/"),
      ("or", .array [.object [("or", .array [.object [("x", .null)]]),
        ("age", .object [("in", .array [.int 1, .null]), ("<>", .string "/9/")])], .object []]),
      ("path", .string "/home")]) =
    .ok ⟨[("name", .regex "^a/b"), ("path", .equals (.text "/home"))],
      [⟨[("age", .operators [(.isIn, .list [.int 1, .null]), (.other "<>", .value (.text "/9/"))])],
        [⟨[("x", .isNull)], []⟩]⟩, empty]⟩ := by
  refine (documents_read_back.2 _ ?plain).2 _ ?encoded |>.2
  case plain =>
    have blank : empty.IsEncodable := .mk (by decide) (by simp) (by simp)
    have innermost : IsEncodable ⟨[("x", .isNull)], []⟩ :=
      .mk (by decide) (by simpa [branchesKey] using Test.IsEncodable.isNull) nofun
    have operators : Test.IsEncodable (.operators
        [(.isIn, .list [.int 1, .null]), (.other "<>", .value (.text "/9/"))]) := by
      refine .operators (by decide) ?_
      simp [Operator.IsEncodable, Operand.IsEncodable, Value.IsEncodable, Operator.named,
        Entries.names]
    have single : slashedPattern? "/home" = none := by decide
    have home : Test.IsEncodable (.equals (.text "/home")) :=
      .text (slashedPattern?_eq_none.mp single)
    have inner : IsEncodable ⟨[("age", _)], [⟨[("x", .isNull)], []⟩]⟩ :=
      .mk (by simp [Entries.names]) (by simpa [branchesKey] using operators)
        (by simpa using innermost)
    refine .mk (by decide) ?_ (by simpa using And.intro inner blank)
    simpa [branchesKey] using And.intro (Test.IsEncodable.regex "^a/b") home
  case encoded =>
    have inner (t : Test) : Encodes ⟨[("age", t)], [⟨[("x", .isNull)], []⟩]⟩
        (.object [("or", .array [.object [("x", .null)]]), ("age", t.toJson)]) :=
      @Encodes.branches [] _ _ _ (.cons (.tests _) .nil)
    exact @Encodes.branches [_] _ _ _ (.cons (inner _) (.cons (.tests []) .nil))

end Documents

end Criteria

end SqlMapper
