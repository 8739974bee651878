import Mathlib.Data.List.Basic
import Mathlib.Data.List.Induction
import SqlMapper.Proofs.Entries
import SqlMapper.Query.Criteria

/-! # Criteria built call by call

Criteria can be put together by calls, one after the other. A call that is about a field changes the
test of this field and no other one, either replacing it or adding an operator to it, and any other
call adds a branch. So the test of a field is told by the calls about it alone: it is the last one
that was set as a whole, with the operators that were added since. Calls about different fields can
change places; then the fields change places too, and nothing else.
-/

namespace SqlMapper

namespace Criteria

/-! ## Calls -/

/-- A call that makes new criteria of given ones. -/
inductive Call : Type 1
  | equals {α : Type} [ToValue α] (field : String) (a : α)
  | neq {α : Type} [ToValue α] (field : String) (a : α)
  | gt {α : Type} [ToValue α] (field : String) (a : α)
  | gte {α : Type} [ToValue α] (field : String) (a : α)
  | lt {α : Type} [ToValue α] (field : String) (a : α)
  | lte {α : Type} [ToValue α] (field : String) (a : α)
  | isNull (field : String)
  | regex (field pattern : String)
  | like (field pattern : String)
  | notLike (field pattern : String)
  | between {α : Type} [ToValue α] (field : String) (low high : α)
  | isIn {α : Type} [ToValue α] (field : String) (members : List α)
  | notIn {α : Type} [ToValue α] (field : String) (members : List α)
  | addOperator (field : String) (op : Operator) (operand : Operand)
  | set (field : String) (test : Test)
  | or (branch : Criteria)

/-- The criteria after a call. -/
def call (c : Criteria) : Call → Criteria
  | @Call.equals _ _ field a => c.equals field a
  | @Call.neq _ _ field a => c.neq field a
  | @Call.gt _ _ field a => c.gt field a
  | @Call.gte _ _ field a => c.gte field a
  | @Call.lt _ _ field a => c.lt field a
  | @Call.lte _ _ field a => c.lte field a
  | .isNull field => c.isNull field
  | .regex field pattern => c.regex field pattern
  | .like field pattern => c.like field pattern
  | .notLike field pattern => c.notLike field pattern
  | @Call.between _ _ field low high => c.between field low high
  | @Call.isIn _ _ field members => c.isIn field members
  | @Call.notIn _ _ field members => c.notIn field members
  | .addOperator field op operand => c.addOperator field op operand
  | .set field test => c.set field test
  | .or branch => c.or branch

/-- The criteria after some calls from empty ones. -/
def build (calls : List Call) : Criteria := calls.foldl call empty

/-! ## What a call changes -/

/-- What is done to the test of a field. -/
inductive Effect
  | whole (test : Test)
  | operator (op : Operator) (operand : Operand)

/-- The test after an effect. An operator comes behind those there are. -/
def Effect.testAfter (before : Option Test) : Effect → Test
  | .whole test => test
  | .operator op operand =>
      match before with
      | some (.operators ops) => .operators (ops ++ [(op, operand)])
      | _ => .operators [(op, operand)]

/-- What is done to criteria. -/
inductive Change
  | test (field : String) (effect : Effect)
  | branch (c : Criteria)

namespace Call

def change : Call → Change
  | @equals _ _ field a => .test field (.whole (match toValue a with
      | .null => .isNull
      | v => .equals v))
  | @neq _ _ field a => .test field (.operator .neq (.value (toValue a)))
  | @gt _ _ field a => .test field (.operator .gt (.value (toValue a)))
  | @gte _ _ field a => .test field (.operator .gte (.value (toValue a)))
  | @lt _ _ field a => .test field (.operator .lt (.value (toValue a)))
  | @lte _ _ field a => .test field (.operator .lte (.value (toValue a)))
  | .isNull field => .test field (.whole .isNull)
  | .regex field pattern => .test field (.whole (.regex pattern))
  | .like field pattern => .test field (.operator .like (.value (.text pattern)))
  | .notLike field pattern => .test field (.operator .notLike (.value (.text pattern)))
  | @between _ _ field low high =>
      .test field (.operator .between (.list [toValue low, toValue high]))
  | @isIn _ _ field members => .test field (.operator .isIn (.list (members.map toValue)))
  | @notIn _ _ field members => .test field (.operator .notIn (.list (members.map toValue)))
  | .addOperator field op operand => .test field (.operator op operand)
  | .set field test => .test field (.whole test)
  | .or branch => .branch branch

/-- The field that a call is about. -/
def field? (call : Call) : Option String :=
  match call.change with
  | .test field _ => some field
  | .branch _ => none

/-- What a call does to the test of a field. -/
def effectOn? (field : String) (call : Call) : Option Effect :=
  match call.change with
  | .test other effect => if other = field then some effect else none
  | .branch _ => none

/-- The branch that a call adds. -/
def branch? (call : Call) : Option Criteria :=
  match call.change with
  | .test .. => none
  | .branch c => some c

end Call

section Steps

variable {c : Criteria} {field : String} {calls : List Call} {one : Call}

/-- A call changes one test, or adds one branch. -/
theorem call_eq (c : Criteria) (one : Call) :
    c.call one = match one.change with
      | .test field effect => c.set field (effect.testAfter (Entries.get? field c.tests))
      | .branch branch => c.or branch := by
  have added (field : String) (op : Operator) (operand : Operand) : c.addOperator field op operand =
      c.set field ((Effect.operator op operand).testAfter (Entries.get? field c.tests)) := by
    rw [addOperator]
    rcases Entries.get? field c.tests with _ | ⟨_ | _ | _ | _⟩ <;> rfl
  cases one with
  | equals field a =>
    rw [call, equals, Call.change]
    cases toValue a <;> rfl
  | isNull | regex | set | or => rfl
  | _ => exact added _ _ _

theorem effectOn?_eq_none (other : one.field? ≠ some field) : one.effectOn? field = none := by
  rw [Call.field?] at other
  rw [Call.effectOn?]
  split at other
  · exact if_neg fun same => other (congrArg some same)
  · rfl

theorem branch?_eq_none (about : one.field? ≠ none) : one.branch? = none := by
  rw [Call.field?] at about
  rw [Call.branch?]
  split at about
  · rfl
  · exact absurd rfl about

/-- What is tested of a field changes with the calls about it only. -/
theorem get?_call (c : Criteria) (one : Call) (field : String) :
    Entries.get? field (c.call one).tests =
      match one.effectOn? field with
      | some effect => some (effect.testAfter (Entries.get? field c.tests))
      | none => Entries.get? field c.tests := by
  rw [call_eq, Call.effectOn?]
  split
  · next other effect _ =>
    by_cases same : other = field
    · rw [if_pos same, same]
      exact Entries.get?_put_self ..
    · rw [if_neg same]
      exact Entries.get?_put_other _ _ same
  · rfl

theorem get?_calls (c : Criteria) (calls : List Call) (field : String) :
    Entries.get? field (calls.foldl call c).tests =
      (calls.filterMap (Call.effectOn? field)).foldl
        (fun test effect => some (effect.testAfter test)) (Entries.get? field c.tests) := by
  induction calls generalizing c with
  | nil => rfl
  | cons one calls ih =>
    rw [List.foldl_cons, ih, get?_call]
    cases effect : one.effectOn? field with
    | none => rw [List.filterMap_cons_none effect]
    | some e => rw [List.filterMap_cons_some effect, List.foldl_cons]

/-- Each call about a field puts one test under its name. -/
theorem exists_puts (c : Criteria) (calls : List Call) :
    ∃ added : Entries Test, added.names = calls.filterMap Call.field? ∧
      (calls.foldl call c).tests = Entries.putAll c.tests added := by
  induction calls generalizing c with
  | nil => exact ⟨[], rfl, rfl⟩
  | cons one calls ih =>
    obtain ⟨added, named, rest⟩ := ih (c.call one)
    rw [List.foldl_cons, rest, call_eq]
    cases changed : one.change with
    | test field effect =>
      refine ⟨(field, effect.testAfter (Entries.get? field c.tests)) :: added, ?_, rfl⟩
      have about : one.field? = some field := by rw [Call.field?, changed]
      rw [List.filterMap_cons_some about, ← named]
      rfl
    | branch branch =>
      refine ⟨added, ?_, rfl⟩
      have about : one.field? = none := by rw [Call.field?, changed]
      rw [List.filterMap_cons_none about, named]

theorem branches_calls (c : Criteria) (calls : List Call) :
    (calls.foldl call c).branches = c.branches ++ calls.filterMap Call.branch? := by
  induction calls generalizing c with
  | nil => exact (List.append_nil _).symm
  | cons one calls ih =>
    rw [List.foldl_cons, ih, call_eq]
    cases changed : one.change with
    | test field effect =>
      have none : one.branch? = none := by rw [Call.branch?, changed]
      rw [List.filterMap_cons_none none]
      rfl
    | branch branch =>
      have some : one.branch? = some branch := by rw [Call.branch?, changed]
      rw [List.filterMap_cons_some some]
      exact List.append_assoc ..

end Steps

/-! ## What calls amount to -/

/-- A test with operators added. They come behind those of the test and replace a test of another
form. -/
def withOperators (test : Test) (ops : List (Operator × Operand)) : Test :=
  match test, ops with
  | test, [] => test
  | .operators before, ops => .operators (before ++ ops)
  | _, ops => .operators ops

/-- Effects on a test that there was not, and the test that there is then. What was done before the
last whole test is of no account. -/
inductive Amounts : List Effect → Option Test → Prop
  | added (ops : List (Operator × Operand)) :
      Amounts (ops.map fun op => .operator op.1 op.2)
        (if ops = [] then none else some (.operators ops))
  | whole (before : List Effect) (test : Test) (ops : List (Operator × Operand)) :
      Amounts (before ++ .whole test :: ops.map fun op => .operator op.1 op.2)
        (some (withOperators test ops))

theorem testAfter_withOperators (test : Test) (ops : List (Operator × Operand)) (op : Operator)
    (operand : Operand) :
    (Effect.operator op operand).testAfter (some (withOperators test ops)) =
      withOperators test (ops ++ [(op, operand)]) := by
  cases test <;> cases ops <;> simp [withOperators, Effect.testAfter]

/-- The invariant is that the operators since the last whole test are all there, in order. -/
theorem amounts (effects : List Effect) :
    Amounts effects (effects.foldl (fun test effect => some (effect.testAfter test)) none) := by
  induction effects using List.reverseRecOn with
  | nil => exact .added []
  | append_singleton effects effect ih =>
    rw [List.foldl_append, List.foldl_cons, List.foldl_nil]
    cases effect with
    | whole test => exact .whole effects test []
    | operator op operand =>
      generalize effects.foldl _ none = before at ih
      cases ih with
      | added ops =>
        have last := Amounts.added (ops ++ [(op, operand)])
        rw [List.map_append] at last
        split
        · next none => simpa [none, Effect.testAfter] using last
        · next some => simpa [Effect.testAfter] using last
      | whole before test ops =>
        have last := Amounts.whole before test (ops ++ [(op, operand)])
        rw [testAfter_withOperators]
        simpa using last

/-! ## Runs of calls -/

/-- Calls that are about no field are left out, as are those about other fields. -/
theorem filterMap_effectOn?_filter (calls : List Call) (field : String) :
    (calls.filter fun one => one.field? == some field).filterMap (Call.effectOn? field) =
      calls.filterMap (Call.effectOn? field) := by
  rw [List.filterMap_filter]
  refine List.filterMap_congr fun one _ => ?_
  split
  · rfl
  · next other => exact (effectOn?_eq_none (by simpa using other)).symm

theorem names_build (calls : List Call) :
    Entries.names (build calls).tests = (calls.filterMap Call.field?).eraseDups := by
  obtain ⟨added, named, tests⟩ := exists_puts empty calls
  rw [build, tests, Entries.names_putAll, named]
  simp [empty, Entries.names, List.removeAll]

theorem nodup_build (calls : List Call) : (Entries.names (build calls).tests).Nodup := by
  obtain ⟨added, _, tests⟩ := exists_puts empty calls
  rw [build, tests]
  exact Entries.nodup_putAll added List.nodup_nil

theorem get?_build (calls : List Call) (field : String) :
    Entries.get? field (build calls).tests = (calls.filterMap (Call.effectOn? field)).foldl
      (fun test effect => some (effect.testAfter test)) none := get?_calls empty calls field

theorem branches_build (calls : List Call) :
    (build calls).branches = calls.filterMap Call.branch? := branches_calls empty calls

/-- Where one of two neighbours is left out, they can change places. -/
theorem filterMap_swap {α β : Type*} {f : α → Option β} {a b : α} (out : f a = none ∨ f b = none)
    (before after : List α) :
    (before ++ b :: a :: after).filterMap f = (before ++ a :: b :: after).filterMap f := by
  rcases out with out | out <;> simp [List.filterMap_append, List.filterMap_cons, out]

/-- Calls about different fields, or one about a field and a branch, can change places. -/
theorem build_swap {a b : Call} (differ : a.field? ≠ b.field?) (before after : List Call) :
    (build (before ++ b :: a :: after)).tests.Perm (build (before ++ a :: b :: after)).tests ∧
      (build (before ++ b :: a :: after)).branches =
        (build (before ++ a :: b :: after)).branches := by
  constructor
  · refine Entries.perm_of_get? (nodup_build _) (nodup_build _) fun field => ?_
    rw [get?_build, get?_build, filterMap_swap]
    by_cases about : a.field? = some field
    · exact .inr (effectOn?_eq_none fun same => differ (about.trans same.symm))
    · exact .inl (effectOn?_eq_none about)
  · rw [branches_build, branches_build, filterMap_swap]
    by_cases about : a.field? = none
    · exact .inr (branch?_eq_none fun same => differ (about.trans same.symm))
    · exact .inl (branch?_eq_none about)

/-- Every field that calls are about is tested once, in the order in which they first come to it.
Its test is what the calls about it alone make of it: the last one set as a whole with the operators
added since, or the operators alone. The branches are those that are added, in order. Two calls that
are not about the same field can change places, which changes nothing but the order of the
fields. -/
theorem building_per_field (calls : List Call) :
    (Entries.names (build calls).tests).Nodup ∧
    Entries.names (build calls).tests = (calls.filterMap Call.field?).eraseDups ∧
    (∀ field, Entries.get? field (build calls).tests =
      Entries.get? field (build (calls.filter fun one => one.field? == some field)).tests) ∧
    (∀ field, Amounts (calls.filterMap (Call.effectOn? field))
      (Entries.get? field (build calls).tests)) ∧
    (build calls).branches = calls.filterMap Call.branch? ∧
    ∀ before a b after, calls = before ++ a :: b :: after → a.field? ≠ b.field? →
      (build (before ++ b :: a :: after)).tests.Perm (build calls).tests ∧
        (build (before ++ b :: a :: after)).branches = (build calls).branches := by
  refine ⟨nodup_build calls, names_build calls, fun field => ?_, fun field => ?_,
    branches_build calls, ?_⟩
  · rw [get?_build, get?_build, filterMap_effectOn?_filter]
  · rw [get?_build]
    exact amounts _
  · rintro before a b after rfl differ
    exact build_swap differ before after

/-- An operator before and two after a null, a field between them, and a branch. -/
theorem building_per_field_mixed :
    let calls : List Call := [.gt "age" (5 : Int64), .like "name" "B%",
      .equals "age" (none : Option Bool), .or empty, .lt "age" (9 : Int64), .neq "age" (7 : Int64)]
    (build calls).tests =
        [("age", .operators [(.lt, .value (.int 9)), (.neq, .value (.int 7))]),
          ("name", .operators [(.like, .value (.text "B%"))])] ∧
      (build [.like "name" "B%", .gt "age" (5 : Int64), .equals "age" (none : Option Bool),
        .or empty, .lt "age" (9 : Int64), .neq "age" (7 : Int64)]).tests.Perm
          (build calls).tests := by
  intro calls
  exact ⟨rfl, ((building_per_field calls).2.2.2.2.2 [] _ _ _ rfl (by decide)).1⟩

end Criteria

end SqlMapper
