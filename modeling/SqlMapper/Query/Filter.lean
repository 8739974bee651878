import SqlMapper.Query.Criteria

/-!
# Filters

A filter asks for the rows that meet some criteria, in an order, and a page of them. An order is
written as terms between commas, each a field with a direction behind it or a minus before it.
-/

namespace SqlMapper

inductive Direction
  | ascending
  | descending
  deriving DecidableEq, Repr, Inhabited

structure OrderTerm where
  field : String
  direction : Direction := .ascending
  deriving DecidableEq, Repr

namespace OrderTerm

/-- Reads a term without blanks around it. A minus is part of the field unless the rest is one
word. -/
def ofTrimmed (term : List Char) : Except QueryError OrderTerm :=
  let refuse := invalid (.orderTerm (String.ofList term))
  let plain := match Text.words term with
    | [field] => .ok ⟨String.ofList field, .ascending⟩
    | [field, direction] =>
        if Text.sameIgnoringCase (String.ofList direction) "asc" then
          .ok ⟨String.ofList field, .ascending⟩
        else if Text.sameIgnoringCase (String.ofList direction) "desc" then
          .ok ⟨String.ofList field, .descending⟩
        else refuse
    | _ => refuse
  match term with
  | '-' :: field =>
      if field ≠ [] ∧ !field.any Text.isBlank then .ok ⟨String.ofList field, .descending⟩ else plain
  | _ => plain

/-- Reads the terms of an order. -/
def parse (spec : String) : Except QueryError (List OrderTerm) :=
  (Text.splitAt ',' spec.toList).mapM fun term => ofTrimmed (Text.trim term)

end OrderTerm

structure Filter where
  criteria : Criteria := Criteria.empty
  order : List OrderTerm := []
  limit : Option UInt64 := none
  offset : UInt64 := 0

namespace Filter

instance : Inhabited Filter := ⟨{}⟩

def withCriteria (f : Filter) (criteria : Criteria) : Filter := { f with criteria }

def orderBy (f : Filter) (term : OrderTerm) : Filter := { f with order := f.order ++ [term] }

/-- Sets the limit; zero means none. -/
def withLimit (f : Filter) (limit : UInt64) : Filter :=
  { f with limit := if limit = 0 then none else some limit }

def withOffset (f : Filter) (offset : UInt64) : Filter := { f with offset }

/-- A natural, as a number or spelled in a text. -/
def count? : Json → Option UInt64
  | .string s => Text.uint64? (Text.trim s.toList)
  | j => j.nat?.bind toUInt64?

def readCount (key : String) (j : Json) : Except QueryError UInt64 :=
  match count? j with
  | some n => .ok n
  | none => invalid (.notACount key)

/-- The terms of a list of texts, added to those there are. -/
def readOrderItems (terms : List OrderTerm) : List Json → Except QueryError (List OrderTerm)
  | [] => .ok terms
  | .string spec :: rest => do
      let more ← OrderTerm.parse spec
      readOrderItems (terms ++ more) rest
  | _ :: _ => invalid .orderEntryNotText

/-- Reads one entry. A null leaves all but the criteria as they are, and an unknown key
everything. -/
def readEntry (f : Filter) (key : String) (j : Json) : Except QueryError Filter :=
  if key = "where" then do
    let criteria ← Criteria.ofJson j
    .ok { f with criteria }
  else if key = "order" then
    match j with
    | .string spec => do
        let order ← OrderTerm.parse spec
        .ok { f with order }
    | .array items => do
        let order ← readOrderItems f.order items
        .ok { f with order }
    | .null => .ok f
    | _ => invalid .orderNotText
  else if key = "limit" ∧ !j.isNull then do
    let limit ← readCount key j
    .ok (f.withLimit limit)
  else if (key = "offset" ∨ key = "skip") ∧ !j.isNull then do
    let offset ← readCount key j
    .ok { f with offset }
  else .ok f

/-- Reads a filter; null means every row. -/
def ofJson : Json → Except QueryError Filter
  | .null => .ok {}
  | .object entries => entries.foldlM (fun f (key, j) => readEntry f key j) {}
  | j => invalid (.filterNotAnObject j)

end Filter

end SqlMapper
