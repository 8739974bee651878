import Mathlib.Data.List.Induction
import Mathlib.Logic.Function.Basic
import SqlMapper.Proofs.Entries
import SqlMapper.Proofs.Query.Ordering
import SqlMapper.Proofs.Text.Digits
import SqlMapper.Query.Mapper

/-! # Filters and their documents

A filter is read from an object entry by entry. Whether an entry is accepted is told by its key and
its value alone, and what it sets no other entry sets, except that two keys name the number of rows
to skip. So where at most one of these two has a value, the filter is a function of what stands
under each key, and the order of the keys is of no account. A key that stands nowhere is as good as
one with a null.
-/

namespace SqlMapper

open Text

/-- What stands under a key, null if nothing does. -/
def Entries.valueAt (entries : Entries Json) (key : String) : Json := (entries.get? key).getD .null

section Values

variable {entries : Entries Json}

/-- What holds of null holds of every entry exactly if it holds under every key. -/
theorem Entries.forall_valueAt {P : String → Json → Prop} (distinct : entries.names.Nodup)
    (null : ∀ key, P key .null) :
    (∀ key, P key (entries.valueAt key)) ↔ ∀ entry ∈ entries, P entry.1 entry.2 := by
  constructor
  · intro each entry member
    have stands := each entry.1
    rwa [valueAt, get?_of_mem distinct member] at stands
  · intro each key
    rw [valueAt]
    cases found : entries.get? key with
    | none => exact null key
    | some j => exact each _ (mem_of_get? found)

/-- A new entry changes what stands under its key. -/
theorem Entries.valueAt_concat {key : String} (new : key ∉ entries.names) (j : Json) :
    valueAt (entries ++ [(key, j)]) = Function.update entries.valueAt key j := by
  funext other
  rw [valueAt, get?_append, Function.update_apply]
  by_cases same : other = key
  · rw [if_pos same, same, get?_eq_none_iff.mpr new]
    simp [get?]
  · rw [if_neg same, valueAt]
    simp [get?, Ne.symm same]

theorem Entries.valueAt_perm {other : Entries Json} (perm : other.Perm entries)
    (distinct : entries.names.Nodup) : other.valueAt = entries.valueAt := by
  funext key
  rw [valueAt, get?_perm perm distinct, valueAt]

end Values

namespace Filter

/-! ## What the values of a filter mean -/

/-- A word without sign, as a number or as a text that spells it between blanks. -/
inductive Counts : Json → UInt64 → Prop
  | number (n : UInt64) : Counts (.int n.toNat) n
  | text {s n} (spelled : SpellsNat (trim s.toList) n.toNat) : Counts (.string s) n

/-- A text that is read as terms. -/
inductive IsOrderText : Json → List OrderTerm → Prop
  | mk {spec terms} (read : OrderTerm.parse spec = .ok terms) : IsOrderText (.string spec) terms

/-- No order, the terms of a text, or those of several texts one after the other. -/
inductive Orders : Json → List OrderTerm → Prop
  | null : Orders .null []
  | text {j terms} (one : IsOrderText j terms) : Orders j terms
  | list {items rows} (each : List.Forall₂ IsOrderText items rows) :
      Orders (.array items) rows.flatten

/-- A null and zero are no limit. -/
inductive Limits : Json → Option UInt64 → Prop
  | null : Limits .null none
  | zero {j} (counts : Counts j 0) : Limits j none
  | count {j n} (counts : Counts j n) (positive : n ≠ 0) : Limits j (some n)

/-- The number of rows to skip, under one of two keys. -/
inductive Skips : Json → Json → UInt64 → Prop
  | null : Skips .null .null 0
  | offset {j n} (counts : Counts j n) : Skips j .null n
  | skip {j n} (counts : Counts j n) : Skips .null j n

/-- A filter has what stands under each key, given by a function of the key. -/
structure IsReadFrom (f : Filter) (value : String → Json) : Prop where
  criteria : Criteria.ofJson (value "where") = .ok f.criteria
  order : Orders (value "order") f.order
  limit : Limits (value "limit") f.limit
  offset : Skips (value "offset") (value "skip") f.offset

/-- The keys that a filter has. -/
def keys : List String := ["where", "order", "limit", "offset", "skip"]

/-- A value that can stand under a key. Anything can stand under a key that a filter does not
have. -/
structure Accepts (key : String) (j : Json) : Prop where
  criteria : key = "where" → ∃ c, Criteria.ofJson j = .ok c
  order : key = "order" → ∃ terms, Orders j terms
  count : key = "limit" ∨ key = "offset" ∨ key = "skip" → j = .null ∨ ∃ n, Counts j n

section Values

variable {j k : Json} {n : UInt64}

theorem counts_iff : Counts j n ↔ count? j = some n := by
  constructor
  · rintro (_ | spelled)
    · simp [count?, Json.nat?, toUInt64?_eq_some_iff]
    · exact uint64?_eq_some_iff.mpr spelled
  · intro read
    cases j with
    | string s => exact .text (uint64?_eq_some_iff.mp read)
    | int i =>
      simp only [count?, Json.nat?] at read
      split at read
      · next natural =>
        have word := toUInt64?_eq_some_iff.mp read
        rw [← Int.toNat_of_nonneg natural, ← word]
        exact .number n
      · cases read
    | _ => cases read

theorem Counts.eq {m : UInt64} (one : Counts j n) (other : Counts j m) : n = m :=
  Option.some.inj ((counts_iff.mp one).symm.trans (counts_iff.mp other))

theorem not_counts_null : ¬ Counts .null n := nofun

theorem Counts.present (counts : Counts j n) : j.isNull = false := by
  cases counts <;> rfl

theorem readCount_eq_ok_iff {key : String} : readCount key j = .ok n ↔ Counts j n := by
  rw [counts_iff, readCount]
  cases count? j <;> simp [invalid]

/-- The terms of the texts come behind those there are. -/
theorem readOrderItems_eq_ok_iff {terms all : List OrderTerm} {items : List Json} :
    readOrderItems terms items = .ok all ↔
      ∃ rows, List.Forall₂ IsOrderText items rows ∧ all = terms ++ rows.flatten := by
  induction items generalizing terms with
  | nil =>
    rw [readOrderItems, Except.ok.injEq, eq_comm]
    simp
  | cons item items ih =>
    constructor
    · intro read
      cases item with
      | string spec =>
        rw [readOrderItems] at read
        obtain ⟨more, first, rest⟩ := bind_eq_ok_iff.mp read
        obtain ⟨rows, each, rfl⟩ := ih.mp rest
        exact ⟨more :: rows, .cons ⟨first⟩ each, by simp⟩
      | _ => cases read
    · rintro ⟨_, _ | ⟨⟨first⟩, each⟩, rfl⟩
      rw [readOrderItems]
      exact bind_eq_ok_iff.mpr ⟨_, first, ih.mpr ⟨_, each, by simp⟩⟩

theorem IsOrderText.eq {one other : List OrderTerm} (reads : IsOrderText j one)
    (readsOther : IsOrderText j other) : one = other := by
  cases reads with
  | mk read =>
    cases readsOther with
    | mk readOther => exact Except.ok.inj (read.symm.trans readOther)

/-- A value means one order. -/
theorem Orders.eq {one other : List OrderTerm} (orders : Orders j one)
    (ordersOther : Orders j other) : one = other := by
  cases orders with
  | null =>
    rcases ordersOther with _ | ⟨⟨⟩⟩
    rfl
  | text reads =>
    rcases ordersOther with _ | readsOther | _
    · cases reads
    · exact reads.eq readsOther
    · cases reads
  | @list items rows each =>
    have read {rows} (each : List.Forall₂ IsOrderText items rows) :
        readOrderItems [] items = .ok rows.flatten := readOrderItems_eq_ok_iff.mpr ⟨_, each, rfl⟩
    rcases ordersOther with _ | ⟨⟨⟩⟩ | each'
    exact Except.ok.inj ((read each).symm.trans (read each'))

theorem Limits.eq {one other : Option UInt64} (limits : Limits j one)
    (limitsOther : Limits j other) : one = other := by
  cases limits with
  | null => cases limitsOther with
    | null => rfl
    | zero counts | count counts => exact absurd counts not_counts_null
  | zero counts => cases limitsOther with
    | null | zero => rfl
    | count counts' positive => exact absurd (counts'.eq counts) positive
  | count counts positive => cases limitsOther with
    | null => exact absurd counts not_counts_null
    | zero counts' => exact absurd (counts.eq counts') positive
    | count counts' => rw [counts.eq counts']

theorem Skips.eq {n m : UInt64} (one : Skips j k n) (other : Skips j k m) : n = m := by
  cases one with
  | null => cases other with
    | null => rfl
    | offset counts | skip counts => exact absurd counts not_counts_null
  | offset counts => cases other with
    | null | skip => exact absurd counts not_counts_null
    | offset counts' => exact counts.eq counts'
  | skip counts => cases other with
    | null | offset => exact absurd counts not_counts_null
    | skip counts' => exact counts.eq counts'

end Values

/-! ## Reading entry by entry -/

/-- What an entry does to a filter. -/
inductive Sets (f : Filter) : String → Json → Filter → Prop
  | criteria {j c} (read : Criteria.ofJson j = .ok c) : Sets f "where" j { f with criteria := c }
  | orderText {j order} (one : IsOrderText j order) : Sets f "order" j { f with order }
  | orderList {items rows} (each : List.Forall₂ IsOrderText items rows) :
      Sets f "order" (.array items) { f with order := f.order ++ rows.flatten }
  | limit {j n} (counts : Counts j n) : Sets f "limit" j (f.withLimit n)
  | offset {key j offset} (own : key = "offset" ∨ key = "skip") (counts : Counts j offset) :
      Sets f key j { f with offset }
  | null {key} (other : key ≠ "where") : Sets f key .null f
  | unknown {key j} (other : key ∉ keys) : Sets f key j f

section Reading

variable {f g : Filter} {value : String → Json} {key : String} {j : Json}
  {entries other : Entries Json}

/-- An entry is read exactly as it sets something. -/
theorem readEntry_eq_ok_iff : readEntry f key j = .ok g ↔ Sets f key j g := by
  constructor
  · intro read
    unfold readEntry at read
    split at read
    · next own =>
      obtain ⟨c, first, done⟩ := bind_eq_ok_iff.mp read
      cases done
      exact own ▸ .criteria first
    · next notWhere =>
      split at read
      · next own =>
        subst own
        split at read
        · obtain ⟨order, first, done⟩ := bind_eq_ok_iff.mp read
          cases done
          exact .orderText ⟨first⟩
        · obtain ⟨order, first, done⟩ := bind_eq_ok_iff.mp read
          cases done
          obtain ⟨rows, each, rfl⟩ := readOrderItems_eq_ok_iff.mp first
          exact .orderList each
        · cases read
          exact .null notWhere
        · cases read
      · next notOrder =>
        split at read
        · next own =>
          obtain ⟨n, first, done⟩ := bind_eq_ok_iff.mp read
          cases done
          exact own.1 ▸ .limit (readCount_eq_ok_iff.mp first)
        · next notLimit =>
          split at read
          · next own =>
            obtain ⟨n, first, done⟩ := bind_eq_ok_iff.mp read
            cases done
            exact .offset own.1 (readCount_eq_ok_iff.mp first)
          · next notOffset =>
            cases read
            cases j with
            | null => exact .null notWhere
            | _ => exact .unknown (by simp_all [keys, Json.isNull])
  · intro sets
    cases sets with
    | criteria read => exact bind_eq_ok_iff.mpr ⟨_, read, rfl⟩
    | orderText one =>
      cases one with
      | mk read => exact bind_eq_ok_iff.mpr ⟨_, read, rfl⟩
    | orderList each =>
      exact bind_eq_ok_iff.mpr ⟨_, readOrderItems_eq_ok_iff.mpr ⟨_, each, rfl⟩, rfl⟩
    | limit counts =>
      unfold readEntry
      rw [if_neg (by decide), if_neg (by decide), if_pos ⟨rfl, by simp [counts.present]⟩]
      exact bind_eq_ok_iff.mpr ⟨_, readCount_eq_ok_iff.mpr counts, rfl⟩
    | offset own counts =>
      rcases own with rfl | rfl <;>
      · unfold readEntry
        rw [if_neg (by decide), if_neg (by decide), if_neg (by simp),
          if_pos ⟨by decide, by simp [counts.present]⟩]
        exact bind_eq_ok_iff.mpr ⟨_, readCount_eq_ok_iff.mpr counts, rfl⟩
    | null other => simp [readEntry, other, Json.isNull]
    | unknown other =>
      simp only [keys, List.mem_cons, List.not_mem_nil, or_false, not_or] at other
      simp [readEntry, other]

/-- Whether an entry is read does not depend on the filter. -/
theorem exists_readEntry_iff : (∃ g, readEntry f key j = .ok g) ↔ Accepts key j := by
  simp only [readEntry_eq_ok_iff]
  constructor
  · rintro ⟨g, sets⟩
    cases sets with
    | criteria read => exact ⟨fun _ => ⟨_, read⟩, by simp, by simp⟩
    | orderText one => exact ⟨by simp, fun _ => ⟨_, .text one⟩, by simp⟩
    | orderList each => exact ⟨by simp, fun _ => ⟨_, .list each⟩, by simp⟩
    | limit counts => exact ⟨by simp, by simp, fun _ => .inr ⟨_, counts⟩⟩
    | offset own counts =>
      rcases own with rfl | rfl <;> exact ⟨by simp, by simp, fun _ => .inr ⟨_, counts⟩⟩
    | null other => exact ⟨fun own => absurd own other, fun _ => ⟨_, .null⟩, fun _ => .inl rfl⟩
    | unknown other =>
      simp only [keys, List.mem_cons, List.not_mem_nil, or_false, not_or] at other
      exact ⟨by simp [other], by simp [other], by simp [other]⟩
  · intro accepts
    by_cases own : key ∈ keys
    · simp only [keys, List.mem_cons, List.not_mem_nil, or_false] at own
      rcases own with rfl | rfl | named
      · obtain ⟨c, read⟩ := accepts.criteria rfl
        exact ⟨_, .criteria read⟩
      · obtain ⟨terms, orders⟩ := accepts.order rfl
        cases orders with
        | null => exact ⟨_, .null (by decide)⟩
        | text one => exact ⟨_, .orderText one⟩
        | list each => exact ⟨_, .orderList each⟩
      · rcases accepts.count named with rfl | ⟨n, counts⟩
        · exact ⟨f, .null (by rintro rfl; simp at named)⟩
        · rcases named with rfl | named
          · exact ⟨_, .limit counts⟩
          · exact ⟨_, .offset named counts⟩
    · exact ⟨f, .unknown own⟩

/-- There is one filter with what stands under each key. -/
theorem IsReadFrom.eq (one : f.IsReadFrom value) (two : g.IsReadFrom value) : f = g := by
  obtain ⟨criteria, order, limit, offset⟩ := f
  obtain ⟨criteria', order', limit', offset'⟩ := g
  obtain rfl : criteria = criteria' := Except.ok.inj (one.criteria.symm.trans two.criteria)
  obtain rfl : order = order' := one.order.eq two.order
  obtain rfl : limit = limit' := one.limit.eq two.limit
  obtain rfl : offset = offset' := one.offset.eq two.offset
  rfl


/-- A new entry adds what stands under its key. -/
theorem IsReadFrom.sets (read : f.IsReadFrom value) (new : value key = .null)
    (single : Function.update value key j "offset" = .null ∨
      Function.update value key j "skip" = .null)
    (sets : Sets f key j g) : g.IsReadFrom (Function.update value key j) := by
  obtain ⟨criteria, order, limit, offset⟩ := read
  cases sets with
  | criteria readCriteria =>
    exact ⟨by simpa using readCriteria, by simpa using order, by simpa using limit,
      by simpa using offset⟩
  | orderText one =>
    exact ⟨by simpa using criteria, by simpa using .text one, by simpa using limit,
      by simpa using offset⟩
  | orderList each =>
    have none : f.order = [] := (new ▸ order).eq .null
    exact ⟨by simpa using criteria, by simpa [none] using .list each, by simpa using limit,
      by simpa using offset⟩
  | @limit _ n counts =>
    refine ⟨by simpa [withLimit] using criteria, by simpa [withLimit] using order, ?_,
      by simpa [withLimit] using offset⟩
    rw [Function.update_self, withLimit]
    split
    · next zero => exact .zero (zero ▸ counts)
    · next positive => exact .count counts positive
  | offset own counts =>
    have present : j ≠ .null := fun absent => not_counts_null (absent ▸ counts)
    rcases own with rfl | rfl
    · have alone : value "skip" = .null := by simpa [present] using single
      exact ⟨by simpa using criteria, by simpa using order, by simpa using limit,
        by simpa [alone] using .offset counts⟩
    · have alone : value "offset" = .null := by simpa [present] using single
      exact ⟨by simpa using criteria, by simpa using order, by simpa using limit,
        by simpa [alone] using .skip counts⟩
  | null other =>
    rw [← new, Function.update_eq_self]
    exact ⟨criteria, order, limit, offset⟩
  | unknown other =>
    have same : ∀ own ∈ keys, Function.update value key j own = value own := fun own member =>
      Function.update_of_ne (ne_of_mem_of_not_mem member other) j value
    exact ⟨by rwa [same _ (by decide)], by rwa [same _ (by decide)], by rwa [same _ (by decide)],
      by rwa [same _ (by decide), same _ (by decide)]⟩

theorem ofJson_object (entries : Entries Json) :
    ofJson (.object entries) = entries.foldlM (fun f entry => readEntry f entry.1 entry.2) {} := rfl

/-- An object is read exactly if each of its entries is. -/
theorem exists_ofJson_iff :
    (∃ f, ofJson (.object entries) = .ok f) ↔ ∀ entry ∈ entries, Accepts entry.1 entry.2 :=
  have each (f : Filter) (entry : String × Json) :
      (∃ g, readEntry f entry.1 entry.2 = .ok g) ↔ Accepts entry.1 entry.2 := exists_readEntry_iff
  foldlM_ok_iff each entries {}

/-- An object is read as what stands under each key. -/
theorem isReadFrom_of_ofJson (distinct : entries.names.Nodup)
    (single : entries.valueAt "offset" = .null ∨ entries.valueAt "skip" = .null)
    (read : ofJson (.object entries) = .ok f) : f.IsReadFrom entries.valueAt := by
  rw [ofJson_object] at read
  induction entries using List.reverseRecOn generalizing f with
  | nil =>
    cases read
    exact ⟨by rfl, .null, .null, .null⟩
  | append_singleton before entry ih =>
    obtain ⟨key, j⟩ := entry
    rw [Entries.names, List.map_append, List.nodup_append] at distinct
    have new : key ∉ Entries.names before := fun member =>
      distinct.2.2 _ member _ List.mem_cons_self rfl
    have absent : Entries.valueAt before key = .null := by
      rw [Entries.valueAt, Entries.get?_eq_none_iff.mpr new, Option.getD_none]
    rw [Entries.valueAt_concat new] at single ⊢
    -- what is null with the entry is null without it
    have without (other : String)
        (null : Function.update (Entries.valueAt before) key j other = .null) :
        Entries.valueAt before other = .null := by
      by_cases same : other = key
      · exact same ▸ absent
      · rwa [Function.update_of_ne same] at null
    simp only [List.foldlM_append, List.foldlM_cons, List.foldlM_nil, bind_pure] at read
    obtain ⟨g, first, last⟩ := bind_eq_ok_iff.mp read
    have prior := ih distinct.1 (single.imp (without _) (without _)) first
    exact prior.sets absent single (readEntry_eq_ok_iff.mp last)

/-- An entry that a filter does not have is passed over. -/
theorem ofJson_filter_keys (entries : Entries Json) :
    ofJson (.object (entries.filter fun entry => entry.1 ∈ keys)) = ofJson (.object entries) := by
  rw [ofJson_object, ofJson_object]
  generalize ({} : Filter) = f
  induction entries generalizing f with
  | nil => rfl
  | cons entry entries ih =>
    by_cases own : entry.1 ∈ keys
    · rw [List.filter_cons_of_pos (by simpa using own), List.foldlM_cons, List.foldlM_cons]
      exact bind_congr fun g => ih g
    · have passed := readEntry_eq_ok_iff.mpr (.unknown (f := f) (j := entry.2) own)
      rw [List.filter_cons_of_neg (by simpa using own), List.foldlM_cons, passed, ih]
      rfl

/-- Three things are asked of what stands under the keys of an object. -/
theorem exists_ofJson_iff_valueAt (distinct : entries.names.Nodup) :
    (∃ f, ofJson (.object entries) = .ok f) ↔
      (∃ c, Criteria.ofJson (entries.valueAt "where") = .ok c) ∧
      (∃ terms, Orders (entries.valueAt "order") terms) ∧
      ∀ key ∈ ["limit", "offset", "skip"],
        entries.valueAt key = .null ∨ ∃ n, Counts (entries.valueAt key) n := by
  have null (key : String) : Accepts key .null :=
    ⟨fun _ => ⟨_, by rw [Criteria.ofJson]⟩, fun _ => ⟨_, .null⟩, fun _ => .inl rfl⟩
  rw [exists_ofJson_iff, ← Entries.forall_valueAt distinct null]
  constructor
  · intro accepted
    exact ⟨(accepted _).criteria rfl, (accepted _).order rfl,
      fun key member => (accepted key).count (by simpa using member)⟩
  · rintro ⟨criteria, order, counts⟩ key
    exact ⟨by rintro rfl; exact criteria, by rintro rfl; exact order,
      fun own => counts key (by simpa using own)⟩

/-- In any order of the keys the same filter is read, or none. -/
theorem ofJson_perm (distinct : entries.names.Nodup)
    (single : entries.valueAt "offset" = .null ∨ entries.valueAt "skip" = .null)
    (perm : other.Perm entries) :
    ofJson (.object other) = .ok f ↔ ofJson (.object entries) = .ok f := by
  have otherDistinct : other.names.Nodup := (perm.map Prod.fst).nodup_iff.mpr distinct
  have same := Entries.valueAt_perm perm distinct
  have together :
      (∃ f, ofJson (.object other) = .ok f) ↔ ∃ f, ofJson (.object entries) = .ok f := by
    simp only [exists_ofJson_iff, perm.mem_iff]
  have alike {g h : Filter} (one : ofJson (.object other) = .ok g)
      (two : ofJson (.object entries) = .ok h) : g = h :=
    IsReadFrom.eq (same ▸ isReadFrom_of_ofJson otherDistinct (same ▸ single) one)
      (isReadFrom_of_ofJson distinct single two)
  constructor
  · intro read
    obtain ⟨g, readToo⟩ := together.mp ⟨f, read⟩
    rwa [alike read readToo]
  · intro read
    obtain ⟨g, readToo⟩ := together.mpr ⟨f, read⟩
    rwa [← alike readToo read]

/-- An object is read exactly if its criteria are, its order is none, a text or a list of texts that
are read, and each count is none or a word. Keys that a filter does not have are of no account. If
rows to skip are not asked for under both keys, what is read is what stands under each key, so it is
the same in any order of the keys, and so is the selection that any mapper makes of it. -/
theorem key_order_irrelevant (entries : Entries Json) (distinct : entries.names.Nodup) :
    ((∃ f, ofJson (.object entries) = .ok f) ↔
      (∃ c, Criteria.ofJson (entries.valueAt "where") = .ok c) ∧
      (∃ terms, Orders (entries.valueAt "order") terms) ∧
      ∀ key ∈ ["limit", "offset", "skip"],
        entries.valueAt key = .null ∨ ∃ n, Counts (entries.valueAt key) n) ∧
    (∀ more : Entries Json,
      more.filter (fun entry => entry.1 ∈ keys) = entries.filter (fun entry => entry.1 ∈ keys) →
        ofJson (.object more) = ofJson (.object entries)) ∧
    (entries.valueAt "offset" = .null ∨ entries.valueAt "skip" = .null →
      (∀ f, ofJson (.object entries) = .ok f → f.IsReadFrom entries.valueAt) ∧
      ∀ other : Entries Json, other.Perm entries →
        (∀ f, ofJson (.object other) = .ok f ↔ ofJson (.object entries) = .ok f) ∧
        ∀ (b : Mapper) (sql : String), ofJson (.object other) >>= b.select = .ok sql ↔
          ofJson (.object entries) >>= b.select = .ok sql) := by
  refine ⟨exists_ofJson_iff_valueAt distinct, fun more known => ?_, fun single => ⟨?_, ?_⟩⟩
  · rw [← ofJson_filter_keys more, known, ofJson_filter_keys]
  · exact fun f => isReadFrom_of_ofJson distinct single
  · intro other perm
    have same {f : Filter} := ofJson_perm (f := f) distinct single perm
    exact ⟨fun f => same, fun b sql => by simp only [bind_eq_ok_iff, same]⟩

/-- The keys in the opposite order, with a null beside the rows to skip, which are spelled with a
plus and blanks, a limit of zero, and a key that no filter has, with or without which the same is
read. -/
theorem key_order_irrelevant_mixed :
    let entries : Entries Json := [("offset", .null), ("limit", .int 0),
      ("order", .array [.string "-age,name", .string "id desc"]), ("page", .bool true),
      ("where", .object [("or", .array [.object [("age", .object [("gt", .int 3)])]])]),
      ("skip", .string " +07\n")]
    ofJson (.object entries.reverse) = .ok
      { criteria := ⟨[], [⟨[("age", .operators [(.gt, .value (.int 3))])], []⟩]⟩
        order := [⟨"age", .descending⟩, ⟨"name", .ascending⟩, ⟨"id", .descending⟩]
        offset := 7 } ∧
      ofJson (.object (entries.eraseIdx 3)) = ofJson (.object entries) := by
  intro entries
  obtain ⟨-, added, ordered⟩ := key_order_irrelevant entries (by decide)
  have reordered := (ordered (.inl rfl)).2 entries.reverse entries.reverse_perm
  exact ⟨(reordered.1 _).mpr rfl, added (entries.eraseIdx 3) rfl⟩

end Reading

end Filter

end SqlMapper
