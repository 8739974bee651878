import SqlMapper.Json.Decode
import SqlMapper.Proofs.Except

/-! # What is decoded

A decoder goes through a document in order and stops at the first thing that does not fit, but what
it accepts has no order in it. An object is accepted as a structure if each field can read the one
value that stands under its keys, whatever else the object holds and wherever the value stands, as
long as no key is that of two fields and no two fields set the same. A list is accepted as the same
structure if its items stand for the first fields.
-/

namespace SqlMapper.Json

/-! ## Lists and texts -/

section Lists

variable {α : Type} {decode : Doc → Decoded α}

theorem Tail.decode_eq_ok_iff {tail : Tail} {u : Unit} : tail.decode = .ok u ↔ tail = .closed := by
  cases tail <;> simp [Tail.decode, check, faulty]

theorem Doc.decodeItems_eq_mapM (items : List Doc) :
    decodeItems decode items = items.mapM decode := by
  induction items with
  | nil => rfl
  | cons item items ih =>
    rw [decodeItems, ih, List.mapM_cons]
    rfl

theorem Doc.mismatch_ne_ok {doc : Doc} {expected : String} {a : α} :
    doc.mismatch expected ≠ .ok a := by
  cases doc <;> simp [mismatch, fail, faulty]

/-- A list is accepted as a whole and item by item. -/
theorem Doc.decodeList_eq_ok_iff {doc : Doc} {found : List α} :
    doc.decodeList decode = .ok found ↔
      ∃ items, doc = .array items .closed ∧
        List.Forall₂ (fun item a => decode item = .ok a) items found := by
  rw [decodeList.eq_def]
  split
  · next items tail =>
    simp only [bind_eq_ok_iff, decodeItems_eq_mapM, mapM_eq_ok_iff, Tail.decode_eq_ok_iff]
    constructor
    · rintro ⟨_, each, _, rfl, same⟩
      exact ⟨items, rfl, Except.ok.inj same ▸ each⟩
    · rintro ⟨_, whole, each⟩
      cases whole
      exact ⟨found, each, (), rfl, rfl⟩
  · next other =>
    refine iff_of_false mismatch_ne_ok ?_
    rintro ⟨items, rfl, _⟩
    exact other items .closed rfl

/-- A text that is one value, with blanks around it. -/
def Holds (text : String) (doc : Doc) : Prop :=
  ∃ rest, read depthLimit text.toList = ⟨doc, .ok rest⟩ ∧ skipBlanks rest = []

theorem decodeText_eq_ok_iff {text : String} {a : α} :
    decodeText decode text = .ok a ↔ ∃ doc, Holds text doc ∧ decode doc = .ok a := by
  simp only [decodeText, bind_eq_ok_iff, Holds]
  obtain ⟨found, rest⟩ := read depthLimit text.toList
  cases rest with
  | error fault => simp [faulty]
  | ok rest =>
    by_cases blank : skipBlanks rest = []
    · simp [checkEnd, blank]
    · simp [checkEnd, blank, faulty]

end Lists

/-! ## Structures -/

/-- The values that stand under some keys. -/
def standing (keys : List String) (entries : Entries Doc) : List Doc :=
  entries.filterMap fun entry => if entry.1 ∈ keys then some entry.2 else none

/-- One item for each of the first of some places. -/
def inOrder (places : Nat) (items : List Doc) : List (List Doc) :=
  items.map ([·]) ++ List.replicate (places - items.length) []

theorem inOrder_none (places : Nat) : inOrder places [] = List.replicate places [] := rfl

theorem inOrder_cons (places : Nat) (item : Doc) (items : List Doc) :
    inOrder (places + 1) (item :: items) = [item] :: inOrder places items := by
  simp [inOrder]

/-- What a whole document provides for the fields of a structure, which are given by their keys. An
object provides what stands under the keys, and a list an item for each of the first fields. -/
inductive Doc.Provides (fields : List (List String)) : Doc → List (List Doc) → Prop
  | object (entries : Entries Doc) :
      Provides fields (.object entries .closed) (fields.map (standing · entries))
  | list {items : List Doc} (short : items.length ≤ fields.length) :
      Provides fields (.array items .closed) (inOrder fields.length items)

section Provided

variable {fields : List (List String)} {tail : Tail} {docs : List (List Doc)}

theorem Doc.provides_object_iff {entries : Entries Doc} :
    Provides fields (.object entries tail) docs ↔
      tail = .closed ∧ docs = fields.map (standing · entries) := by
  constructor
  · rintro ⟨⟩
    exact ⟨rfl, rfl⟩
  · rintro ⟨rfl, rfl⟩
    exact .object entries

theorem Doc.provides_array_iff {items : List Doc} :
    Provides fields (.array items tail) docs ↔
      tail = .closed ∧ items.length ≤ fields.length ∧ docs = inOrder fields.length items := by
  constructor
  · intro provides
    cases provides with
    | list short => exact ⟨rfl, short, rfl⟩
  · rintro ⟨rfl, short, rfl⟩
    exact .list short

end Provided

namespace StructField

variable {σ : Type} {field one other : StructField σ} {fields : List (StructField σ)}

def keys (field : StructField σ) : List String := field.name :: field.otherName.toList

/-- Two fields that have no key in common and set different things. -/
structure Independent (one other : StructField σ) : Prop where
  apart : ∀ key ∈ one.keys, key ∉ other.keys
  commute : ∀ doc doc' set set', one.read doc = .ok set → other.read doc' = .ok set' →
    ∀ a, set (set' a) = set' (set a)

/-- Fields set one after the other, each from at most one value. -/
inductive Gathers : List (StructField σ) → List (List Doc) → σ → σ → Prop
  | nil (a : σ) : Gathers [] [] a a
  | missing {field fields docs a b} (rest : Gathers fields docs a b) :
      Gathers (field :: fields) ([] :: docs) a b
  | present {field : StructField σ} {fields docs a b doc set} (read : field.read doc = .ok set)
      (rest : Gathers fields docs (set a) b) : Gathers (field :: fields) ([doc] :: docs) a b

/-- The fields that must not be missing are not. -/
def Complete (fields : List (StructField σ)) (docs : List (List Doc)) : Prop :=
  List.Forall₂ (fun field docs => field.required = true → docs ≠ []) fields docs

section Keys

variable {key : String} {doc : Doc} {rest : Entries Doc}

theorem answersTo_iff : field.answersTo key = true ↔ key ∈ field.keys := by
  rw [answersTo, Bool.or_eq_true, beq_iff_eq, beq_iff_eq, keys, List.mem_cons, Option.mem_toList,
    eq_comm]

theorem standing_cons_of_mem {keys : List String} (member : key ∈ keys) :
    standing keys ((key, doc) :: rest) = doc :: standing keys rest := by
  simp [standing, member]

theorem standing_cons_of_notMem {keys : List String} (none : key ∉ keys) :
    standing keys ((key, doc) :: rest) = standing keys rest := by
  simp [standing, none]

/-- A key belongs to one field only. -/
theorem eq_of_key (independent : fields.Pairwise Independent) (member : one ∈ fields)
    (too : other ∈ fields) (answers : key ∈ one.keys) (also : key ∈ other.keys) : one = other := by
  induction independent with
  | nil => cases member
  | @cons field fields apart _ ih =>
    rcases List.mem_cons.mp member with first | member <;>
      rcases List.mem_cons.mp too with second | too
    · exact first.trans second.symm
    · exact absurd also ((apart other too).apart key (first ▸ answers))
    · exact absurd answers ((apart one member).apart key (second ▸ also))
    · exact ih member too

/-- A key belongs to no field or to one. -/
theorem find?_cases (independent : fields.Pairwise Independent) (key : String) :
    (fields.find? (·.answersTo key) = none ∧ ∀ field ∈ fields, key ∉ field.keys) ∨
      ∃ field ∈ fields, fields.find? (·.answersTo key) = some field ∧ key ∈ field.keys ∧
        ∀ other ∈ fields, other ≠ field → key ∉ other.keys ∧ other.name ≠ field.name := by
  cases found : fields.find? (·.answersTo key) with
  | none =>
    refine .inl ⟨rfl, fun field member answers => ?_⟩
    exact List.find?_eq_none.mp found field member (answersTo_iff.mpr answers)
  | some field =>
    have member : field ∈ fields := List.mem_of_find?_eq_some found
    have answers : key ∈ field.keys := answersTo_iff.mp (by simpa using List.find?_some found)
    refine .inr ⟨field, member, rfl, answers, fun other there differ => ⟨fun also => ?_, ?_⟩⟩
    · exact differ (eq_of_key independent there member also answers)
    · intro name
      exact differ (eq_of_key independent there member List.mem_cons_self
        (name ▸ List.mem_cons_self))

end Keys

section Gathering

variable {doc : Doc} {docs : List (List Doc)} {values : List Doc} {a b : σ}

theorem complete_cons_iff : Complete (field :: fields) (values :: docs) ↔
    (field.required = true → values ≠ []) ∧ Complete fields docs := List.forall₂_cons

theorem gathers_cons_iff : Gathers (field :: fields) (values :: docs) a b ↔
    (values = [] ∧ Gathers fields docs a b) ∨
      ∃ doc set, values = [doc] ∧ field.read doc = .ok set ∧ Gathers fields docs (set a) b := by
  constructor
  · rintro (_ | rest | ⟨read, rest⟩)
    · exact .inl ⟨rfl, rest⟩
    · exact .inr ⟨_, _, rfl, read, rest⟩
  · rintro (⟨rfl, rest⟩ | ⟨_, _, rfl, read, rest⟩)
    · exact .missing rest
    · exact .present read rest

theorem gathers_nothing : Gathers fields (List.replicate fields.length []) a b ↔ a = b := by
  induction fields with
  | nil =>
    constructor
    · rintro ⟨⟩
      rfl
    · rintro rfl
      exact .nil a
  | cons field fields ih =>
    rw [List.length_cons, List.replicate_succ, gathers_cons_iff, ih]
    simp

/-- The first value of a field can be set before all else, since the fields before it set something
different. -/
theorem gathers_cons_entry (independent : fields.Pairwise Independent) (member : field ∈ fields)
    {key : String} (answers : key ∈ field.keys) {rest : Entries Doc} :
    Gathers fields (fields.map fun field => standing field.keys ((key, doc) :: rest)) a b ↔
      standing field.keys rest = [] ∧ ∃ set, field.read doc = .ok set ∧
        Gathers fields (fields.map fun field => standing field.keys rest) (set a) b := by
  induction independent generalizing a with
  | nil => cases member
  | @cons head fields apart _ ih =>
    rw [List.map_cons, List.map_cons]
    simp only [gathers_cons_iff]
    rcases List.mem_cons.mp member with rfl | member
    · have others : (fields.map fun field => standing field.keys ((key, doc) :: rest)) =
          fields.map fun field => standing field.keys rest :=
        List.map_congr_left fun other later =>
          standing_cons_of_notMem ((apart other later).apart key answers)
      rw [others, standing_cons_of_mem answers]
      constructor
      · rintro (⟨none, _⟩ | ⟨_, set, one, read, rest⟩)
        · cases none
        · obtain ⟨rfl, none⟩ := List.cons.inj one
          exact ⟨none, set, read, .inl ⟨none, rest⟩⟩
      · rintro ⟨none, set, read, ⟨_, rest⟩ | ⟨_, _, one, _⟩⟩
        · exact .inr ⟨doc, set, by rw [none], read, rest⟩
        · rw [none] at one
          cases one
    · have foreign : key ∉ head.keys := fun also => (apart field member).apart key also answers
      rw [standing_cons_of_notMem foreign]
      constructor
      · rintro (⟨missing, later⟩ | ⟨d, first, one, readFirst, later⟩)
        · obtain ⟨none, set, read, later⟩ := (ih member).mp later
          exact ⟨none, set, read, .inl ⟨missing, later⟩⟩
        · obtain ⟨none, set, read, later⟩ := (ih member).mp later
          rw [← (apart field member).commute _ _ _ _ readFirst read] at later
          exact ⟨none, set, read, .inr ⟨d, first, one, readFirst, later⟩⟩
      · rintro ⟨none, set, read, ⟨missing, later⟩ | ⟨d, first, one, readFirst, later⟩⟩
        · exact .inl ⟨missing, (ih member).mpr ⟨none, set, read, later⟩⟩
        · rw [(apart field member).commute _ _ _ _ readFirst read] at later
          exact .inr ⟨d, first, one, readFirst, (ih member).mpr ⟨none, set, read, later⟩⟩

/-- What is read into fields that have not been seen. -/
theorem readEntries_eq_ok_iff (independent : fields.Pairwise Independent)
    {entries : Entries Doc} {seen : List String} :
    (∃ seen', readEntries fields a seen entries = .ok (b, seen')) ↔
      (∀ field ∈ fields, field.name ∈ seen → standing field.keys entries = []) ∧
        Gathers fields (fields.map fun field => standing field.keys entries) a b := by
  -- a field that was read joins those that were seen, so nothing may stand for it in the rest
  induction entries generalizing a seen with
  | nil => simp [readEntries, standing, gathers_nothing]
  | cons entry rest ih =>
    obtain ⟨key, doc⟩ := entry
    rw [readEntries]
    rcases find?_cases independent key with ⟨none, foreign⟩ |
      ⟨field, member, found, answers, others⟩
    · have same (field) (member : field ∈ fields) :
          standing field.keys ((key, doc) :: rest) = standing field.keys rest :=
        standing_cons_of_notMem (foreign field member)
      rw [none]
      dsimp only
      rw [ih, List.map_congr_left same]
      refine and_congr_left fun _ => forall₂_congr fun field member => ?_
      rw [same field member]
    · have same {other} (there : other ∈ fields) (differ : other ≠ field) :
          standing other.keys ((key, doc) :: rest) = standing other.keys rest :=
        standing_cons_of_notMem (others other there differ).1
      rw [found, gathers_cons_entry independent member answers]
      dsimp only
      split
      · next again =>
        refine iff_of_false (by simp [fail]) fun ⟨unseen, _⟩ => ?_
        have none := unseen field member (by simpa using again)
        rw [standing_cons_of_mem answers] at none
        cases none
      · next new =>
        simp only [bind_eq_ok_iff]
        constructor
        · rintro ⟨seen', set, read, last⟩
          obtain ⟨unseen, gathers⟩ := ih.mp ⟨seen', last⟩
          refine ⟨fun other there before => ?_,
            unseen field member List.mem_cons_self, set, read, gathers⟩
          have differ : other ≠ field := by
            rintro rfl
            exact new (by simpa using before)
          rw [same there differ]
          exact unseen other there (List.mem_cons_of_mem _ before)
        · rintro ⟨unseen, none, set, read, gathers⟩
          have still (other) (there : other ∈ fields) (before : other.name ∈ field.name :: seen) :
              standing other.keys rest = [] := by
            by_cases own : other = field
            · rw [own, none]
            · rw [← same there own]
              exact unseen other there
                ((List.mem_cons.mp before).resolve_left (others other there own).2)
          obtain ⟨seen', last⟩ := ih.mpr ⟨still, gathers⟩
          exact ⟨seen', set, read, last⟩

/-- The names of the fields for which something stands are the ones that were seen. -/
theorem mem_seen_iff (independent : fields.Pairwise Independent) {entries : Entries Doc}
    {seen seen' : List String} (read : readEntries fields a seen entries = .ok (b, seen'))
    (member : field ∈ fields) :
    field.name ∈ seen' ↔ field.name ∈ seen ∨ standing field.keys entries ≠ [] := by
  induction entries generalizing a seen with
  | nil =>
    cases read
    simp [standing]
  | cons entry rest ih =>
    obtain ⟨key, doc⟩ := entry
    rw [readEntries] at read
    rcases find?_cases independent key with ⟨none, foreign⟩ | ⟨next, _, found, answers, others⟩
    · rw [none] at read
      rw [standing_cons_of_notMem (foreign field member), ih read]
    · rw [found] at read
      dsimp only at read
      split at read
      · cases read
      · obtain ⟨set, _, last⟩ := bind_eq_ok_iff.mp read
        rw [ih last, List.mem_cons]
        by_cases same : field = next
        · rw [same, standing_cons_of_mem answers]
          simp
        · obtain ⟨foreign, differ⟩ := others field member same
          rw [standing_cons_of_notMem foreign]
          simp [differ]

/-- No required field has not been seen. -/
theorem none_missing_iff (independent : fields.Pairwise Independent) {entries : Entries Doc}
    {seen : List String} (read : readEntries fields a [] entries = .ok (b, seen)) :
    fields.find? (fun field => field.required && !seen.contains field.name) = none ↔
      Complete fields (fields.map fun field => standing field.keys entries) := by
  rw [Complete, List.forall₂_map_right_iff, List.forall₂_same, List.find?_eq_none]
  refine forall₂_congr fun field member => ?_
  have occurs : field.name ∈ seen ↔ standing field.keys entries ≠ [] := by
    simpa using mem_seen_iff independent read member
  simp [← occurs]

/-- The items of a list are read into the first fields. -/
theorem readItems_eq_ok_iff {origin : Origin} {expected : String} {length index : Nat} {tail : Tail}
    {items : List Doc} :
    readItems origin expected length tail index fields a items = .ok b ↔
      tail = .closed ∧ items.length ≤ fields.length ∧
        Complete fields (inOrder fields.length items) ∧
        Gathers fields (inOrder fields.length items) a b := by
  induction fields generalizing items index a with
  | nil =>
    have nothing : Gathers [] [] a b ↔ a = b := gathers_nothing
    cases items with
    | nil => cases tail <;> simp [readItems, faulty, Complete, inOrder_none, nothing]
    | cons item items => cases origin <;> simp [readItems, faulty, fail]
  | cons field fields ih =>
    cases items with
    | nil =>
      simp only [readItems, bind_eq_ok_iff, Tail.decode_eq_ok_iff, List.length_cons, inOrder_none,
        List.replicate_succ, complete_cons_iff, gathers_cons_iff]
      by_cases required : field.required = true
      · simp [required, fail]
      · simp [required, ih, inOrder_none]
    | cons item items =>
      simp only [readItems, bind_eq_ok_iff, ih, List.length_cons, Nat.add_le_add_iff_right,
        inOrder_cons, complete_cons_iff, gathers_cons_iff]
      constructor
      · rintro ⟨set, read, closed, short, complete, rest⟩
        exact ⟨closed, short, ⟨nofun, complete⟩, .inr ⟨item, set, rfl, read, rest⟩⟩
      · rintro ⟨closed, short, ⟨_, complete⟩, ⟨none, _⟩ | ⟨_, set, one, read, rest⟩⟩
        · cases none
        · cases one
          exact ⟨set, read, closed, short, complete, rest⟩

end Gathering

/-! ### Fields that set a part -/

/-- What is made of at most one value. -/
inductive Reads {τ : Type} (decode : Doc → Decoded τ) : List Doc → Option τ → Prop
  | missing : Reads decode [] none
  | present {doc : Doc} {t : τ} (read : decode doc = .ok t) : Reads decode [doc] (some t)

/-- A field sets a part to what is decoded. -/
def Sets {τ : Type} (field : StructField σ) (decode : Doc → Decoded τ) (assign : τ → σ → σ) :
    Prop :=
  ∀ doc, field.read doc = do
    let t ← decode doc
    .ok (assign t)

section Parts

variable {τ υ : Type} {decode : Doc → Decoded τ} {assign : τ → σ → σ} {decode' : Doc → Decoded υ}
  {assign' : υ → σ → σ}

theorem Sets.read_eq_ok_iff (sets : field.Sets decode assign) {doc : Doc} {set : σ → σ} :
    field.read doc = .ok set ↔ ∃ t, decode doc = .ok t ∧ assign t = set := by
  rw [sets, bind_eq_ok_iff]
  simp only [Except.ok.injEq]

theorem Independent.of_sets (sets : one.Sets decode assign) (also : other.Sets decode' assign')
    (apart : ∀ key ∈ one.keys, key ∉ other.keys)
    (commute : ∀ t u a, assign t (assign' u a) = assign' u (assign t a)) :
    Independent one other where
  apart := apart
  commute := by
    intro doc doc' set set' read read' a
    obtain ⟨t, _, rfl⟩ := sets.read_eq_ok_iff.mp read
    obtain ⟨u, _, rfl⟩ := also.read_eq_ok_iff.mp read'
    exact commute t u a

theorem Sets.gathers_iff (sets : field.Sets decode assign) {docs : List (List Doc)} {a b : σ} :
    Gathers (field :: fields) docs a b ↔
      ∃ values rest part, docs = values :: rest ∧ Reads decode values part ∧
        Gathers fields rest (part.elim a (assign · a)) b := by
  constructor
  · rintro (_ | rest | ⟨read, rest⟩)
    · exact ⟨_, _, none, rfl, .missing, rest⟩
    · obtain ⟨t, decoded, rfl⟩ := sets.read_eq_ok_iff.mp read
      exact ⟨_, _, some t, rfl, .present decoded, rest⟩
  · rintro ⟨_, _, _, rfl, _ | decoded, rest⟩
    · exact .missing rest
    · exact .present (sets.read_eq_ok_iff.mpr ⟨_, decoded, rfl⟩) rest

end Parts

end StructField

/-- A structure is accepted from what a document provides for its fields, in whatever order. -/
theorem Doc.decodeStruct_eq_ok_iff {σ : Type} {fields : List (StructField σ)}
    (independent : fields.Pairwise StructField.Independent) {origin : Origin} {name : String}
    {start a : σ} {doc : Doc} :
    doc.decodeStruct origin name fields start = .ok a ↔
      ∃ docs, doc.Provides (fields.map StructField.keys) docs ∧
        StructField.Complete fields docs ∧ StructField.Gathers fields docs start a := by
  cases doc with
  | object entries tail =>
    have provided : (fields.map StructField.keys).map (standing · entries) =
        fields.map fun field => standing field.keys entries := List.map_map ..
    simp only [decodeStruct, bind_eq_ok_iff, Tail.decode_eq_ok_iff, provides_object_iff, provided]
    constructor
    · rintro ⟨⟨g, seen⟩, read, _, rfl, last⟩
      split at last
      · cases last
      · next none =>
        cases last
        exact ⟨_, ⟨rfl, rfl⟩, (StructField.none_missing_iff independent read).mp none,
          ((StructField.readEntries_eq_ok_iff independent).mp ⟨seen, read⟩).2⟩
    · rintro ⟨_, ⟨rfl, rfl⟩, complete, gathers⟩
      obtain ⟨seen, read⟩ := (StructField.readEntries_eq_ok_iff independent).mpr
        ⟨fun _ _ none => absurd none List.not_mem_nil, gathers⟩
      refine ⟨(a, seen), read, (), rfl, ?_⟩
      dsimp only
      rw [(StructField.none_missing_iff independent read).mpr complete]
  | array items tail =>
    rw [decodeStruct, StructField.readItems_eq_ok_iff]
    simp only [provides_array_iff, List.length_map]
    constructor
    · rintro ⟨closed, short, complete, gathers⟩
      exact ⟨_, ⟨closed, short, rfl⟩, complete, gathers⟩
    · rintro ⟨_, ⟨closed, short, rfl⟩, complete, gathers⟩
      exact ⟨closed, short, complete, gathers⟩
  | oddKey | null | bool | int | float | string | broken | brokenWord =>
    refine iff_of_false (by simp [decodeStruct, mismatch, fail, faulty]) ?_
    rintro ⟨_, ⟨⟩, _⟩

end SqlMapper.Json
