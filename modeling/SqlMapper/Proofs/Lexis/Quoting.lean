import SqlMapper.Proofs.Lexis.Reference

/-! # Quoted names are told apart

The reader of quoted names knows nothing but the quote, and the point between the names of a field.
At a quote it looks one character ahead: two quotes are one character of the name, and a lone quote
is the end. So a text starts with a quoted name in at most one way, whatever the quote is and
whatever the name is made of, and a row of names with points between them is found again name by
name. What follows a name can at most prolong it; nothing that was written for it is left outside.
-/

namespace SqlMapper

open Text

namespace Dialect

/-- Reads a name behind its first quote and leaves what follows its last one. -/
def readDoubled? (quote : Char) : List Char → Option (List Char × List Char)
  | [] => none
  | [c] => if c = quote then some ([], []) else none
  | c :: next :: rest =>
      if c ≠ quote then (readDoubled? quote (next :: rest)).map fun read => (c :: read.1, read.2)
      else if next = quote then (readDoubled? quote rest).map fun read => (c :: read.1, read.2)
      else some ([], next :: rest)

/-- Reads one quoted name and leaves what follows it. -/
def readName? (d : Dialect) : List Char → Option (String × List Char)
  | [] => none
  | c :: cs =>
      if c = d.identifierQuote then
        (readDoubled? d.identifierQuote cs).map fun read => (String.ofList read.1, read.2)
      else none

/-! ## One name -/

section Names

variable {d : Dialect} {quote : Char} {cs rest : List Char}

/-- What is written for the characters of a name is read as them, whatever follows. -/
theorem readDoubled?_append (name : List Char) (nonempty : cs ≠ []) :
    readDoubled? quote (name.flatMap (doubleQuote quote) ++ cs) =
      (readDoubled? quote cs).map fun read => (name ++ read.1, read.2) := by
  induction name with
  | nil => simp
  | cons c name ih =>
    obtain ⟨next, more, shape⟩ := List.exists_cons_of_ne_nil
      (List.append_ne_nil_of_right_ne_nil (name.flatMap (doubleQuote quote)) nonempty)
    rw [List.flatMap_cons, List.append_assoc, doubleQuote]
    rw [shape] at ih ⊢
    split
    · next same => simp [readDoubled?, ih, same, Function.comp_def]
    · next differ => simp [readDoubled?, ih, differ, Function.comp_def]

theorem readDoubled?_lone (lone : rest.head? ≠ some quote) :
    readDoubled? quote (quote :: rest) = some ([], rest) := by
  cases rest with
  | nil => simp [readDoubled?]
  | cons next rest =>
    have differ : next ≠ quote := fun same => lone (congrArg some same)
    simp [readDoubled?, differ]

/-- A name is read exactly where it is written and a lone quote follows. -/
theorem readDoubled?_eq_some_iff {name : List Char} :
    readDoubled? quote cs = some (name, rest) ↔
      cs = name.flatMap (doubleQuote quote) ++ quote :: rest ∧ rest.head? ≠ some quote := by
  constructor
  · intro read
    fun_induction readDoubled? quote cs generalizing name with
    | case1 => cases read
    | case2 =>
      cases read
      exact ⟨rfl, nofun⟩
    | case3 => cases read
    | case4 c next more differ ih =>
      obtain ⟨⟨name, _⟩, inner, whole⟩ := Option.map_eq_some_iff.mp read
      cases whole
      obtain ⟨shape, lone⟩ := ih inner
      exact ⟨by simp [doubleQuote, differ, shape], lone⟩
    | case5 c more equal ih =>
      obtain rfl : c = quote := not_not.mp equal
      obtain ⟨⟨name, _⟩, inner, whole⟩ := Option.map_eq_some_iff.mp read
      cases whole
      obtain ⟨shape, lone⟩ := ih inner
      exact ⟨by simp [doubleQuote, shape], lone⟩
    | case6 c next more equal differ =>
      obtain rfl : c = quote := not_not.mp equal
      cases read
      exact ⟨rfl, fun same => differ (Option.some.inj same)⟩
  · rintro ⟨rfl, lone⟩
    rw [readDoubled?_append _ (List.cons_ne_nil _ _), readDoubled?_lone lone]
    simp

/-- A written name is its first quote and what is read behind it. -/
theorem identifier_append (d : Dialect) (name : String) (rest : List Char) :
    d.identifier name ++ rest = d.identifierQuote ::
      (name.toList.flatMap (doubleQuote d.identifierQuote) ++ d.identifierQuote :: rest) := by
  simp [identifier, quoteName]

/-- A text starts with a quoted name in at most one way, and then this name is read. -/
theorem readName?_eq_some_iff {name : String} : d.readName? cs = some (name, rest) ↔
    cs = d.identifier name ++ rest ∧ rest.head? ≠ some d.identifierQuote := by
  rw [identifier_append]
  cases cs with
  | nil => simp [readName?]
  | cons c cs =>
    rw [readName?, List.cons.injEq]
    split
    · next same =>
      simp only [Option.map_eq_some_iff, Prod.exists, Prod.mk.injEq, same, true_and]
      constructor
      · rintro ⟨chars, _, read, rfl, rfl⟩
        rw [String.toList_ofList]
        exact readDoubled?_eq_some_iff.mp read
      · intro written
        exact ⟨_, _, readDoubled?_eq_some_iff.mpr written, String.ofList_toList, rfl⟩
    · next differ =>
      exact iff_of_false (Option.some_ne_none _).symm fun written => differ written.1.1

/-- Whatever follows a name can prolong it but cannot cut it short. -/
theorem readName?_append {name read : String} {follow : List Char}
    (found : d.readName? (d.identifier name ++ follow) = some (read, rest)) :
    name.toList <+: read.toList ∧ rest <:+ follow := by
  rw [identifier_append, readName?, if_pos rfl,
    readDoubled?_append _ (List.cons_ne_nil _ _), Option.map_map] at found
  obtain ⟨⟨more, _⟩, inner, whole⟩ := Option.map_eq_some_iff.mp found
  cases whole
  refine ⟨by simp, ?_⟩
  obtain ⟨shape, lone⟩ := readDoubled?_eq_some_iff.mp inner
  cases more with
  | nil =>
    obtain ⟨_, rfl⟩ := List.cons.inj shape
    exact List.suffix_rfl
  | cons c more =>
    rw [List.flatMap_cons, List.append_assoc, doubleQuote] at shape
    split at shape
    · obtain ⟨_, rfl⟩ := List.cons.inj shape
      exact ⟨d.identifierQuote :: (more.flatMap (doubleQuote d.identifierQuote) ++
        [d.identifierQuote]), by simp⟩
    · next differ => exact absurd (List.cons.inj shape).1.symm differ

end Names

/-! ## Names with points between them -/

theorem length_of_readName? {d : Dialect} {cs rest : List Char} {name : String}
    (read : d.readName? cs = some (name, rest)) : rest.length < cs.length := by
  rw [(readName?_eq_some_iff.mp read).1, identifier_append]
  simp
  omega

/-- Reads quoted names with points between them and leaves what follows. -/
def readPath? (d : Dialect) (cs : List Char) : Option (List String × List Char) :=
  match _ : d.readName? cs with
  | none => none
  | some (name, rest) =>
      if rest.head? = some '.' then
        (d.readPath? rest.tail).map fun read => (name :: read.1, read.2)
      else some ([name], rest)
termination_by cs.length
decreasing_by
  have shorter := length_of_readName? ‹d.readName? cs = _›
  rw [List.length_tail]
  omega

section Paths

variable {d : Dialect} {cs rest : List Char} {names : List String}

theorem readPath?_of_name {name : String} (found : d.readName? cs = some (name, rest)) :
    d.readPath? cs =
      if rest.head? = some '.' then
        (d.readPath? rest.tail).map fun read => (name :: read.1, read.2)
      else some ([name], rest) := by
  rw [readPath?]
  split
  · next none => rw [found] at none; cases none
  · next same => rw [found] at same; cases same; rfl

theorem exists_readName? (found : d.readPath? cs = some (names, rest)) :
    ∃ name behind, d.readName? cs = some (name, behind) := by
  rw [readPath?] at found
  split at found
  · cases found
  · next name behind first => exact ⟨name, behind, first⟩

theorem joined_cons (name : String) (nonempty : names ≠ []) (rest : List Char) :
    joinWith ['.'] ((name :: names).map d.identifier) ++ rest =
      d.identifier name ++ '.' :: (joinWith ['.'] (names.map d.identifier) ++ rest) := by
  obtain ⟨next, others, rfl⟩ := List.exists_cons_of_ne_nil nonempty
  simp [joinWith]

/-- A point is no quote, so it ends the name before it, and the reader goes on behind it. -/
theorem readPath?_cons (apart : d.identifierQuote ≠ '.') (name : String) (nonempty : names ≠ [])
    (rest : List Char) :
    d.readPath? (joinWith ['.'] ((name :: names).map d.identifier) ++ rest) =
      (d.readPath? (joinWith ['.'] (names.map d.identifier) ++ rest)).map fun read =>
        (name :: read.1, read.2) := by
  have lone (rest : List Char) : ('.' :: rest).head? ≠ some d.identifierQuote := by
    simpa using apart.symm
  rw [joined_cons name nonempty]
  exact readPath?_of_name (readName?_eq_some_iff.mpr ⟨rfl, lone _⟩)

/-- A text starts in at most one way with quoted names that have points between them. -/
theorem readPath?_eq_some_iff (apart : d.identifierQuote ≠ '.') :
    d.readPath? cs = some (names, rest) ↔
      names ≠ [] ∧ cs = joinWith ['.'] (names.map d.identifier) ++ rest ∧
        rest.head? ≠ some d.identifierQuote ∧ rest.head? ≠ some '.' := by
  constructor
  · intro read
    fun_induction readPath? d cs generalizing names with
    | case1 => cases read
    | case2 cs name behind found point ih =>
      obtain ⟨⟨more, _⟩, inner, whole⟩ := Option.map_eq_some_iff.mp read
      cases whole
      obtain ⟨nonempty, shape, ends⟩ := ih inner
      obtain ⟨tail, rfl⟩ := List.head?_eq_some_iff.mp point
      rw [List.tail_cons] at shape
      refine ⟨List.cons_ne_nil _ _, ?_, ends⟩
      rw [joined_cons name nonempty, ← shape]
      exact (readName?_eq_some_iff.mp found).1
    | case3 cs name behind found noPoint =>
      cases read
      obtain ⟨shape, lone⟩ := readName?_eq_some_iff.mp found
      exact ⟨List.cons_ne_nil _ _, shape, lone, noPoint⟩
  · rintro ⟨nonempty, rfl, lone, noPoint⟩
    induction names with
    | nil => exact absurd rfl nonempty
    | cons name names ih =>
      rcases eq_or_ne names [] with rfl | more
      · have found : d.readName? (d.identifier name ++ rest) = some (name, rest) :=
          readName?_eq_some_iff.mpr ⟨rfl, lone⟩
        exact (readPath?_of_name found).trans (if_neg noPoint)
      · rw [readPath?_cons apart name more, ih more]
        rfl

/-- Whatever follows a row of names, no part of the row is left to be read. -/
theorem readPath?_append (apart : d.identifierQuote ≠ '.') {written : List String}
    (nonempty : written ≠ []) {follow : List Char}
    (found : d.readPath? (joinWith ['.'] (written.map d.identifier) ++ follow) =
      some (names, rest)) : rest <:+ follow := by
  induction written generalizing names with
  | nil => exact absurd rfl nonempty
  | cons name written ih =>
    rcases eq_or_ne written [] with rfl | more
    · obtain ⟨read, behind, first⟩ := exists_readName? found
      have suffix := (readName?_append first).2
      have path := (readPath?_of_name first).symm.trans found
      split at path
      · next point =>
        obtain ⟨⟨others, after⟩, inner, whole⟩ := Option.map_eq_some_iff.mp path
        cases whole
        obtain ⟨tail, rfl⟩ := List.head?_eq_some_iff.mp point
        have last : after <:+ tail := ⟨_, ((readPath?_eq_some_iff apart).mp inner).2.1.symm⟩
        exact (last.trans (List.suffix_cons '.' tail)).trans suffix
      · cases path
        exact suffix
    · rw [readPath?_cons apart name more] at found
      obtain ⟨⟨others, _⟩, inner, whole⟩ := Option.map_eq_some_iff.mp found
      cases whole
      exact ih more inner

/-- A field is written as the row of the names in its path. -/
theorem field_eq (d : Dialect) (field : String) :
    d.field field = joinWith ['.'] ((path field).map d.identifier) := by
  simp [Dialect.field, path, identifier, Function.comp_def]

end Paths

/-- The names in the path of a field are the ones without points that the field is made of. -/
theorem path_eq_iff {field : String} {names : List String} : path field = names ↔
    names ≠ [] ∧ ofPath names = field ∧ ∀ name ∈ names, '.' ∉ name.toList := by
  constructor
  · rintro rfl
    refine ⟨path_ne_nil field, ofPath_path field, fun name member => ?_⟩
    obtain ⟨piece, inside, rfl⟩ := List.mem_map.mp member
    rw [String.toList_ofList]
    exact notMem_of_mem_splitAt inside
  · rintro ⟨nonempty, rfl, plain⟩
    have pieces : splitAt '.' (joinWith ['.'] (names.map String.toList)) =
        names.map String.toList :=
      splitAt_joinWith (by simpa using nonempty) (by simpa using plain)
    rw [path, ofPath, String.toList_ofList, pieces]
    simp [Function.comp_def]

/-- Quoted names are read where they are written and nowhere else, and so are rows of them with
points in between; a field is read as the names between its points. So different names, and
different fields, are written differently, and whatever follows them, none ends its own quotes. -/
theorem quoting_uniquely_decodable (d : Dialect) (apart : d.identifierQuote ≠ '.') :
    (∀ cs name rest, d.readName? cs = some (name, rest) ↔
      cs = d.identifier name ++ rest ∧ rest.head? ≠ some d.identifierQuote) ∧
    (∀ cs names rest, d.readPath? cs = some (names, rest) ↔
      names ≠ [] ∧ cs = joinWith ['.'] (names.map d.identifier) ++ rest ∧
        rest.head? ≠ some d.identifierQuote ∧ rest.head? ≠ some '.') ∧
    (∀ field rest, rest.head? ≠ some d.identifierQuote → rest.head? ≠ some '.' →
      d.readPath? (d.field field ++ rest) = some (path field, rest)) ∧
    (∀ field names, path field = names ↔
      names ≠ [] ∧ ofPath names = field ∧ ∀ name ∈ names, '.' ∉ name.toList) ∧
    Function.Injective d.identifier ∧ Function.Injective d.field ∧
    (∀ name follow read rest, d.readName? (d.identifier name ++ follow) = some (read, rest) →
      name.toList <+: read.toList ∧ rest <:+ follow) ∧
    ∀ field follow names rest, d.readPath? (d.field field ++ follow) = some (names, rest) →
      rest <:+ follow := by
  have fields (field : String) (rest : List Char) (lone : rest.head? ≠ some d.identifierQuote)
      (noPoint : rest.head? ≠ some '.') :
      d.readPath? (d.field field ++ rest) = some (path field, rest) :=
    (readPath?_eq_some_iff apart).mpr ⟨path_ne_nil field, by rw [field_eq], lone, noPoint⟩
  have names (name : String) : d.readName? (d.identifier name) = some (name, []) :=
    readName?_eq_some_iff.mpr ⟨(List.append_nil _).symm, nofun⟩
  refine ⟨fun _ _ _ => readName?_eq_some_iff, fun _ _ _ => readPath?_eq_some_iff apart, fields,
    fun _ _ => path_eq_iff, fun one other same => ?_, fun one other same => ?_,
    fun _ _ _ _ => readName?_append, fun field _ _ _ found => ?_⟩
  · have read := names one
    rw [same, names other] at read
    cases read
    rfl
  · have read := fields one [] nofun nofun
    rw [same, fields other [] nofun nofun] at read
    obtain ⟨paths, _⟩ := Prod.mk.inj (Option.some.inj read)
    rw [← ofPath_path one, ← ofPath_path other, paths]
  · rw [field_eq] at found
    exact readPath?_append apart (path_ne_nil field) found

/-- A name of two quotes, and a field whose path is a quote and two empty names. What follows the
name in the last text is a quote, and so a part of the name. -/
theorem quoting_uniquely_decodable_quotes :
    let d := Dialect.withQuotes "custom" '"' '\x27' false
    d.readName? (d.identifier "\"\"" ++ [' ']) = some ("\"\"", [' ']) ∧
      d.readPath? (d.field "\".." ++ [')']) = some (["\"", "", ""], [')']) ∧
      ∃ read, d.readName? (d.identifier "a" ++ ['"', '.', '"', '.']) = some (read, ['.']) ∧
        "a".toList <+: read.toList := by
  intro d
  have apart : d.identifierQuote ≠ '.' := by decide
  obtain ⟨names, _, fields, paths, _, _, whole, _⟩ := quoting_uniquely_decodable d apart
  have segments : path "\".." = ["\"", "", ""] :=
    (paths _ _).mpr ⟨List.cons_ne_nil _ _, by decide, by decide⟩
  have read : d.readName? (d.identifier "a" ++ ['"', '.', '"', '.']) = some ("a\".", ['.']) := by
    decide
  refine ⟨(names _ _ _).mpr ⟨rfl, by decide⟩, ?_, _, read, (whole _ _ _ _ read).1⟩
  rw [← segments]
  exact fields _ _ (by decide) (by decide)

end Dialect

end SqlMapper
