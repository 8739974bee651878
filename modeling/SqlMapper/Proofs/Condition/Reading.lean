import SqlMapper.Proofs.Condition.Atom

/-! # Written predicates read back

The text of a predicate is cut into the tokens of its parts, and these are read as the expression
that the tree of the predicate stands for, its parentheses left out. For this every part of a join
must bind tighter than the join, by itself or in parentheses; `Predicate.Binds` says so, level by
level.
-/

namespace SqlMapper

open Text

namespace Predicate

def atoms : Predicate → List Atom
  | .atom a => [a]
  | .paren p => p.atoms
  | .and p q => p.atoms ++ q.atoms
  | .or p q => p.atoms ++ q.atoms

def Readable (d : Dialect) (p : Predicate) : Prop := ∀ a ∈ p.atoms, a.Readable d

/-- What a predicate says. -/
def expression : Predicate → Expression
  | .atom a => a.expression
  | .paren p => p.expression
  | .and p q => .and p.expression q.expression
  | .or p q => .or p.expression q.expression

def tokens : Predicate → List Token
  | .atom a => a.tokens
  | .paren p => .symbol "(" :: p.tokens ++ [.symbol ")"]
  | .and p q => p.tokens ++ .word "AND" :: q.tokens
  | .or p q => p.tokens ++ .word "OR" :: q.tokens

/-- A predicate that is read whole at a level. -/
inductive Binds : Level → Predicate → Prop
  | atom {level a} : Binds level (.atom a)
  | paren {level p} (inner : Binds .whole p) : Binds level (.paren p)
  | and {level p q} (joins : level ≠ .factor) (first : Binds .factor p) (second : Binds .term q) :
      Binds level (.and p q)
  | or {p q} (first : Binds .term p) (second : Binds .whole q) : Binds .whole (.or p q)

theorem Binds.of_factor {level : Level} {p : Predicate} (binds : Binds .factor p) :
    Binds level p := by
  cases binds with
  | atom => exact .atom
  | paren inner => exact .paren inner
  | and joins => exact absurd rfl joins

theorem Binds.whole {level : Level} {p : Predicate} (binds : Binds level p) :
    Binds .whole p := by
  cases binds with
  | atom => exact .atom
  | paren inner => exact .paren inner
  | and joins first second => exact .and (by decide) first second
  | or first second => exact .or first second

end Predicate

namespace Dialect

variable {d : Dialect}

/-- What a predicate writes is cut into its tokens. -/
theorem tokens?_predicate (known : d.IsKnown) {p : Predicate} (readable : p.Readable d) :
    d.tokens? (d.predicate p) = some p.tokens := by
  induction p with
  | atom a => exact tokens?_atom known (readable a (List.mem_singleton_self a))
  | paren p ih =>
    have text : d.predicate (.paren p) = ['('] ++ (d.predicate p ++ [')']) := by simp [predicate]
    rw [text, tokens?_append_of_scan (scan_open known), tokens?_append_close known (ih readable)]
    rfl
  | and p q ihp ihq =>
    have joined : d.scan .between (' ' :: "AND ".toList) = some ([.word "AND"], .between) := by
      rcases known with rfl | rfl <;> rfl
    have text : d.predicate (.and p q) =
        d.predicate p ++ ' ' :: ("AND ".toList ++ d.predicate q) := by simp [predicate]
    have first := ihp fun a member => readable a (List.mem_append_left _ member)
    have second := ihq fun a member => readable a (List.mem_append_right _ member)
    rw [text, tokens?_append_between known first (by decide) joined second]
    rfl
  | or p q ihp ihq =>
    have joined : d.scan .between (' ' :: "OR ".toList) = some ([.word "OR"], .between) := by
      rcases known with rfl | rfl <;> rfl
    have text : d.predicate (.or p q) =
        d.predicate p ++ ' ' :: ("OR ".toList ++ d.predicate q) := by simp [predicate]
    have first := ihp fun a member => readable a (List.mem_append_left _ member)
    have second := ihq fun a member => readable a (List.mem_append_right _ member)
    rw [text, tokens?_append_between known first (by decide) joined second]
    rfl

end Dialect

/-! ## Levels -/

/-- How far a level is from the first one. -/
def Level.depth : Level → Nat
  | .whole => 0
  | .term => 1
  | .factor => 2

/-- Tokens that are read whole at a level, as far as the bound reaches and before anything that
ends the level. -/
def Level.Reads (level : Level) (ts : List Token) (e : Expression) : Prop :=
  ∀ n rest, 3 * ts.length ≤ n + level.depth → level.endsBefore rest →
    readLevel n level (ts ++ rest) = some (e, rest)

theorem readLevel_term_of_factor {n : Nat} {ts rest : List Token} {e : Expression}
    (read : readLevel n .factor ts = some (e, rest)) (ends : Level.term.endsBefore rest) :
    readLevel (n + 1) .term ts = some (e, rest) := by
  cases rest with
  | nil => simp [readLevel, read]
  | cons t rest =>
    cases t with
    | word w =>
      obtain rfl : w = "OR" := ends
      simp [readLevel, read]
    | _ => simp [readLevel, read]

theorem readLevel_whole_of_term {n : Nat} {ts rest : List Token} {e : Expression}
    (read : readLevel n .term ts = some (e, rest)) (ends : Level.whole.endsBefore rest) :
    readLevel (n + 1) .whole ts = some (e, rest) := by
  cases rest with
  | nil => simp [readLevel, read]
  | cons t rest =>
    cases t with
    | word w => exact ends.elim
    | _ => simp [readLevel, read]

theorem Level.endsBefore.term {rest : List Token} (ends : Level.whole.endsBefore rest) :
    Level.term.endsBefore rest := by
  cases rest with
  | nil => trivial
  | cons t rest => cases t <;> simp_all [Level.endsBefore]

theorem Level.Reads.whole {ts : List Token} {e : Expression} (reads : Level.term.Reads ts e)
    (nonempty : ts ≠ []) : Level.whole.Reads ts e := by
  intro n rest bound ends
  have length : 0 < ts.length := List.length_pos_iff.mpr nonempty
  simp only [Level.depth] at bound
  obtain ⟨k, rfl⟩ : ∃ k, n = k + 1 := ⟨n - 1, by omega⟩
  exact readLevel_whole_of_term (reads k rest (by simp only [Level.depth]; omega) ends.term) ends

theorem Level.Reads.of_factor {ts : List Token} {e : Expression} (reads : Level.factor.Reads ts e)
    (nonempty : ts ≠ []) (level : Level) : level.Reads ts e := by
  have term : Level.term.Reads ts e := by
    intro n rest bound ends
    have length : 0 < ts.length := List.length_pos_iff.mpr nonempty
    simp only [Level.depth] at bound
    obtain ⟨k, rfl⟩ : ∃ k, n = k + 1 := ⟨n - 1, by omega⟩
    exact readLevel_term_of_factor
      (reads k rest (by simp only [Level.depth]; omega) ends.factor) ends
  cases level with
  | factor => exact reads
  | term => exact term
  | whole => exact term.whole nonempty

/-! ## Predicates -/

theorem Atom.tokens_shape (a : Atom) :
    ∃ first more, a.tokens = first :: more ∧ ∀ s, first ≠ .symbol s := by
  have column (field : String) (tail : List Token) : ∃ first more,
      Token.separated "." (path field) ++ tail = first :: more ∧ ∀ s, first ≠ .symbol s := by
    obtain ⟨name, names, shape⟩ := List.exists_cons_of_ne_nil (path_ne_nil field)
    rw [shape]
    cases names <;> exact ⟨.name name, _, rfl, by simp⟩
  cases a with
  | constant holds => exact ⟨_, [], rfl, by simp⟩
  | isNull field => exact column field _
  | compare field token value => simpa only [tokens, List.append_assoc] using column field _
  | member field negated values => simpa only [tokens, List.append_assoc] using column field _
  | range field function low high => simpa only [tokens, List.append_assoc] using column field _

theorem Atom.reads {d : Dialect} {a : Atom} (readable : a.Readable d) :
    Level.factor.Reads a.tokens a.expression := by
  intro n rest bound ends
  obtain ⟨first, more, shape, notSymbol⟩ := a.tokens_shape
  have read := readAtom_tokens readable ends
  rw [shape] at bound read ⊢
  simp only [Level.depth, List.length_cons] at bound
  obtain ⟨k, rfl⟩ : ∃ k, n = k + 1 := ⟨n - 1, by omega⟩
  cases first with
  | symbol s => exact absurd rfl (notSymbol s)
  | _ => exact read

theorem Predicate.tokens_ne_nil (p : Predicate) : p.tokens ≠ [] := by
  induction p with
  | atom a =>
    obtain ⟨first, more, shape, _⟩ := a.tokens_shape
    simp [tokens, shape]
  | _ => simp [tokens]

theorem Predicate.reads_paren {p : Predicate} (inner : Level.whole.Reads p.tokens p.expression) :
    Level.factor.Reads (Predicate.paren p).tokens p.expression := by
  intro n rest bound ends
  simp only [tokens, Level.depth, List.length_cons, List.length_append, List.length_nil] at bound
  obtain ⟨k, rfl⟩ : ∃ k, n = k + 1 := ⟨n - 1, by omega⟩
  have read := inner k (.symbol ")" :: rest) (by simp only [Level.depth]; omega) rfl
  simp [tokens, readLevel, read]

theorem Predicate.reads_and {p q : Predicate} (first : Level.factor.Reads p.tokens p.expression)
    (second : Level.term.Reads q.tokens q.expression) :
    Level.term.Reads (Predicate.and p q).tokens (.and p.expression q.expression) := by
  intro n rest bound ends
  simp only [tokens, Level.depth, List.length_cons, List.length_append] at bound
  obtain ⟨k, rfl⟩ : ∃ k, n = k + 1 := ⟨n - 1, by omega⟩
  have left := first k (.word "AND" :: (q.tokens ++ rest)) (by simp only [Level.depth]; omega)
    (.inl rfl)
  have right := second k rest (by simp only [Level.depth]; omega) ends
  simp [tokens, readLevel, left, right]

theorem Predicate.reads_or {p q : Predicate} (first : Level.term.Reads p.tokens p.expression)
    (second : Level.whole.Reads q.tokens q.expression) :
    Level.whole.Reads (Predicate.or p q).tokens (.or p.expression q.expression) := by
  intro n rest bound ends
  simp only [tokens, Level.depth, List.length_cons, List.length_append] at bound
  obtain ⟨k, rfl⟩ : ∃ k, n = k + 1 := ⟨n - 1, by omega⟩
  have left := first k (.word "OR" :: (q.tokens ++ rest)) (by simp only [Level.depth]; omega) rfl
  have right := second k rest (by simp only [Level.depth]; omega) ends
  simp [tokens, readLevel, left, right]

/-- The tokens of a predicate are read as what the predicate says. -/
theorem Predicate.Binds.reads {d : Dialect} {level : Level} {p : Predicate}
    (binds : p.Binds level) (readable : p.Readable d) : level.Reads p.tokens p.expression := by
  induction binds with
  | @atom level a =>
    have factor := Atom.reads (readable a (List.mem_singleton_self a))
    exact factor.of_factor (tokens_ne_nil (.atom a)) level
  | paren inner ih => exact (reads_paren (ih readable)).of_factor (tokens_ne_nil _) _
  | @and level p q joins first second ihp ihq =>
    have term := reads_and (ihp fun a member => readable a (List.mem_append_left _ member))
      (ihq fun a member => readable a (List.mem_append_right _ member))
    cases level with
    | factor => exact absurd rfl joins
    | term => exact term
    | whole => exact term.whole (tokens_ne_nil _)
  | or first second ihp ihq =>
    exact reads_or (ihp fun a member => readable a (List.mem_append_left _ member))
      (ihq fun a member => readable a (List.mem_append_right _ member))

/-- The text of a condition reads back, all of it, as what its predicate says. -/
theorem Dialect.ofClause?_condition {d : Dialect} (known : d.IsKnown) {p : Predicate}
    (readable : p.Readable d) (binds : p.Binds .whole) :
    (d.tokens? (d.condition p)).bind Expression.ofClause? = some p.expression := by
  have keyword : d.scan .between "WHERE ".toList = some ([.word "WHERE"], .between) := by
    rcases known with rfl | rfl <;> rfl
  have read := binds.reads readable (3 * p.tokens.length) [] (by simp [Level.depth]) trivial
  rw [List.append_nil] at read
  have written : d.condition p = "WHERE ".toList ++ d.predicate p := rfl
  rw [written, tokens?_append_of_scan keyword, tokens?_predicate known readable]
  simp [Expression.ofClause?, Expression.ofTokens?, read]

end SqlMapper
