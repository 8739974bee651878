import SqlMapper.Query.Statement
import SqlMapper.Proofs.Condition.Expression

/-! # Written atoms read back

The text of an atom is cut into the tokens of its column, its operator and its literals, and these
are read as one comparison, or as a constant, whatever may follow it in a condition. Every operator
that criteria can ask for is read whole, and the AND of a range stays with the range.
-/

namespace SqlMapper

open Text

/-! ## Literals -/

/-- The content of a cell as a statement tells it. -/
def Stored.scalar : Stored → Scalar
  | .null => .null
  | .int n => .number (intText n.toInt)
  | .float x => if x.isFinite then .number x.plainText else .null
  | .text s => .text (withoutNul s)
  | .blob bytes => .bytes bytes

@[simp] theorem Stored.scalar?_token (stored : Stored) :
    stored.token.scalar? = some stored.scalar := by
  cases stored with
  | float x => cases finite : x.isFinite <;> simp [token, scalar, finite, Token.scalar?]
  | _ => rfl

/-- A word that stands for a cell is the one for null. -/
theorem Stored.token_eq_word {stored : Stored} {w : String} (word : stored.token = .word w) :
    w = "NULL" := by
  cases stored with
  | null => exact (Token.word.inj word).symm
  | float x =>
    cases finite : x.isFinite with
    | true => simp [token, finite] at word
    | false => simpa [token, finite, eq_comm] using word
  | _ => simp [token] at word

theorem Stored.token_ne_symbol (stored : Stored) (s : String) : stored.token ≠ .symbol s := by
  cases stored with
  | float x => cases finite : x.isFinite <;> simp [token, finite]
  | _ => simp [token]

/-- The cell that a literal writes. Verbatim SQL writes none. -/
def Literal.cell? : Literal → Option Stored
  | .cell stored => some stored
  | .verbatim _ => none

/-- A literal that is read back; null stands in for the ones that are not. -/
def Literal.stored (l : Literal) : Stored := l.cell?.getD .null

def Literal.IsCell (l : Literal) : Prop := l.cell?.isSome = true

theorem Literal.IsCell.eq {l : Literal} (cell : l.IsCell) : l = .cell l.stored := by
  cases l with
  | cell stored => rfl
  | verbatim sql => simp [IsCell, cell?] at cell

theorem Dialect.tokens?_literal {d : Dialect} (known : d.IsKnown) {l : Literal}
    (cell : l.IsCell) : d.tokens? (d.literal l) = some [l.stored.token] := by
  rw [cell.eq]
  exact tokens?_cell known _

/-! ## Operators -/

/-- The tokens of an operator. -/
def operatorTokens (token : String) : List Token :=
  if token ∈ symbolOperators then [.symbol token]
  else (words token.toList).map fun w => .word (String.ofList w)

theorem Dialect.scan_operator {d : Dialect} (known : d.IsKnown) {token : String}
    (listed : token ∈ comparisonTokens) :
    d.scan .between (' ' :: (token.toList ++ [' '])) = some (operatorTokens token, .between) := by
  have generic : ∀ t ∈ comparisonTokens,
      Dialect.generic.scan .between (' ' :: (t.toList ++ [' '])) =
        some (operatorTokens t, .between) := by decide
  have sqlite : ∀ t ∈ comparisonTokens,
      Dialect.sqlite.scan .between (' ' :: (t.toList ++ [' '])) =
        some (operatorTokens t, .between) := by decide
  rcases known with rfl | rfl
  · exact generic token listed
  · exact sqlite token listed

/-- An operator is read whole if a scalar follows. -/
theorem readOperator_tokens {token : String} (listed : token ∈ comparisonTokens)
    (stored : Stored) (rest : List Token) :
    readOperator (operatorTokens token ++ stored.token :: rest) =
      some (token, stored.token :: rest) := by
  have shapes : ∀ t ∈ comparisonTokens,
      (t ∈ symbolOperators ∧ operatorTokens t = [.symbol t]) ∨
      (t ∈ wordOperators ∧ operatorTokens t = [.word t] ∧ (t, "NULL") ∉ negatedOperators) ∨
      ∃ pair ∈ negatedOperators, operatorTokens t = [.word pair.1, .word pair.2] ∧
        pair.1 ++ " " ++ pair.2 = t := by decide
  rcases shapes token listed with ⟨symbol, tokens⟩ | ⟨single, tokens, free⟩ |
    ⟨pair, two, tokens, join⟩
  · simp [tokens, readOperator, symbol]
  · rw [tokens, List.singleton_append]
    cases next : stored.token with
    | word w =>
      obtain rfl := stored.token_eq_word next
      simp [readOperator, single, free]
    | _ => simp [readOperator, single]
  · simp [tokens, readOperator, two, join]

theorem readArguments_comparison {token : String} (listed : token ∈ comparisonTokens)
    (stored : Stored) (rest : List Token) :
    readArguments token (stored.token :: rest) = some ([⟨none, stored.scalar⟩], rest) := by
  have other : ∀ t ∈ comparisonTokens, ¬ (t = "IN" ∨ t = "NOT IN") ∧ t ≠ "BETWEEN" := by decide
  obtain ⟨member, between⟩ := other token listed
  simp [readArguments, member, between]

/-! ## Atoms -/

/-- An argument as it is written, under a function or not. -/
def argumentTokens (function : Option String) (stored : Stored) : List Token :=
  match function with
  | some f => [.word f, .symbol "(", stored.token, .symbol ")"]
  | none => [stored.token]

/-- The members of a list, up to the closing parenthesis. -/
def memberTokens (members : List Stored) : List Token :=
  Token.commas (members.map fun v => [v.token]) ++ [.symbol ")"]

namespace Atom

/-- The atoms that criteria have when every literal is the content of a cell. -/
def Readable (d : Dialect) : Atom → Prop
  | .isNull _ => True
  | .compare _ token value => token ∈ comparisonTokens ∧ value.IsCell
  | .member _ _ values => values ≠ [] ∧ ∀ value ∈ values, value.IsCell
  | .range _ function low high =>
      (function = none ∨ function = some d.dateFunction) ∧ low.IsCell ∧ high.IsCell
  | .constant _ => True

/-- What an atom says. -/
def expression : Atom → Expression
  | .isNull field => .comparison ⟨path field, "IS", [⟨none, .null⟩]⟩
  | .compare field token value => .comparison ⟨path field, token, [⟨none, value.stored.scalar⟩]⟩
  | .member field negated values =>
      .comparison ⟨path field, if negated then "NOT IN" else "IN",
        values.map fun v => ⟨none, v.stored.scalar⟩⟩
  | .range field function low high =>
      .comparison ⟨path field, "BETWEEN",
        [⟨function, low.stored.scalar⟩, ⟨function, high.stored.scalar⟩]⟩
  | .constant holds => .constant holds

def tokens : Atom → List Token
  | .isNull field => Token.separated "." (path field) ++ [.word "IS", .word "NULL"]
  | .compare field token value =>
      Token.separated "." (path field) ++ operatorTokens token ++ [value.stored.token]
  | .member field negated values =>
      Token.separated "." (path field) ++
        (if negated then [.word "NOT", .word "IN"] else [.word "IN"]) ++
        .symbol "(" :: memberTokens (values.map Literal.stored)
  | .range field function low high =>
      Token.separated "." (path field) ++ .word "BETWEEN" :: argumentTokens function low.stored ++
        .word "AND" :: argumentTokens function high.stored
  | .constant holds => [.number (if holds then "1" else "0")]

end Atom

namespace Dialect

variable {d : Dialect}

theorem tokens?_bound (known : d.IsKnown) {function : Option String}
    (usual : function = none ∨ function = some d.dateFunction) {value : Literal}
    (cell : value.IsCell) :
    d.tokens? (d.bound function value) = some (argumentTokens function value.stored) := by
  rcases usual with rfl | rfl
  · exact tokens?_literal known cell
  · have opened : d.scan .between (d.dateFunction.toList ++ ['(']) =
        some ([.word d.dateFunction, .symbol "("], .between) := by
      rcases known with rfl | rfl <;> rfl
    have inner := tokens?_append_close known (tokens?_literal known cell)
    have text : d.bound (some d.dateFunction) value =
        (d.dateFunction.toList ++ ['(']) ++ (d.literal value ++ [')']) := by simp [bound]
    rw [text, tokens?_append_of_scan opened, inner]
    rfl

theorem tokens?_members (known : d.IsKnown) {values : List Literal} (nonempty : values ≠ [])
    (cells : ∀ value ∈ values, value.IsCell) :
    d.tokens? (commaJoined (values.map d.literal) ++ [')']) =
      some (memberTokens (values.map Literal.stored)) := by
  have items := tokens?_joinWith known (scan_comma known)
    (fun value member => tokens?_literal known (cells value member)) nonempty
  rw [commaJoined, tokens?_append_close known items, memberTokens, List.map_map]
  rfl

/-- What an atom writes is cut into its tokens. -/
theorem tokens?_atom (known : d.IsKnown) {a : Atom} (readable : a.Readable d) :
    d.tokens? (d.atom a) = some a.tokens := by
  cases a with
  | isNull field =>
    have tail : d.tokens? (' ' :: "IS NULL".toList) = some [.word "IS", .word "NULL"] := by
      rcases known with rfl | rfl <;> rfl
    change d.tokens? (d.field field ++ ' ' :: "IS NULL".toList) = _
    rw [tokens?_append known _ (tokens?_field known field) (by decide), tail]
    rfl
  | compare field token value =>
    obtain ⟨listed, cell⟩ := readable
    have text : d.atom (.compare field token value) =
        d.field field ++ ' ' :: ((token.toList ++ [' ']) ++ d.literal value) := by simp [atom]
    rw [text, tokens?_append_between known (tokens?_field known field) (by decide)
      (scan_operator known listed) (tokens?_literal known cell), Atom.tokens, List.append_assoc]
  | member field negated values =>
    obtain ⟨nonempty, cells⟩ := readable
    have opened : d.scan .between (' ' :: (if negated then "NOT IN (" else "IN (").toList) =
        some ((if negated then [.word "NOT", .word "IN"] else [.word "IN"]) ++ [.symbol "("],
          .between) := by
      rcases known with rfl | rfl <;> cases negated <;> rfl
    have text : d.atom (.member field negated values) =
        d.field field ++ ' ' :: ((if negated then "NOT IN (" else "IN (").toList ++
          (commaJoined (values.map d.literal) ++ [')'])) := by cases negated <;> simp [atom]
    rw [text, tokens?_append_between known (tokens?_field known field) (by decide) opened
      (tokens?_members known nonempty cells)]
    simp [Atom.tokens]
  | range field function low high =>
    obtain ⟨usual, lowCell, highCell⟩ := readable
    have opened : d.scan .between (' ' :: "BETWEEN ".toList) =
        some ([.word "BETWEEN"], .between) := by rcases known with rfl | rfl <;> rfl
    have joined : d.scan .between (' ' :: "AND ".toList) = some ([.word "AND"], .between) := by
      rcases known with rfl | rfl <;> rfl
    have bounds := tokens?_append_between known (tokens?_bound known usual lowCell) (by decide)
      joined (tokens?_bound known usual highCell)
    have text : d.atom (.range field function low high) =
        d.field field ++ ' ' :: ("BETWEEN ".toList ++ (d.bound function low ++
          ' ' :: ("AND ".toList ++ d.bound function high))) := by simp [atom]
    rw [text, tokens?_append_between known (tokens?_field known field) (by decide) opened bounds]
    simp [Atom.tokens]
  | constant holds => rcases known with rfl | rfl <;> cases holds <;> rfl

end Dialect

/-! ## What follows a condition -/

/-- What may come behind a part of a condition: nothing, a closing parenthesis, or the word of a
join that binds less tightly than the part. -/
def Level.endsBefore : Level → List Token → Prop
  | _, [] => True
  | _, .symbol s :: _ => s = ")"
  | .factor, .word w :: _ => w = "AND" ∨ w = "OR"
  | .term, .word w :: _ => w = "OR"
  | _, _ => False

theorem Level.endsBefore.not_symbol {level : Level} {rest : List Token} {s : String}
    (ends : level.endsBefore rest) (other : s ≠ ")") : ∀ more, rest ≠ .symbol s :: more := by
  rintro more rfl
  cases level <;> exact other ends

theorem Level.endsBefore.factor {level : Level} {rest : List Token}
    (ends : level.endsBefore rest) : Level.factor.endsBefore rest := by
  cases rest with
  | nil => trivial
  | cons t rest => cases t <;> cases level <;> simp_all [Level.endsBefore]

theorem readArgument_tokens (function : Option String) (stored : Stored) {rest : List Token}
    (ends : ∀ more, rest ≠ .symbol "(" :: more) :
    readArgument (argumentTokens function stored ++ rest) =
      some (⟨function, stored.scalar⟩, rest) := by
  cases function with
  | some f => simp [argumentTokens, readArgument]
  | none =>
    simp only [argumentTokens, List.singleton_append]
    cases next : stored.token with
    | word w =>
      have value := stored.scalar?_token
      rw [next] at value
      unfold readArgument
      split
      · next f s t u more same =>
        cases same
        have other : s ≠ "(" := by
          rintro rfl
          exact ends _ rfl
        simp [other, value]
      · simp_all
      · simp_all
    | symbol s => exact absurd next (stored.token_ne_symbol s)
    | _ =>
      have value := stored.scalar?_token
      rw [next] at value
      simp [readArgument, value]

theorem readMembers_tokens {members : List Stored} (nonempty : members ≠ []) (rest : List Token) :
    readMembers (memberTokens members ++ rest) =
      some (members.map fun v => ⟨none, v.scalar⟩, rest) := by
  induction members with
  | nil => exact absurd rfl nonempty
  | cons v members ih =>
    cases members with
    | nil => simp [memberTokens, Token.commas, readMembers]
    | cons next members =>
      have tail := ih (by simp)
      simp only [memberTokens, Token.commas, List.map_cons, List.intercalate_cons_cons,
        List.append_assoc, List.cons_append, List.nil_append] at tail ⊢
      rw [readMembers, Stored.scalar?_token, Option.bind_some, if_pos rfl, tail]
      rfl

/-- A comparison is read part by part: its column, its operator, its arguments. -/
theorem readAtom_comparison {column : List String} (nonempty : column ≠ [])
    {tail after rest : List Token} {operator : String} {arguments : List Argument}
    (noPoint : ∀ more, tail ≠ .symbol "." :: more)
    (second : readOperator tail = some (operator, after))
    (third : readArguments operator after = some (arguments, rest)) :
    readAtom (Token.separated "." column ++ tail) =
      some (.comparison ⟨column, operator, arguments⟩, rest) := by
  have whole : readComparison (Token.separated "." column ++ tail) =
      some (⟨column, operator, arguments⟩, rest) := by
    simp only [readComparison, readNames_separated "." nonempty noPoint, Option.bind_some, second,
      third, Option.map_some]
  obtain ⟨name, names, rfl⟩ := List.exists_cons_of_ne_nil nonempty
  have front : ∃ more, Token.separated "." (name :: names) ++ tail = .name name :: more := by
    cases names <;> exact ⟨_, rfl⟩
  obtain ⟨more, shape⟩ := front
  rw [shape] at whole ⊢
  rw [readAtom, whole, Option.map_some]
  simp

theorem operatorTokens_ne_point {token : String} (listed : token ∈ comparisonTokens)
    (back : List Token) : ∀ more, operatorTokens token ++ back ≠ .symbol "." :: more := by
  have front : ∀ t ∈ comparisonTokens, ∃ first ∈ (operatorTokens t).head?,
      first ≠ .symbol "." := by decide
  obtain ⟨first, head, differ⟩ := front token listed
  intro more same
  obtain ⟨others, shape⟩ := List.head?_eq_some_iff.mp head
  rw [shape, List.cons_append] at same
  exact differ (List.cons.inj same).1

theorem readOperator_between (ts : List Token) :
    readOperator (.word "BETWEEN" :: ts) = some ("BETWEEN", ts) := by
  have single : "BETWEEN" ∈ wordOperators := by decide
  cases ts with
  | nil => simp [readOperator, single]
  | cons t ts => cases t <;> simp [readOperator, single, negatedOperators]

/-- The tokens of an atom are read as what the atom says, and no more is read. -/
theorem readAtom_tokens {d : Dialect} {a : Atom} (readable : a.Readable d) {rest : List Token}
    (ends : Level.factor.endsBefore rest) :
    readAtom (a.tokens ++ rest) = some (a.expression, rest) := by
  have compared (field token : String) (listed : token ∈ comparisonTokens) (stored : Stored) :
      readAtom (Token.separated "." (path field) ++ operatorTokens token ++ [stored.token] ++
        rest) = some (.comparison ⟨path field, token, [⟨none, stored.scalar⟩]⟩, rest) := by
    rw [List.append_assoc, List.append_assoc]
    exact readAtom_comparison (path_ne_nil field) (operatorTokens_ne_point listed _)
      (readOperator_tokens listed stored rest) (readArguments_comparison listed stored rest)
  cases a with
  | isNull field =>
    have operator : operatorTokens "IS" = [.word "IS"] := by decide
    have read := compared field "IS" (by decide) .null
    simpa [operator, Atom.tokens, Atom.expression, Stored.token, Stored.scalar] using read
  | compare field token value => exact compared field token readable.1 value.stored
  | member field negated values =>
    have third : readArguments (if negated then "NOT IN" else "IN")
        (.symbol "(" :: (memberTokens (values.map Literal.stored) ++ rest)) =
          some ((values.map Literal.stored).map fun v => ⟨none, v.scalar⟩, rest) := by
      have some_value : values.map Literal.stored ≠ [] := by simpa using readable.1
      have list := readMembers_tokens some_value rest
      cases negated <;> simpa [readArguments] using list
    have second : readOperator ((if negated then [.word "NOT", .word "IN"] else [.word "IN"]) ++
        .symbol "(" :: (memberTokens (values.map Literal.stored) ++ rest)) =
          some (if negated then "NOT IN" else "IN",
            .symbol "(" :: (memberTokens (values.map Literal.stored) ++ rest)) := by
      cases negated <;> rfl
    have noPoint : ∀ more, (if negated then [.word "NOT", .word "IN"] else [.word "IN"]) ++
        .symbol "(" :: (memberTokens (values.map Literal.stored) ++ rest) ≠
          Token.symbol "." :: more := by cases negated <;> simp
    have read := readAtom_comparison (path_ne_nil field) noPoint second third
    simpa [Atom.tokens, Atom.expression, Function.comp_def] using read
  | range field function low high =>
    have third : readArguments "BETWEEN" (argumentTokens function low.stored ++ .word "AND" ::
        (argumentTokens function high.stored ++ rest)) =
          some ([⟨function, low.stored.scalar⟩, ⟨function, high.stored.scalar⟩], rest) := by
      have noCall : ∀ more, Token.word "AND" :: (argumentTokens function high.stored ++ rest) ≠
          .symbol "(" :: more := by simp
      have first := readArgument_tokens function low.stored noCall
      have last := readArgument_tokens function high.stored (ends.not_symbol (by decide))
      simp [readArguments, readBounds, first, last]
    have read := readAtom_comparison (path_ne_nil field) (by simp) (readOperator_between _) third
    simpa [Atom.tokens, Atom.expression] using read
  | constant holds => cases holds <;> rfl

end SqlMapper
