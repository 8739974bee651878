import SqlMapper.Proofs.Condition.Atom

/-! # Statements on rows as tokens

An insertion, an update and an order are cut into the tokens of their parts. What is a name stays
one, whatever is in it, so the words, the commas, the parentheses and the question marks among the
tokens are those that the statement is made of.
-/

namespace SqlMapper

open Text

/-! ## Tokens -/

/-- The words that an insertion begins with. -/
def Dialect.insertWords (d : Dialect) (replacing : Bool) : List Token :=
  (words (if replacing then d.replaceInto else "INSERT INTO").toList).map fun w =>
    .word (String.ofList w)

/-- The tokens of a field. -/
def fieldTokens (field : String) : List Token := Token.separated "." (path field)

def fieldListTokens (columns : List String) : List Token := Token.commas (columns.map fieldTokens)

/-- One placeholder for each column. -/
def placeholderTokens (columns : List String) : List Token :=
  Token.commas (columns.map fun _ => [.symbol "?"])

def insertionTokens (d : Dialect) (replacing : Bool) (table : String) (columns : List String) :
    List Token :=
  d.insertWords replacing ++ .name table :: .symbol "(" ::
    (fieldListTokens columns ++ .symbol ")" :: .word "VALUES" :: .symbol "(" ::
      (placeholderTokens columns ++ [.symbol ")"]))

def assignmentTokens (a : String × Literal) : List Token :=
  fieldTokens a.1 ++ [.symbol "=", a.2.stored.token]

def updateTokens (table : String) (assignments : List (String × Literal)) (id : Int64) :
    List Token :=
  .word "UPDATE" :: .name table :: .word "SET" ::
    (Token.commas (assignments.map assignmentTokens) ++
      [.word "WHERE", .name idName, .symbol "=", .number (intText id.toInt)])

def OrderTerm.tokens (t : OrderTerm) : List Token :=
  match t.direction with
  | .ascending => fieldTokens t.field
  | .descending => fieldTokens t.field ++ [.word "DESC"]

def orderTokens (order : List OrderTerm) : List Token :=
  .word "ORDER" :: .word "BY" :: Token.commas (order.map OrderTerm.tokens)

namespace Dialect

variable {d : Dialect}

theorem tokens?_insertion (known : d.IsKnown) (replacing : Bool) (table : String)
    {columns : List String} (nonempty : columns ≠ []) :
    d.tokens? (d.statement (.insert replacing table columns)) =
      some (insertionTokens d replacing table columns) := by
  have front : d.scan .between ((if replacing then d.replaceInto else "INSERT INTO").toList ++
      [' ']) = some (d.insertWords replacing, .between) := by
    rcases known with rfl | rfl <;> cases replacing <;> rfl
  have values : d.scan .between (')' :: " VALUES (".toList) =
      some ([.symbol ")", .word "VALUES", .symbol "("], .between) := by
    rcases known with rfl | rfl <;> rfl
  have one : d.tokens? ['?'] = some [.symbol "?"] := by rcases known with rfl | rfl <;> rfl
  have fields := tokens?_joinWith known (scan_comma known)
    (fun column _ => tokens?_field known column) nonempty
  have placeholders := tokens?_joinWith known (scan_comma known) (fun _ _ => one) nonempty
  have body := tokens?_append_between known fields (by decide) values
    (tokens?_append_close known placeholders)
  have text : d.statement (.insert replacing table columns) =
      ((if replacing then d.replaceInto else "INSERT INTO").toList ++ [' ']) ++
        (d.identifier table ++ ' ' :: (['('] ++ (joinWith [',', ' '] (columns.map d.field) ++
          ')' :: (" VALUES (".toList ++ (joinWith [',', ' '] (columns.map fun _ => ['?']) ++
            [')']))))) := by
    obtain ⟨first, rest, rfl⟩ := List.exists_cons_of_ne_nil nonempty
    change (if replacing then d.replaceInto else "INSERT INTO").toList ++ ' ' ::
      d.identifier table ++ ' ' :: ('(' :: joinWith [',', ' '] _ ++ ')' :: " VALUES (".toList ++
        joinWith [',', ' '] _ ++ [')']) = _
    simp only [List.append_assoc, List.cons_append, List.nil_append]
  rw [text, tokens?_append_of_scan front, tokens?_identifier_space known,
    tokens?_append_of_scan (scan_open known), body]
  rfl

theorem tokens?_assignment (known : d.IsKnown) {a : String × Literal} (cell : a.2.IsCell) :
    d.tokens? (d.assignment a) = some (assignmentTokens a) := by
  have equals : d.scan .between (' ' :: "= ".toList) = some ([.symbol "="], .between) := by
    rcases known with rfl | rfl <;> rfl
  have text : d.assignment a = d.field a.1 ++ ' ' :: ("= ".toList ++ d.literal a.2) := by
    simp [assignment]
  rw [text, tokens?_append_between known (tokens?_field known a.1) (by decide) equals
    (tokens?_literal known cell)]
  rfl

theorem tokens?_update (known : d.IsKnown) (table : String) {assignments : List (String × Literal)}
    (nonempty : assignments ≠ []) (cells : ∀ a ∈ assignments, a.2.IsCell) (id : Int64) :
    d.tokens? (d.statement (.update table assignments id)) =
      some (updateTokens table assignments id) := by
  have front : d.scan .between "UPDATE ".toList = some ([.word "UPDATE"], .between) := by
    rcases known with rfl | rfl <;> rfl
  have sets : d.scan .between "SET ".toList = some ([.word "SET"], .between) := by
    rcases known with rfl | rfl <;> rfl
  have row : d.scan .between (' ' :: "WHERE ".toList) = some ([.word "WHERE"], .between) := by
    rcases known with rfl | rfl <;> rfl
  have equals : d.scan .between (' ' :: "= ".toList) = some ([.symbol "="], .between) := by
    rcases known with rfl | rfl <;> rfl
  have items := tokens?_joinWith known (scan_comma known)
    (fun a member => tokens?_assignment known (cells a member)) nonempty
  have key := tokens?_append_between known (tokens?_identifier d idName) (by decide) equals
    (tokens?_numeral known (isNumeral_intDigits id.toInt))
  have text : d.statement (.update table assignments id) = "UPDATE ".toList ++
      (d.identifier table ++ ' ' :: ("SET ".toList ++
        (joinWith [',', ' '] (assignments.map d.assignment) ++ ' ' :: ("WHERE ".toList ++
          (d.identifier idName ++ ' ' :: ("= ".toList ++ intDigits id.toInt)))))) := by
    change "UPDATE ".toList ++ d.identifier table ++ ' ' :: "SET ".toList ++
      joinWith [',', ' '] _ ++ (' ' :: "WHERE ".toList ++ d.identifier idName ++
        ' ' :: "= ".toList ++ intDigits id.toInt) = _
    simp only [List.append_assoc, List.cons_append]
  rw [text, tokens?_append_of_scan front, tokens?_identifier_space known,
    tokens?_append_of_scan sets, tokens?_append_between known items (by decide) row key]
  rfl

theorem tokens?_orderTerm (known : d.IsKnown) (t : OrderTerm) :
    d.tokens? (d.orderTerm t) = some t.tokens := by
  obtain ⟨field, direction⟩ := t
  cases direction with
  | ascending => exact tokens?_field known field
  | descending =>
    have falling : d.tokens? (' ' :: "DESC".toList) = some [.word "DESC"] := by
      rcases known with rfl | rfl <;> rfl
    change d.tokens? (d.field field ++ ' ' :: "DESC".toList) = _
    rw [tokens?_append known _ (tokens?_field known field) (by decide), falling]
    rfl

theorem tokens?_orderClause (known : d.IsKnown) {order : List OrderTerm} (nonempty : order ≠ [])
    {clause : List Char} (written : d.orderClause? order = some clause) :
    d.tokens? clause = some (orderTokens order) := by
  have front : d.scan .between "ORDER BY ".toList =
      some ([.word "ORDER", .word "BY"], .between) := by rcases known with rfl | rfl <;> rfl
  have terms := tokens?_joinWith known (scan_comma known)
    (fun t _ => tokens?_orderTerm known t) nonempty
  obtain ⟨first, rest, rfl⟩ := List.exists_cons_of_ne_nil nonempty
  cases written
  rw [tokens?_append_of_scan front, commaJoined, terms]
  rfl

end Dialect

end SqlMapper
