import SqlMapper.Proofs.Condition.Emptiness
import SqlMapper.Proofs.Query.Insertion
import SqlMapper.Proofs.Text.Digits

/-! # Rows that are selected, counted and deleted

A selection, a count and a deletion by the same criteria have the same condition behind the table, so
they are about the same rows, or they are turned down for the same reason. A selection goes on with an
order and a page. This text is made of the order, the limit and the offset alone, and is read by
itself whatever stands before it: an order term is the path of its field and a direction, and a page
is a limit, -1 if there is none, and an offset.
-/

namespace SqlMapper

open Text

/-! ## Orders and pages as they are read -/

/-- So many rows, all of them if that is -1, behind those that are skipped. -/
structure Page where
  limit : Int
  offset : Nat
  deriving DecidableEq, Repr

/-- What is read behind the condition of a selection. -/
structure Arrangement where
  /-- The path and the direction of each term. -/
  order : List (List String × Direction)
  page : Option Page
  deriving DecidableEq, Repr

/-- Where two numbers stand, the first of them is the offset. -/
def Page.ofTokens? : List Token → Option Page
  | [.number limit] => (int? limit.toList).map fun limit => ⟨limit, 0⟩
  | [.number offset, .symbol ",", .number limit] =>
      (digits? offset.toList).bind fun offset =>
        (int? limit.toList).map fun limit => ⟨limit, offset⟩
  | _ => none

namespace Arrangement

def readTerm? (ts : List Token) : Option (List String × Direction) :=
  match readNames "." ts with
  | some (path, []) => some (path, .ascending)
  | some (path, [.word "DESC"]) => some (path, .descending)
  | _ => none

def readOrder? : List Token → Option (List (List String × Direction))
  | [] => some []
  | .word "ORDER" :: .word "BY" :: rest => (Token.rows rest).mapM readTerm?
  | _ => none

/-- Reads an order and a page to the end, either of which may be missing. -/
def ofTokens? (ts : List Token) : Option Arrangement :=
  match ts.splitOn (.word "LIMIT") with
  | [order] => (readOrder? order).map fun terms => ⟨terms, none⟩
  | [order, page] =>
      (readOrder? order).bind fun terms =>
        (Page.ofTokens? page).map fun page => ⟨terms, some page⟩
  | _ => none

end Arrangement

/-! ## Orders and pages as they are written -/

/-- The text behind the condition of a selection. -/
def Dialect.arrangement (d : Dialect) (order : List OrderTerm) (limit : Option UInt64)
    (offset : UInt64) : String :=
  String.ofList (clause (d.orderClause? order) ++ clause (d.page? limit offset))

namespace Page

/-- What is asked for by a limit and an offset. -/
def asked (limit : Option UInt64) (offset : UInt64) : Page :=
  ⟨(limit.map fun n => (n.toNat : Int)).getD (-1), offset.toNat⟩

/-- The offset is left out if no rows are skipped. -/
def numbers (p : Page) : List Char :=
  if p.offset = 0 then intDigits p.limit
  else natDigits p.offset ++ ", ".toList ++ intDigits p.limit

def chars (p : Page) : List Char := "LIMIT ".toList ++ p.numbers

def tokens (p : Page) : List Token :=
  if p.offset = 0 then [.number (intText p.limit)]
  else [.number (natText p.offset), .symbol ",", .number (intText p.limit)]

theorem ofTokens?_tokens (p : Page) : ofTokens? p.tokens = some p := by
  obtain ⟨limit, offset⟩ := p
  have limitRead : int? (intText limit).toList = some limit := by
    rw [intText, String.toList_ofList, int?_intDigits]
  have offsetRead : digits? (natText offset).toList = some offset := by
    rw [natText, String.toList_ofList, digits?_natDigits]
  rw [tokens]
  split
  · next none =>
    rw [ofTokens?, limitRead, Option.map_some]
    exact congrArg (fun offset => some (Page.mk limit offset)) (Eq.symm none)
  · rw [ofTokens?, offsetRead, Option.bind_some, limitRead, Option.map_some]

theorem limit_notMem_tokens (p : Page) : Token.word "LIMIT" ∉ p.tokens := by
  rw [tokens]
  split <;> simp

end Page

/-- A page is written if there is a limit or rows can be skipped without one. -/
theorem Dialect.page?_eq (d : Dialect) (limit : Option UInt64) (offset : UInt64) :
    d.page? limit offset =
      if limit = none ∧ (d.skipsWithoutLimit → offset = 0) then none
      else some (Page.asked limit offset).chars := by
  have natural (n : Nat) : intDigits n = natDigits n := by simp [intDigits]
  have counted : offset ≠ 0 → offset.toNat ≠ 0 := fun other zero =>
    other (UInt64.toNat_inj.mp zero)
  have minus : ", -1".toList = ", ".toList ++ intDigits (-1) := by decide +kernel
  unfold page? Page.chars Page.numbers
  -- The words are not to be computed.
  generalize "LIMIT ".toList = limitWord, ", -1".toList = all, ", ".toList = comma at minus ⊢
  subst minus
  cases limit with
  | some n => by_cases first : offset = 0 <;> simp [first, counted, Page.asked, natural]
  | none =>
    by_cases skips : d.skipsWithoutLimit ∧ offset ≠ 0
    · simp [skips, counted skips.2, Page.asked]
    · have silent : d.skipsWithoutLimit → offset = 0 := by
        simpa only [not_and, not_not] using skips
      rw [if_pos (show none = none ∧ (d.skipsWithoutLimit → offset = 0) from ⟨rfl, silent⟩)]
      exact if_neg skips

/-- The tokens of an order, none if there are no terms. -/
def orderingTokens : List OrderTerm → List Token
  | [] => []
  | terms => orderTokens terms

namespace Dialect

variable {d : Dialect}

theorem tokens?_numbers (known : d.IsKnown) (p : Page) : d.tokens? p.numbers = some p.tokens := by
  have limit := tokens?_numeral known (isNumeral_intDigits p.limit)
  have offset := tokens?_numeral known (isNumeral_natDigits p.offset)
  rw [Page.numbers, Page.tokens]
  split
  · exact limit
  · rw [List.append_assoc]
    exact tokens?_append_between known offset (by decide) (scan_comma known) limit

theorem tokens?_page (known : d.IsKnown) (p : Page) :
    d.tokens? p.chars = some (.word "LIMIT" :: p.tokens) := by
  have front : d.scan .between "LIMIT ".toList = some ([.word "LIMIT"], .between) := by
    rcases known with rfl | rfl <;> rfl
  have read := tokens?_append_of_scan front p.numbers
  rwa [tokens?_numbers known] at read

theorem tokens?_ordering (known : d.IsKnown) (order : List OrderTerm) :
    d.tokens? ((d.orderClause? order).getD []) = some (orderingTokens order) := by
  cases order with
  | nil => rfl
  | cons t order => exact tokens?_orderClause known (List.cons_ne_nil t order) rfl

/-- A clause is read by itself, whatever stands before it. -/
theorem tokens?_append_clause (known : d.IsKnown) {front : List Char} {ts us : List Token}
    {c : Option (List Char)} (first : d.tokens? front = some ts)
    (second : d.tokens? (c.getD []) = some us) :
    d.tokens? (front ++ clause c) = some (ts ++ us) := by
  cases c with
  | none =>
    have nothing : us = [] := (Option.some.inj second).symm
    rw [clause, List.append_nil, nothing, List.append_nil, first]
  | some cs =>
    rw [Option.getD_some] at second
    rw [clause, tokens?_append known cs first (by decide), tokens?_space known, second]
    rfl

end Dialect

namespace Arrangement

theorem readTerm?_tokens (t : OrderTerm) : readTerm? t.tokens = some (path t.field, t.direction) := by
  obtain ⟨field, direction⟩ := t
  have named {rest : List Token} (ends : ∀ more, rest ≠ .symbol "." :: more) :
      readNames "." (fieldTokens field ++ rest) = some (path field, rest) :=
    readNames_separated "." (path_ne_nil field) ends
  cases direction with
  | ascending =>
    have read : readNames "." (fieldTokens field ++ []) = some (path field, []) := named nofun
    rw [List.append_nil] at read
    rw [readTerm?, OrderTerm.tokens, read]
  | descending =>
    have read : readNames "." (fieldTokens field ++ [.word "DESC"]) =
        some (path field, [.word "DESC"]) := named nofun
    rw [readTerm?, OrderTerm.tokens, read]
    rfl

/-- Names, points and directions are neither commas nor the keyword of a page. -/
theorem notMem_termTokens {t : Token} (term : OrderTerm)
    (plain : t = .symbol "," ∨ t = .word "LIMIT") : t ∉ term.tokens := by
  have named : t ∉ fieldTokens term.field := by
    intro member
    obtain rfl | ⟨name, _, rfl⟩ := Token.mem_separated member
    · exact absurd plain (by decide)
    · simp at plain
  rw [OrderTerm.tokens]
  split
  · exact named
  · rw [List.mem_append, List.mem_singleton, not_or]
    refine ⟨named, ?_⟩
    rintro rfl
    exact absurd plain (by decide)

theorem limit_notMem_ordering (order : List OrderTerm) :
    Token.word "LIMIT" ∉ orderingTokens order := by
  cases order with
  | nil => exact List.not_mem_nil
  | cons t order =>
    rw [orderingTokens, orderTokens]
    simp only [List.mem_cons, Token.word.injEq, String.reduceEq, false_or]
    · intro member
      obtain comma | ⟨row, inside, member⟩ := Token.mem_commas member
      · cases comma
      · obtain ⟨term, _, rfl⟩ := List.mem_map.mp inside
        exact notMem_termTokens term (.inr rfl) member
    · exact nofun

theorem readOrder?_ordering (order : List OrderTerm) :
    readOrder? (orderingTokens order) = some (order.map fun t => (path t.field, t.direction)) := by
  cases order with
  | nil => rfl
  | cons t order =>
    have rows : Token.rows (Token.commas ((t :: order).map OrderTerm.tokens)) =
        (t :: order).map OrderTerm.tokens := by
      apply Token.rows_commas (by simp)
      intro row member
      obtain ⟨term, _, rfl⟩ := List.mem_map.mp member
      exact notMem_termTokens term (.inl rfl)
    change (Token.rows (Token.commas ((t :: order).map OrderTerm.tokens))).mapM readTerm? = _
    rw [rows]
    exact mapM_read readTerm?_tokens (t :: order)

/-- The tokens of an order and a page are read as these. -/
theorem ofTokens?_tokens (order : List OrderTerm) (page : Option Page) :
    ofTokens? (orderingTokens order ++ page.toList.flatMap fun p => .word "LIMIT" :: p.tokens) =
      some ⟨order.map fun t => (path t.field, t.direction), page⟩ := by
  have ordered := limit_notMem_ordering order
  have read := readOrder?_ordering order
  have pieces (parts : List (List Token)) (nonempty : parts ≠ [])
      (plain : ∀ part ∈ parts, Token.word "LIMIT" ∉ part) :
      ([Token.word "LIMIT"].intercalate parts).splitOn (.word "LIMIT") = parts :=
    List.splitOn_intercalate _ plain nonempty
  cases page with
  | none =>
    have whole := pieces [orderingTokens order] (by simp) (by simpa using ordered)
    rw [List.intercalate_singleton] at whole
    simp [ofTokens?, whole, read]
  | some p =>
    have both := pieces [orderingTokens order, p.tokens] (by simp)
      (by simpa using ⟨ordered, p.limit_notMem_tokens⟩)
    simp only [List.intercalate_cons_cons, List.intercalate_singleton, List.append_assoc,
      List.cons_append, List.nil_append] at both
    simp [ofTokens?, both, read, p.ofTokens?_tokens]

end Arrangement

/-! ## Selections, counts and deletions -/

/-- A head, a name and a clause as one text. -/
theorem ofList_toList_append (head : String) (name clause : List Char) :
    String.ofList (head.toList ++ name ++ clause) =
      head ++ String.ofList name ++ String.ofList clause := by
  rw [String.ofList_append, String.ofList_append, String.ofList_toList]

/-- What is read is the order, and a page of the limit and the offset. A page is left out only where
all rows are asked for or, in the generic dialect, where there is no limit. -/
structure Arrangement.Asks (d : Dialect) (order : List OrderTerm) (limit : Option UInt64)
    (offset : UInt64) (a : Arrangement) : Prop where
  order : a.order = order.map fun t => (path t.field, t.direction)
  page : ∀ page ∈ a.page, page = .asked limit offset
  sqlite : d = .sqlite → (a.page = none ↔ limit = none ∧ offset = 0)
  generic : d = .generic → (a.page = none ↔ limit = none)

/-- The text of an order and a page is read as these, whatever stands before it. -/
theorem Dialect.arrangement_reads_back {d : Dialect} (known : d.IsKnown) (order : List OrderTerm)
    (limit : Option UInt64) (offset : UInt64) :
    ∃ ts a, (∀ front us, d.tokens? front = some us →
        d.tokens? (front ++ (d.arrangement order limit offset).toList) = some (us ++ ts)) ∧
      Arrangement.ofTokens? ts = some a ∧ a.Asks d order limit offset := by
  let absent : Prop := limit = none ∧ (d.skipsWithoutLimit → offset = 0)
  let page : Option Page := if absent then none else some (.asked limit offset)
  let pageTokens := page.toList.flatMap fun p => .word "LIMIT" :: p.tokens
  have paged : d.tokens? ((d.page? limit offset).getD []) = some pageTokens := by
    rw [page?_eq]
    by_cases none : absent
    · simp only [pageTokens, page, if_pos none]
      rw [if_pos none]
      rfl
    · simp only [pageTokens, page, if_neg none]
      rw [if_neg none, Option.getD_some, tokens?_page known]
      exact congrArg some (List.append_nil _).symm
  refine ⟨_, ⟨_, page⟩, ?_, Arrangement.ofTokens?_tokens order page, rfl, ?_, ?_, ?_⟩
  · intro front us read
    rw [arrangement, String.toList_ofList, ← List.append_assoc, ← List.append_assoc]
    exact tokens?_append_clause known
      (tokens?_append_clause known read (tokens?_ordering known order)) paged
  · intro asked member
    obtain ⟨_, same⟩ := Option.ite_none_left_eq_some.mp member
    exact (Option.some.inj same).symm
  · rintro rfl
    simp [page, absent, sqlite]
  · rintro rfl
    simp [page, absent, generic]

namespace Mapper

variable (b : Mapper)

/-- A condition behind its blank. -/
theorem ofList_clause_condition (p : Option Predicate) :
    String.ofList (Dialect.clause (p.map b.dialect.condition)) =
      if String.ofList ((p.map b.dialect.condition).getD []) = "" then ""
      else " " ++ String.ofList ((p.map b.dialect.condition).getD []) := by
  cases p with
  | none => rfl
  | some p =>
    have written : String.ofList (b.dialect.condition p) ≠ "" := by
      intro empty
      have none := congrArg String.toList empty
      rw [String.toList_ofList] at none
      exact List.append_ne_nil_of_left_ne_nil (by decide) _ none
    rw [Option.map_some, Option.getD_some, if_neg written, Dialect.clause, ← List.singleton_append,
      String.ofList_append]

theorem write_select (p : Option Predicate) (order : List OrderTerm) (limit : Option UInt64)
    (offset : UInt64) :
    b.write (.select b.model.tableName p order limit offset) = "SELECT * FROM " ++ b.table ++
      String.ofList (Dialect.clause (p.map b.dialect.condition)) ++
        b.dialect.arrangement order limit offset := by
  unfold write Statement.text Dialect.statement Dialect.arrangement
  dsimp only
  rw [List.append_assoc, String.ofList_append]
  exact congrArg (· ++ _) (ofList_toList_append _ _ _)

theorem write_count (p : Option Predicate) :
    b.write (.count b.model.tableName p) = "SELECT count(*) as cnt FROM " ++ b.table ++
      String.ofList (Dialect.clause (p.map b.dialect.condition)) :=
  ofList_toList_append _ _ _

theorem write_delete (p : Option Predicate) :
    b.write (.delete b.model.tableName p) = "DELETE FROM " ++ b.table ++
      String.ofList (Dialect.clause (p.map b.dialect.condition)) :=
  ofList_toList_append _ _ _

variable {b}

/-- A selection, a count and a deletion by the same criteria are turned down for the same reason, or
have the same condition behind their heads. What follows in a selection is made of the order, the
limit and the offset alone, and is read back as these to its end. -/
theorem rows_addressed_alike (known : b.dialect.IsKnown) (f : Filter) :
    ((∃ e, b.condition f.criteria = .error e ∧ b.select f = .error e ∧
        b.count (some f.criteria) = .error e ∧ b.delete (some f.criteria) = .error e) ∨
      ∃ condition clause, b.condition f.criteria = .ok condition ∧
        clause = (if condition = "" then "" else " " ++ condition) ∧
        b.select f = .ok ("SELECT * FROM " ++ b.table ++ clause ++
          b.dialect.arrangement f.order f.limit f.offset) ∧
        b.count (some f.criteria) = .ok ("SELECT count(*) as cnt FROM " ++ b.table ++ clause) ∧
        b.delete (some f.criteria) = .ok ("DELETE FROM " ++ b.table ++ clause)) ∧
    ∃ ts a, b.dialect.tokens? (b.dialect.arrangement f.order f.limit f.offset).toList = some ts ∧
      (∀ front us, b.dialect.tokens? front = some us →
        b.dialect.tokens? (front ++ (b.dialect.arrangement f.order f.limit f.offset).toList) =
          some (us ++ ts)) ∧
      Arrangement.ofTokens? ts = some a ∧ a.Asks b.dialect f.order f.limit f.offset := by
  constructor
  · cases found : b.predicate f.criteria with
    | error e =>
      refine .inl ⟨e, ?_, ?_, ?_, ?_⟩
      · rw [condition, found]
        rfl
      · rw [select, found]
        rfl
      · rw [count, predicateOf, found]
        rfl
      · rw [delete, found]
        rfl
    | ok p =>
      refine .inr ⟨_, _, condition_eq_ok.mpr ⟨p, found, rfl⟩, b.ofList_clause_condition p, ?_, ?_, ?_⟩
      · rw [← write_select, select, found]
        rfl
      · rw [← write_count, count, predicateOf, found]
        rfl
      · rw [← write_delete, delete, found]
        rfl
  · obtain ⟨ts, a, behind, read, asks⟩ :=
      Dialect.arrangement_reads_back known f.order f.limit f.offset
    exact ⟨ts, a, behind [] [] rfl, behind, read, asks⟩

/-- A field that ends its quotes and goes on with a page, one with a point, and an offset without a
limit that only just fits. -/
theorem rows_addressed_alike_hostile :
    let b : Mapper := ⟨.sqlite, (Model.ofName "User").withTable "u`s", .grouped⟩
    let f : Filter :=
      { criteria := ⟨[("name", .isNull)], []⟩
        order := [⟨"a` LIMIT 1, 2 -- ", .descending⟩, ⟨"u.age", .ascending⟩]
        offset := 18446744073709551615 }
    let tail := " ORDER BY `a`` LIMIT 1, 2 -- ` DESC, `u`.`age` LIMIT 18446744073709551615, -1"
    b.dialect.IsKnown ∧
      b.select f = .ok ("SELECT * FROM `u``s` WHERE `name` IS NULL" ++ tail) ∧
      b.count (some f.criteria) =
        .ok "SELECT count(*) as cnt FROM `u``s` WHERE `name` IS NULL" ∧
      b.delete (some f.criteria) = .ok "DELETE FROM `u``s` WHERE `name` IS NULL" ∧
      ∃ ts, b.dialect.tokens? tail.toList = some ts ∧
        Arrangement.ofTokens? ts = some
          ⟨[(["a` LIMIT 1, 2 -- "], .descending), (["u", "age"], .ascending)],
            some ⟨-1, 18446744073709551615⟩⟩ := by
  intro b f tail
  have known : b.dialect.IsKnown := .inr rfl
  obtain ⟨shared, ts, a, tokens, _, read, asks⟩ := rows_addressed_alike (b := b) known f
  have written : b.condition f.criteria = .ok "WHERE `name` IS NULL" := by
    exact congrArg Except.ok (by decide +kernel)
  have arranged : b.dialect.arrangement f.order f.limit f.offset = tail := by decide +kernel
  have quoted : b.table = "`u``s`" := by decide +kernel
  rw [arranged] at tokens
  obtain ⟨e, refused, _⟩ | ⟨condition, clause, found, rfl, selected, counted, deleted⟩ := shared
  · rw [written] at refused
    cases refused
  · rw [written] at found
    cases found
    rw [arranged, quoted] at selected
    rw [quoted] at counted deleted
    refine ⟨known, selected, counted, deleted, ts, tokens, read.trans ?_⟩
    obtain ⟨order, page⟩ := a
    cases page with
    | none =>
      have all := (asks.sqlite rfl).mp rfl
      exact absurd all.2 (by decide)
    | some page =>
      have paged := asks.page page rfl
      have ordered := asks.order
      dsimp only at ordered
      rw [ordered, paged]
      decide +kernel

end Mapper

end SqlMapper
