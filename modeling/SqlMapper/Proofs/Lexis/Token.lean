import SqlMapper.Dialect
import SqlMapper.Text.Hexadecimal

/-! # Tokens of a statement

A statement is read character by character. `Cursor` is where the reader stands, and one step may
complete a token. Quoted names double their quotes; strings double theirs and, where the dialect
says so, know escapes; bytes are written in hexadecimal. Whatever has no place in a statement, a
comment among them, stops the reader. Reading composes: what is read of two texts put together is
what is read of the first and, from where that ends, of the second.
-/

namespace SqlMapper

inductive Token
  /-- A quoted name. -/
  | name (s : String)
  /-- A keyword, or the name of a type or of a function. -/
  | word (s : String)
  | number (s : String)
  | text (s : String)
  | bytes (bs : List UInt8)
  | symbol (s : String)
  deriving DecidableEq, Repr

/-- Between tokens, or inside of one with what was read of it. -/
inductive Cursor
  | between
  | name (read : List Char)
  /-- At a quote that ends a name unless another one follows. -/
  | nameQuote (read : List Char)
  | text (read : List Char)
  | textQuote (read : List Char)
  | textEscape (read : List Char)
  | word (read : List Char)
  | sign
  | integer (read : List Char)
  | point (read : List Char)
  | fraction (read : List Char)
  | comparison (read : List Char)
  | bytes (read : List UInt8)
  | halfByte (read : List UInt8) (high : Nat)
  deriving DecidableEq, Repr

/-- Rows of tokens with a comma between them. -/
def Token.commas (rows : List (List Token)) : List Token := [Token.symbol ","].intercalate rows

/-- The token that a text leaves if it ends here. -/
def Cursor.finish? : Cursor → Option (List Token)
  | .between => some []
  | .nameQuote read => some [.name (String.ofList read)]
  | .textQuote read => some [.text (String.ofList read)]
  | .word read => some [.word (String.ofList read)]
  | .integer read => some [.number (String.ofList read)]
  | .fraction read => some [.number (String.ofList read)]
  | .comparison read => some [.symbol (String.ofList read)]
  | _ => none

namespace Text

def isSpace (c : Char) : Bool := c = ' ' || c = '\n' || c = '\t' || c = '\r'

def isWordChar (c : Char) : Bool := c.isAlphanum || c = '_'

def isComparison (c : Char) : Bool := c = '=' || c = '<' || c = '>' || c = '!'

def isPunctuation (c : Char) : Bool :=
  c = '(' || c = ')' || c = ',' || c = '.' || c = '?' || c = '*'

/-- What a character stands for behind a backslash. -/
def unescape (c : Char) : Char :=
  if c = 'n' then '\n' else if c = 'r' then '\r' else if c = 'Z' then '\x1a' else c

end Text

open Text

namespace Dialect

/-- The step from between two tokens. -/
def start (d : Dialect) (c : Char) : Option (List Token × Cursor) :=
  if c = d.identifierQuote then some ([], .name [])
  else if c = d.stringQuote then some ([], .text [])
  else if isSpace c then some ([], .between)
  else if c.isDigit then some ([], .integer [c])
  else if c = '-' then some ([], .sign)
  else if isComparison c then some ([], .comparison [c])
  else if isPunctuation c then some ([.symbol (String.ofList [c])], .between)
  else if isWordChar c then some ([], .word [c])
  else none

/-- Completes the token at hand and starts over. -/
def restart (d : Dialect) (s : Cursor) (c : Char) : Option (List Token × Cursor) :=
  s.finish?.bind fun done => (d.start c).map fun next => (done ++ next.1, next.2)

/-- One character: the tokens that it completes and where the reader stands then. -/
def step (d : Dialect) (s : Cursor) (c : Char) : Option (List Token × Cursor) :=
  match s with
  | .between => d.start c
  | .name read => some ([], if c = d.identifierQuote then .nameQuote read else .name (read ++ [c]))
  | .nameQuote read =>
      if c = d.identifierQuote then some ([], .name (read ++ [c])) else d.restart s c
  | .text read =>
      some ([], if c = d.stringQuote then .textQuote read
        else if d.backslashEscapes ∧ c = '\\' then .textEscape read
        else .text (read ++ [c]))
  | .textQuote read =>
      if c = d.stringQuote then some ([], .text (read ++ [c])) else d.restart s c
  | .textEscape read => some ([], .text (read ++ [unescape c]))
  | .word read =>
      if isWordChar c then some ([], .word (read ++ [c]))
      else if read = ['X'] ∧ c = '\x27' then some ([], .bytes [])
      else d.restart s c
  | .sign => if c.isDigit then some ([], .integer ['-', c]) else none
  | .integer read =>
      if c.isDigit then some ([], .integer (read ++ [c]))
      else if c = '.' then some ([], .point (read ++ [c]))
      else d.restart s c
  | .point read => if c.isDigit then some ([], .fraction (read ++ [c])) else none
  | .fraction read =>
      if c.isDigit then some ([], .fraction (read ++ [c])) else d.restart s c
  | .comparison read =>
      if isComparison c then some ([], .comparison (read ++ [c])) else d.restart s c
  | .bytes read =>
      if c = '\x27' then some ([.bytes read], .between)
      else (hexValue? c).map fun high => ([], .halfByte read high)
  | .halfByte read high =>
      (hexValue? c).map fun low => ([], .bytes (read ++ [UInt8.ofNat (16 * high + low)]))

/-- Reads a text: the tokens it completes and where the reader stands at its end. -/
def scan (d : Dialect) : Cursor → List Char → Option (List Token × Cursor)
  | s, [] => some ([], s)
  | s, c :: cs =>
      (d.step s c).bind fun first =>
        (d.scan first.2 cs).map fun rest => (first.1 ++ rest.1, rest.2)

/-- The tokens of a text. -/
def tokens? (d : Dialect) (cs : List Char) : Option (List Token) :=
  (d.scan .between cs).bind fun run => run.2.finish?.map (run.1 ++ ·)

theorem scan_append (d : Dialect) (s : Cursor) (front back : List Char) :
    d.scan s (front ++ back) =
      (d.scan s front).bind fun first =>
        (d.scan first.2 back).map fun rest => (first.1 ++ rest.1, rest.2) := by
  induction front generalizing s with
  | nil => simp [scan]
  | cons c front ih =>
    simp only [List.cons_append, scan, ih, Option.bind_map, Option.bind_assoc]
    cases d.step s c with
    | none => rfl
    | some first =>
      simp only [Option.bind_some, Option.map_bind]
      congr 1
      funext middle
      simp only [Function.comp_apply, Option.map_map, Function.comp_def, List.append_assoc]

/-- Two runs one after the other. -/
theorem scan_trans {d : Dialect} {s middle last : Cursor} {front back : List Char}
    {done more : List Token} (first : d.scan s front = some (done, middle))
    (second : d.scan middle back = some (more, last)) :
    d.scan s (front ++ back) = some (done ++ more, last) := by
  rw [scan_append, first, Option.bind_some, second, Option.map_some]

theorem scan_cons {d : Dialect} {s middle last : Cursor} {c : Char} {cs : List Char}
    {done more : List Token} (first : d.step s c = some (done, middle))
    (second : d.scan middle cs = some (more, last)) :
    d.scan s (c :: cs) = some (done ++ more, last) := by
  rw [scan, first, Option.bind_some, second, Option.map_some]

/-- Characters of one class are collected into the token at hand. -/
theorem scan_collect {d : Dialect} {inside : List Char → Cursor} {belongs : Char → Prop}
    (one : ∀ read c, belongs c → d.step (inside read) c = some ([], inside (read ++ [c])))
    {cs : List Char} (all : ∀ c ∈ cs, belongs c) (read : List Char) :
    d.scan (inside read) cs = some ([], inside (read ++ cs)) := by
  induction cs generalizing read with
  | nil => simp [scan]
  | cons c cs ih =>
    have first := one read c (all c (List.mem_cons_self ..))
    have rest := ih (fun other member => all other (List.mem_cons_of_mem _ member)) (read ++ [c])
    simpa using scan_cons first rest

/-- Nothing but what follows ends the token that such a text is. -/
def Spells (d : Dialect) (cs : List Char) (t : Token) : Prop :=
  ∃ s, d.scan .between cs = some ([], s) ∧ s.finish? = some [t]

theorem Spells.tokens? {d : Dialect} {cs : List Char} {t : Token} (spells : d.Spells cs t) :
    d.tokens? cs = some [t] := by
  obtain ⟨s, run, complete⟩ := spells
  simp [Dialect.tokens?, run, complete]

/-- A text that leaves no token open can be cut off from what follows. -/
theorem tokens?_append_of_scan {d : Dialect} {front : List Char} {done : List Token}
    (closed : d.scan .between front = some (done, .between)) (back : List Char) :
    d.tokens? (front ++ back) = (d.tokens? back).map (done ++ ·) := by
  simp only [tokens?, scan_append, closed, Option.bind_some, Option.bind_map, Option.map_bind,
    Function.comp_def, Option.map_map, List.append_assoc]

end Dialect

/-- The dialects whose statements are read here. -/
def Dialect.IsKnown (d : Dialect) : Prop := d = .generic ∨ d = .sqlite

namespace Dialect

/-- A character that cannot lengthen a token. -/
def delimits (c : Char) : Bool := c = ' ' || c = ',' || c = ')' || c = '\n'

variable {d : Dialect}

theorem IsKnown.identifierQuote (known : d.IsKnown) : d.identifierQuote = '\x60' := by
  rcases known with rfl | rfl <;> rfl

theorem IsKnown.stringQuote (known : d.IsKnown) :
    d.stringQuote = '"' ∨ d.stringQuote = '\x27' := by
  rcases known with rfl | rfl
  · exact .inl rfl
  · exact .inr rfl

theorem delimits_cases {c : Char} (delimiter : delimits c = true) :
    c = ' ' ∨ c = ',' ∨ c = ')' ∨ c = '\n' := by
  simpa [delimits, or_assoc] using delimiter

/-- A delimiter completes whatever token can be complete. -/
theorem step_of_delimits (known : d.IsKnown) {s : Cursor} {done : List Token} {c : Char}
    (complete : s.finish? = some done) (delimiter : delimits c = true) :
    d.step s c = d.restart s c := by
  have name : c ≠ d.identifierQuote := by
    rw [known.identifierQuote]
    rintro rfl
    exact absurd delimiter (by decide)
  have text : c ≠ d.stringQuote := by
    rcases known.stringQuote with quote | quote <;> rw [quote] <;> rintro rfl <;>
      exact absurd delimiter (by decide)
  have other : isWordChar c = false ∧ c.isDigit = false ∧ isComparison c = false ∧
      c ≠ '.' ∧ c ≠ '\x27' := by
    rcases delimits_cases delimiter with rfl | rfl | rfl | rfl <;> decide
  obtain ⟨word, digit, comparison, point, apostrophe⟩ := other
  cases s <;> simp_all [Cursor.finish?, step, restart]

/-- Behind a complete token a delimiter is read as if nothing stood before it. -/
theorem scan_of_delimits (known : d.IsKnown) {s : Cursor} {done : List Token} {c : Char}
    (complete : s.finish? = some done) (delimiter : delimits c = true) (back : List Char) :
    d.scan s (c :: back) =
      (d.scan .between (c :: back)).map fun run => (done ++ run.1, run.2) := by
  have fresh : d.step .between c = d.start c := rfl
  rw [scan, scan, step_of_delimits known complete delimiter, restart, complete, fresh,
    Option.bind_some]
  cases d.start c with
  | none => rfl
  | some next =>
    simp only [Option.map_some, Option.bind_some, Option.map_map, Function.comp_def,
      List.append_assoc]

/-- Complete tokens can be cut off from what follows if a delimiter comes first. -/
theorem tokens?_append (known : d.IsKnown) {front : List Char} {ts : List Token} {c : Char}
    (back : List Char) (read : d.tokens? front = some ts) (delimiter : delimits c = true) :
    d.tokens? (front ++ c :: back) = (d.tokens? (c :: back)).map (ts ++ ·) := by
  obtain ⟨⟨done, s⟩, run, last⟩ := Option.bind_eq_some_iff.mp read
  obtain ⟨pending, complete, rfl⟩ := Option.map_eq_some_iff.mp last
  simp only [tokens?, scan_append, run, Option.bind_some,
    scan_of_delimits known complete delimiter, Option.bind_map, Option.map_bind,
    Option.map_map, Function.comp_def, List.append_assoc]

/-- Two texts are cut apart at what is written between them, which starts with a delimiter. -/
theorem tokens?_append_between (known : d.IsKnown) {front middle back : List Char} {c : Char}
    {ts us vs : List Token} (first : d.tokens? front = some ts) (delimiter : delimits c = true)
    (between : d.scan .between (c :: middle) = some (us, .between))
    (last : d.tokens? back = some vs) :
    d.tokens? (front ++ c :: (middle ++ back)) = some (ts ++ (us ++ vs)) := by
  rw [tokens?_append known _ first delimiter, ← List.cons_append,
    tokens?_append_of_scan between, last]
  rfl

theorem scan_open (known : d.IsKnown) :
    d.scan .between ['('] = some ([.symbol "("], .between) := by
  rcases known with rfl | rfl <;> rfl

theorem scan_comma (known : d.IsKnown) :
    d.scan .between [',', ' '] = some ([.symbol ","], .between) := by
  rcases known with rfl | rfl <;> rfl

theorem tokens?_space (known : d.IsKnown) (cs : List Char) :
    d.tokens? (' ' :: cs) = d.tokens? cs := by
  have blank : d.scan .between [' '] = some ([], .between) := by rcases known with rfl | rfl <;> rfl
  have read := tokens?_append_of_scan blank cs
  simpa using read

/-- A closing parenthesis ends whatever token stands before it. -/
theorem tokens?_append_close (known : d.IsKnown) {front : List Char} {ts : List Token}
    (read : d.tokens? front = some ts) :
    d.tokens? (front ++ [')']) = some (ts ++ [.symbol ")"]) := by
  have closed : d.tokens? [')'] = some [.symbol ")"] := by rcases known with rfl | rfl <;> rfl
  rw [tokens?_append known [] read (by decide), closed]
  rfl

/-- A written list reads back item by item, whatever blanks follow its commas. -/
theorem tokens?_joinWith (known : d.IsKnown) {gap : List Char}
    (separates : d.scan .between (',' :: gap) = some ([.symbol ","], .between))
    {α : Type u} {write : α → List Char} {read : α → List Token} {items : List α}
    (each : ∀ item ∈ items, d.tokens? (write item) = some (read item)) (nonempty : items ≠ []) :
    d.tokens? (joinWith (',' :: gap) (items.map write)) = some (Token.commas (items.map read)) := by
  induction items with
  | nil => exact absurd rfl nonempty
  | cons item items ih =>
    have first := each item (List.mem_cons_self ..)
    cases items with
    | nil => simpa [joinWith, Token.commas] using first
    | cons next items =>
      have tail := ih (fun other member => each other (List.mem_cons_of_mem _ member)) (by simp)
      simp only [List.map_cons, joinWith, List.append_assoc] at tail ⊢
      rw [List.cons_append, tokens?_append_between known first (by decide) separates tail]
      simp [Token.commas]

end Dialect

end SqlMapper
