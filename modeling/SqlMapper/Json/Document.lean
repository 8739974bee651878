import SqlMapper.Json.Basic
import SqlMapper.Json.Numeral
import SqlMapper.Json.Quotation

/-!
# Documents as far as they can be read

A `Doc` holds what a text says up to its first fault, with the fault at its place. A consumer that
walks a `Doc` in order meets what is wrong with the text exactly when it would meet it while
reading, so whatever it objects to earlier takes precedence. `Doc.json` accepts a `Doc` only if it
is whole.

An entry of an object can be faulty and still have an extent; the object then goes on after it.
-/

namespace SqlMapper.Json

/-- How a list or an object ends: properly, at a fault, or at a fault behind a comma. -/
inductive Tail
  | closed
  | stopped (fault : Fault)
  | dangling (fault : Fault)
  deriving DecidableEq, Repr, Inhabited

inductive Doc
  | null
  | bool (b : Bool)
  | int (n : Int)
  | float (x : Binary64)
  | string (s : String)
  | array (items : List Doc) (tail : Tail)
  | object (entries : List (String × Doc)) (tail : Tail)
  /-- An object that begins with something else than a string. -/
  | oddKey (key : Doc)
  | broken (fault : Fault)
  /-- A word or a number that has begun. -/
  | brokenWord (fault : Fault)
  deriving Repr, Inhabited

/-- A part of a text, and what follows it. -/
structure Reading (α : Type) where
  found : α
  rest : Rest

namespace Reading

def stop (fault : Fault) (found : α) : Reading α := ⟨found, .error fault⟩

def broken (fault : Fault) : Reading Doc := stop fault (.broken fault)

/-- A word such as `null` whose first letter has been read. -/
def word (doc : Doc) (letters : List Char) (cs : List Char) : Reading Doc :=
  match expect letters cs with
  | .ok rest => ⟨doc, .ok rest⟩
  | .error fault => stop fault (.brokenWord fault)

def number (attitude : Attitude) (cs : List Char) : Reading Doc :=
  match numeral attitude cs with
  | .error fault => stop fault (.brokenWord fault)
  | .ok (n, rest) =>
      match n.value?, attitude with
      | some (.int n), _ => ⟨.int n, .ok rest⟩
      | some (.float x), _ => ⟨.float x, .ok rest⟩
      | none, .skipping => ⟨.null, .ok rest⟩
      | none, .strict => stop .malformed (.brokenWord .malformed)

def string (attitude : Attitude) (cs : List Char) : Reading Doc :=
  match quotation attitude .plain cs with
  | .ok (chars, rest) => ⟨.string (String.ofList chars), .ok rest⟩
  | .error fault => broken fault

end Reading

/-- Whether the first thing in an object can be a key or its end. -/
def opensOddly (cs : List Char) : Bool :=
  match skipBlanks cs with
  | [] => false
  | c :: _ => c != '"' && c != '\x7d'

mutual

/-- Reads a value. `depth` bounds the nesting of lists and objects, and `fuel` the length of the
reading. -/
def readValue (attitude : Attitude) : Nat → Nat → List Char → Reading Doc
  | 0, _, _ => Reading.broken .malformed
  | fuel + 1, depth, cs =>
      match skipBlanks cs with
      | [] => Reading.broken .truncated
      | c :: rest =>
          if c = 'n' then Reading.word .null ['u', 'l', 'l'] rest
          else if c = 't' then Reading.word (.bool true) ['r', 'u', 'e'] rest
          else if c = 'f' then Reading.word (.bool false) ['a', 'l', 's', 'e'] rest
          else if c = '"' then Reading.string attitude rest
          else if c = '[' then
            if depth = 0 then Reading.broken .malformed
            else
              let r := readItems attitude fuel (depth - 1) true rest
              ⟨.array r.found.1 r.found.2, r.rest⟩
          else if c = '\x7b' then
            if depth = 0 then Reading.broken .malformed
            else if opensOddly rest then
              Reading.stop .malformed (.oddKey (readValue attitude fuel (depth - 1) rest).found)
            else
              let r := readEntries attitude fuel (depth - 1) true rest
              ⟨.object r.found.1 r.found.2, r.rest⟩
          else if c = '-' ∨ Text.isDigit c then Reading.number attitude (c :: rest)
          else Reading.broken .malformed

/-- Reads the items of a list from the first one, or from the comma before the next one. -/
def readItems (attitude : Attitude) :
    Nat → Nat → Bool → List Char → Reading (List Doc × Tail)
  | 0, _, _, _ => Reading.stop .malformed ([], .stopped .malformed)
  | fuel + 1, depth, first, cs =>
      match skipBlanks cs with
      | [] => Reading.stop .truncated ([], .stopped .truncated)
      | c :: rest =>
          if c = ']' then ⟨([], .closed), .ok rest⟩
          else if first then readItem attitude fuel depth (c :: rest)
          else if c = ',' then
            match skipBlanks rest with
            | [] => Reading.stop .truncated ([], .dangling .truncated)
            | d :: rest =>
                if d = ']' then Reading.stop .malformed ([], .dangling .malformed)
                else readItem attitude fuel depth (d :: rest)
          else Reading.stop .malformed ([], .stopped .malformed)

/-- Reads one item and those after it. -/
def readItem (attitude : Attitude) : Nat → Nat → List Char → Reading (List Doc × Tail)
  | 0, _, _ => Reading.stop .malformed ([], .stopped .malformed)
  | fuel + 1, depth, cs =>
      let item := readValue attitude fuel depth cs
      match item.rest with
      | .error fault => Reading.stop fault ([item.found], .stopped fault)
      | .ok rest =>
          let more := readItems attitude fuel depth false rest
          ⟨(item.found :: more.found.1, more.found.2), more.rest⟩

/-- Reads the entries of an object from the first one, or from the comma before the next one. -/
def readEntries (attitude : Attitude) :
    Nat → Nat → Bool → List Char → Reading (List (String × Doc) × Tail)
  | 0, _, _, _ => Reading.stop .malformed ([], .stopped .malformed)
  | fuel + 1, depth, first, cs =>
      match skipBlanks cs with
      | [] => Reading.stop .truncated ([], .stopped .truncated)
      | c :: rest =>
          if c = '\x7d' then ⟨([], .closed), .ok rest⟩
          else if first then
            if c = '"' then readEntry attitude fuel depth .stopped rest
            else Reading.stop .malformed ([], .stopped .malformed)
          else if c = ',' then
            match skipBlanks rest with
            | [] => Reading.stop .truncated ([], .dangling .truncated)
            | d :: rest =>
                if d = '"' then readEntry attitude fuel depth .dangling rest
                else Reading.stop .malformed ([], .dangling .malformed)
          else Reading.stop .malformed ([], .stopped .malformed)

/-- Reads an entry after the opening quote of its key, and those after it. -/
def readEntry (attitude : Attitude) :
    Nat → Nat → (Fault → Tail) → List Char → Reading (List (String × Doc) × Tail)
  | 0, _, _, _ => Reading.stop .malformed ([], .stopped .malformed)
  | fuel + 1, depth, noKey, cs =>
      match quotation attitude .plain cs with
      | .error fault => Reading.stop fault ([], noKey fault)
      | .ok (chars, rest) =>
          let key := String.ofList chars
          match skipBlanks rest with
          | [] => Reading.stop .truncated ([(key, .broken .truncated)], .stopped .truncated)
          | c :: rest =>
              if c = ':' then
                let value := readValue attitude fuel depth rest
                let extent : Rest := match value.rest, attitude with
                  | .error _, .strict => (readValue .skipping fuel fuel rest).rest
                  | known, _ => known
                match extent with
                | .error fault => Reading.stop fault ([(key, value.found)], .stopped fault)
                | .ok rest =>
                    let more := readEntries attitude fuel depth false rest
                    ⟨((key, value.found) :: more.found.1, more.found.2), more.rest⟩
              else Reading.stop .malformed ([(key, .broken .malformed)], .stopped .malformed)

end

/-- Lists and objects may be nested this deep. -/
def depthLimit : Nat := 127

/-- Reads the value at the start of a text. Every step of the reading but one in three consumes a
character. -/
def read (depth : Nat) (cs : List Char) : Reading Doc :=
  readValue .strict (3 * cs.length + 3) depth cs

namespace Tail

def check : Tail → Except Fault Unit
  | .closed => .ok ()
  | .stopped fault => .error fault
  | .dangling fault => .error fault

end Tail

namespace Doc

mutual

/-- The document that a whole text holds; otherwise its first fault. -/
def json : Doc → Except Fault Json
  | .null => .ok .null
  | .bool b => .ok (.bool b)
  | .int n => .ok (.int n)
  | .float x => .ok (.float x)
  | .string s => .ok (.string s)
  | .array items tail => do
      let items ← jsonItems items
      tail.check
      .ok (.array items)
  | .object entries tail => do
      let entries ← jsonEntries entries
      tail.check
      .ok (.object (Entries.putAll [] entries))
  | .oddKey _ => .error .malformed
  | .broken fault => .error fault
  | .brokenWord fault => .error fault

def jsonItems : List Doc → Except Fault (List Json)
  | [] => .ok []
  | item :: rest => do
      let item ← item.json
      let rest ← jsonItems rest
      .ok (item :: rest)

def jsonEntries : List (String × Doc) → Except Fault (List (String × Json))
  | [] => .ok []
  | (key, value) :: rest => do
      let value ← value.json
      let rest ← jsonEntries rest
      .ok ((key, value) :: rest)

end

mutual

/-- A document as a whole text holds it. -/
def ofJson : Json → Doc
  | .null => .null
  | .bool b => .bool b
  | .int n => .int n
  | .float x => .float x
  | .string s => .string s
  | .array items => .array (ofItems items) .closed
  | .object entries => .object (ofEntries entries) .closed

def ofItems : List Json → List Doc
  | [] => []
  | item :: rest => ofJson item :: ofItems rest

def ofEntries : List (String × Json) → List (String × Doc)
  | [] => []
  | (key, value) :: rest => (key, ofJson value) :: ofEntries rest

end

end Doc

/-- A text holds nothing but blanks after its value. -/
def checkEnd (rest : List Char) : Except Fault Unit :=
  if skipBlanks rest = [] then .ok () else .error .malformed

/-- Reads a document nested at most `depth` deep. -/
def parseWithin (depth : Nat) (text : String) : Except Fault Json := do
  let r := read depth text.toList
  let j ← r.found.json
  checkEnd (← r.rest)
  .ok j

/-- Reads a document. -/
def parse (text : String) : Except Fault Json := parseWithin depthLimit text

end SqlMapper.Json
