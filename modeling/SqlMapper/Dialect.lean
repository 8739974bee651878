import SqlMapper.Text.Blank
import SqlMapper.Text.Integer

/-!
# Dialects

A `Dialect` lists what differs between database engines. Its first fields are lexical: how names
and strings are quoted and whether a backslash escapes. The others name keywords and choose among
the ways to page, to alter a table and to look at one.

A quoted name doubles its quotes and is otherwise verbatim. A quoted string doubles its quotes,
loses its NUL characters, and escapes what the dialect gives a meaning to. A field is a path of
names separated by points.
-/

namespace SqlMapper

/-- How the changes of a table are carried out. -/
inductive Alteration
  /-- All column changes in one statement. -/
  | joined
  /-- One statement a change; where that is impossible the table is rebuilt under another name. -/
  | separate
  deriving DecidableEq, Repr

/-- How the columns and indexes of a table are listed. -/
inductive Listing
  | showStatements
  | pragmas
  deriving DecidableEq, Repr

structure Dialect where
  name : String
  identifierQuote : Char := '\x60'
  stringQuote : Char := '"'
  backslashEscapes : Bool := true
  /-- The function around the bounds of a range of dates. -/
  dateFunction : String := "TIMESTAMP"
  replaceInto : String := "REPLACE INTO"
  /-- The end of an insertion without columns. -/
  defaultValues : String := "() VALUES ()"
  /-- Whether rows can be skipped without a limit. -/
  skipsWithoutLimit : Bool := false
  /-- Whether an index is named within the whole database and not within its table. -/
  globalIndexes : Bool := false
  alteration : Alteration := .joined
  listing : Listing := .showStatements
  deriving Repr

namespace Dialect

def generic : Dialect := { name := "generic" }

def sqlite : Dialect where
  name := "sqlite"
  stringQuote := '\x27'
  backslashEscapes := false
  dateFunction := "datetime"
  replaceInto := "INSERT OR REPLACE INTO"
  defaultValues := "DEFAULT VALUES"
  skipsWithoutLimit := true
  globalIndexes := true
  alteration := .separate
  listing := .pragmas

/-- A dialect like the generic one with other quotes. -/
def withQuotes (name : String) (identifier string : Char) (backslashEscapes : Bool) : Dialect :=
  { name, identifierQuote := identifier, stringQuote := string, backslashEscapes }

/-- Doubles a quote and keeps every other character. -/
def doubleQuote (quote c : Char) : List Char := if c = quote then [quote, quote] else [c]

def quoteName (d : Dialect) (name : List Char) : List Char :=
  d.identifierQuote :: name.flatMap (doubleQuote d.identifierQuote) ++ [d.identifierQuote]

/-- A name between quotes. -/
def identifier (d : Dialect) (name : String) : List Char := d.quoteName name.toList

/-- A field is quoted name by name. -/
def field (d : Dialect) (path : String) : List Char :=
  Text.joinWith ['.'] ((Text.splitAt '.' path.toList).map d.quoteName)

/-- How a character is written inside a string. -/
def stringChar (d : Dialect) (c : Char) : List Char :=
  if c = '\x00' then []
  else if c = d.stringQuote then [d.stringQuote, d.stringQuote]
  else if d.backslashEscapes then
    if c = '\\' then ['\\', '\\']
    else if c = '\n' then ['\\', 'n']
    else if c = '\r' then ['\\', 'r']
    else if c = '\x1a' then ['\\', 'Z']
    else [c]
  else [c]

/-- A text between string quotes. -/
def string (d : Dialect) (s : String) : List Char :=
  d.stringQuote :: s.toList.flatMap d.stringChar ++ [d.stringQuote]

/-- The clause that takes a page out of the rows. Rows are skipped before they are counted; without
a limit they are skipped only where the dialect allows it. -/
def page? (d : Dialect) (limit : Option UInt64) (offset : UInt64) : Option (List Char) :=
  match limit with
  | some n =>
      if offset = 0 then some ("LIMIT ".toList ++ Text.natDigits n.toNat)
      else some
        ("LIMIT ".toList ++ Text.natDigits offset.toNat ++ ", ".toList ++ Text.natDigits n.toNat)
  | none =>
      if d.skipsWithoutLimit ∧ offset ≠ 0 then
        some ("LIMIT ".toList ++ Text.natDigits offset.toNat ++ ", -1".toList)
      else none

end Dialect

end SqlMapper
