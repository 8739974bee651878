import SqlMapper.Json.Basic
import SqlMapper.Number.Layout
import SqlMapper.Text.Integer
import SqlMapper.Text.Quoted

/-!
# JSON text

The compact text of a document: no blanks, entries in their order, and escapes only where the
grammar demands one. A number that is not finite is written `null`.
-/

namespace SqlMapper.Json

def escapedChar (c : Char) : List Char :=
  if c = '"' then ['\\', '"']
  else if c = '\\' then ['\\', '\\']
  else if c = '\x08' then ['\\', 'b']
  else if c = '\x0c' then ['\\', 'f']
  else if c = '\n' then ['\\', 'n']
  else if c = '\r' then ['\\', 'r']
  else if c = '\t' then ['\\', 't']
  else if c.toNat < 0x20 then
    ['\\', 'u', '0', '0', Text.hexDigit (c.toNat / 16), Text.hexDigit (c.toNat % 16)]
  else [c]

def quotedChars (s : String) : List Char := '"' :: s.toList.flatMap escapedChar ++ ['"']

def floatChars (x : Binary64) : List Char :=
  if x.isFinite then x.jsonText.toList else "null".toList

mutual

def chars : Json → List Char
  | .null => "null".toList
  | .bool true => "true".toList
  | .bool false => "false".toList
  | .int n => Text.intDigits n
  | .float x => floatChars x
  | .string s => quotedChars s
  | .array items => '[' :: itemChars items
  | .object entries => '\x7b' :: entryChars entries

/-- The items of an array that are still to be written, and its end. -/
def itemChars : List Json → List Char
  | [] => [']']
  | [item] => chars item ++ [']']
  | item :: rest => chars item ++ ',' :: itemChars rest

def entryChars : List (String × Json) → List Char
  | [] => ['\x7d']
  | [(name, value)] => quotedChars name ++ ':' :: chars value ++ ['\x7d']
  | (name, value) :: rest => quotedChars name ++ ':' :: chars value ++ ',' :: entryChars rest

end

/-- The compact text of a document. -/
def text (j : Json) : String := String.ofList j.chars

end SqlMapper.Json
