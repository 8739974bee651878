import SqlMapper.Text.Hexadecimal
import SqlMapper.Text.Hidden

/-!
# Quoted text in messages

A text between double quotes in which nothing can be mistaken: quotes and backslashes are escaped,
and characters without a shape of their own are shown by their number.
-/

namespace SqlMapper.Text

def quotedChar (c : Char) : List Char :=
  if c = '\x00' then ['\\', '0']
  else if c = '\t' then ['\\', 't']
  else if c = '\n' then ['\\', 'n']
  else if c = '\r' then ['\\', 'r']
  else if c = '"' then ['\\', '"']
  else if c = '\\' then ['\\', '\\']
  else if isHidden c then ['\\', 'u', '\x7b'] ++ hexDigits c.toNat ++ ['\x7d']
  else [c]

def quoted (s : String) : String := String.ofList ('"' :: s.toList.flatMap quotedChar ++ ['"'])

end SqlMapper.Text
