import SqlMapper.Json.Fault
import SqlMapper.Text.Hexadecimal

/-!
# Strings in JSON text

The characters of a string are read one at a time, the state saying what part of an escape has
been seen. A number escape is judged once four bytes follow it, and escapes for surrogates must
come in pairs.
-/

namespace SqlMapper.Json

/-- What has been seen of an escape. A high surrogate is remembered until its partner is there. -/
inductive QuoteState
  | plain
  | backslash
  | hex (bytes : Nat) (value : Option Nat) (high : Option Nat)
  | afterHigh (high : Nat)
  | afterHighBackslash (high : Nat)

inductive QuoteStep
  | close
  | fail
  | emit (c : Char) (next : QuoteState)
  | go (next : QuoteState)

/-- The character that a backslash and a letter stand for. -/
def escapeOf? (c : Char) : Option Char :=
  if c = '"' then some '"'
  else if c = '\\' then some '\\'
  else if c = '/' then some '/'
  else if c = 'b' then some '\x08'
  else if c = 'f' then some '\x0c'
  else if c = 'n' then some '\n'
  else if c = 'r' then some '\r'
  else if c = 't' then some '\t'
  else none

def isHighSurrogate (n : Nat) : Bool := 0xD800 ≤ n && n ≤ 0xDBFF

def isLowSurrogate (n : Nat) : Bool := 0xDC00 ≤ n && n ≤ 0xDFFF

/-- Ends a number escape. -/
def closeHex (attitude : Attitude) (n : Nat) : Option Nat → QuoteStep
  | none =>
      if isHighSurrogate n ∧ attitude = .strict then .go (.afterHigh n)
      else if isLowSurrogate n ∧ attitude = .strict then .fail
      else .emit (Char.ofNat n) .plain
  | some high =>
      if isLowSurrogate n then
        .emit (Char.ofNat (0x10000 + (high - 0xD800) * 0x400 + (n - 0xDC00))) .plain
      else .fail

def quoteStep (attitude : Attitude) (c : Char) : QuoteState → QuoteStep
  | .plain =>
      if c = '"' then .close
      else if c = '\\' then .go .backslash
      else if c.toNat < 0x20 then .fail
      else .emit c .plain
  | .backslash =>
      if c = 'u' then .go (.hex 0 (some 0) none)
      else match escapeOf? c with
        | some e => .emit e .plain
        | none => .fail
  | .hex bytes value high =>
      let bytes := bytes + c.utf8Size
      let value := do return 16 * (← value) + (← Text.hexValue? c)
      if bytes < 4 then .go (.hex bytes value high)
      else match value with
        | some n => closeHex attitude n high
        | none => .fail
  | .afterHigh high => if c = '\\' then .go (.afterHighBackslash high) else .fail
  | .afterHighBackslash high => if c = 'u' then .go (.hex 0 (some 0) (some high)) else .fail

/-- Reads a string after its opening quote: its characters, and what follows the closing quote. -/
def quotation (attitude : Attitude) (state : QuoteState) :
    List Char → Except Fault (List Char × List Char)
  | [] => .error .truncated
  | c :: rest =>
      match quoteStep attitude c state with
      | .close => .ok ([], rest)
      | .fail => .error .malformed
      | .emit e next => do
          let (chars, rest) ← quotation attitude next rest
          .ok (e :: chars, rest)
      | .go next => quotation attitude next rest

end SqlMapper.Json
