/-!
# Reading UTF-8 with replacement

Bytes are decoded one at a time. A byte that cannot continue the sequence in progress ends it: the
sequence is replaced by U+FFFD as a whole and the byte is looked at again as the start of another.
-/

namespace SqlMapper.Text

/-- A sequence in progress: the bits read so far, how many bytes are owed, and the range of the
next one. -/
structure Utf8Pending where
  bits : Nat
  owed : Nat
  low : Nat
  high : Nat

/-- What a first byte announces. -/
inductive Utf8Lead
  | ascii
  | sequence (pending : Utf8Pending)
  | invalid

/-- Overlong forms, surrogates and values past the last code point are excluded by the range of
the second byte. -/
def utf8Lead (b : Nat) : Utf8Lead :=
  if b < 0x80 then .ascii
  else if 0xC2 ≤ b ∧ b ≤ 0xDF then .sequence ⟨b % 0x20, 1, 0x80, 0xBF⟩
  else if b = 0xE0 then .sequence ⟨0, 2, 0xA0, 0xBF⟩
  else if b = 0xED then .sequence ⟨0xD, 2, 0x80, 0x9F⟩
  else if 0xE1 ≤ b ∧ b ≤ 0xEF then .sequence ⟨b % 0x10, 2, 0x80, 0xBF⟩
  else if b = 0xF0 then .sequence ⟨0, 3, 0x90, 0xBF⟩
  else if 0xF1 ≤ b ∧ b ≤ 0xF3 then .sequence ⟨b % 0x08, 3, 0x80, 0xBF⟩
  else if b = 0xF4 then .sequence ⟨4, 3, 0x80, 0x8F⟩
  else .invalid

def replacement : Char := Char.ofNat 0xFFFD

/-- Reads a byte between characters: the characters it completes and the sequence it opens. -/
def utf8Start (b : Nat) : List Char × Option Utf8Pending :=
  match utf8Lead b with
  | .ascii => ([Char.ofNat b], none)
  | .sequence p => ([], some p)
  | .invalid => ([replacement], none)

def utf8Step (b : Nat) : Option Utf8Pending → List Char × Option Utf8Pending
  | none => utf8Start b
  | some p =>
      if p.low ≤ b ∧ b ≤ p.high then
        let bits := p.bits * 0x40 + b % 0x40
        if p.owed = 1 then ([Char.ofNat bits], none)
        else ([], some ⟨bits, p.owed - 1, 0x80, 0xBF⟩)
      else
        let (chars, state) := utf8Start b
        (replacement :: chars, state)

def utf8Decode (state : Option Utf8Pending) : List UInt8 → List Char
  | [] => if state.isSome then [replacement] else []
  | b :: rest =>
      let (chars, state) := utf8Step b.toNat state
      chars ++ utf8Decode state rest

/-- The text of some bytes, each ill-formed sequence replaced. -/
def utf8Lossy (bytes : List UInt8) : String := String.ofList (utf8Decode none bytes)

end SqlMapper.Text
