import SqlMapper.Text.Blank

/-!
# Flags of patterns

A pattern may switch flags on and off inside. Three of them decide how it is read: whether blanks
and comments are skipped, whether letters stand for both cases, and whether it is about characters
or about bytes.
-/

namespace SqlMapper.Pattern

inductive Flag
  | caseless
  | lines
  | dotAll
  | swapGreed
  | crlf
  | unicode
  | spaced
  deriving DecidableEq, Repr

def Flag.ofChar? (c : Char) : Option Flag :=
  if c = 'i' then some .caseless
  else if c = 'm' then some .lines
  else if c = 's' then some .dotAll
  else if c = 'U' then some .swapGreed
  else if c = 'R' then some .crlf
  else if c = 'u' then some .unicode
  else if c = 'x' then some .spaced
  else none

/-- A flag, and whether it is switched on. -/
structure Switch where
  flag : Flag
  on : Bool
  deriving DecidableEq, Repr

/-- The flags that decide how a pattern is read. -/
structure Modes where
  spaced : Bool
  caseless : Bool
  unicode : Bool
  deriving DecidableEq, Repr

/-- The modes in which a pattern starts. -/
def Modes.initial : Modes := ⟨false, false, true⟩

def Modes.set (m : Modes) (s : Switch) : Modes :=
  match s.flag with
  | .spaced => { m with spaced := s.on }
  | .caseless => { m with caseless := s.on }
  | .unicode => { m with unicode := s.on }
  | _ => m

def Modes.setAll (m : Modes) (switches : List Switch) : Modes := switches.foldl Modes.set m

/-- Drops blanks and comments. A comment goes from a hash to the end of the line. -/
def dropComments (inComment : Bool) : List Char → List Char
  | [] => []
  | c :: rest =>
      if inComment then dropComments (c ≠ '\n') rest
      else if Text.isBlank c then dropComments false rest
      else if c = '#' then dropComments true rest
      else c :: rest

/-- Drops blanks and comments if they are to be skipped. -/
def skip (spaced : Bool) (cs : List Char) : List Char :=
  if spaced then dropComments false cs else cs

/-- Takes the characters up to the first that fails a test. Blanks and comments before and between
them are dropped if they are to be skipped. -/
def gather (spaced : Bool) (test : Char → Bool) (inComment : Bool) :
    List Char → List Char × List Char
  | [] => ([], [])
  | c :: rest =>
      if inComment then gather spaced test (c ≠ '\n') rest
      else if spaced && Text.isBlank c then gather spaced test false rest
      else if spaced && c = '#' then gather spaced test true rest
      else if test c then
        let (taken, rest) := gather spaced test false rest
        (c :: taken, rest)
      else ([], c :: rest)

/-- Reads the letters of a flag group, up to the colon or parenthesis that ends them, which is left
in place. A hyphen switches off what follows it; it may occur once and not last, and no flag may
occur twice. -/
def readSwitches (negated afterHyphen : Bool) (seen : List Flag) :
    List Char → Option (List Switch × List Char)
  | [] => none
  | c :: rest =>
      if c = ':' ∨ c = ')' then if afterHyphen then none else some ([], c :: rest)
      else if c = '-' then if negated then none else readSwitches true true seen rest
      else
        match Flag.ofChar? c with
        | none => none
        | some flag =>
            if seen.contains flag then none
            else do
              let (switches, rest) ← readSwitches negated false (flag :: seen) rest
              some (⟨flag, !negated⟩ :: switches, rest)

end SqlMapper.Pattern
