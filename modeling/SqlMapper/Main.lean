import SqlMapper.Model.Decode
import SqlMapper.Schema.Definition

/-!
# Command line

Reads a list of models from standard input and prints the statements that make their tables, in the
dialect that the argument names.
-/

namespace SqlMapper.CommandLine

/-- The dialect that the arguments ask for; without any it is the generic one. -/
def dialect? : List String → Option Dialect
  | [] => some .generic
  | ["generic"] => some .generic
  | ["sqlite"] => some .sqlite
  | _ => none

/-- The statements that make the table of a model, under the name of the model. -/
def listing (d : Dialect) (m : Model) : List String :=
  ("-- " ++ m.name) :: (m.creation.statements d m).map (· ++ ";")

/-- What is wrong with a text that holds no list of models. -/
def explanation (e : ModelFileError) : String :=
  match e with
  | .parse _ (.misfit m) => e.heading ++ ": " ++ m.message
  | _ => e.heading

/-- The lines to print for a text, or what is wrong with it. -/
def respond (d : Dialect) (text : String) : Except String (List String) :=
  match parseModels "standard input" text with
  | .ok models => .ok (models.flatMap (listing d))
  | .error e => .error (explanation e)

partial def readAll (input : IO.FS.Stream) (text : String) : IO String := do
  let line ← input.getLine
  if line.isEmpty then return text else readAll input (text ++ line)

end SqlMapper.CommandLine

open SqlMapper.CommandLine in
def main (arguments : List String) : IO UInt32 := do
  match dialect? arguments with
  | none =>
      IO.eprintln "usage: sqlmapper [generic | sqlite] < models"
      return 2
  | some d =>
      let text ← readAll (← IO.getStdin) ""
      match respond d text with
      | .ok lines =>
          lines.forM fun line => IO.println line
          return 0
      | .error message =>
          IO.eprintln message
          return 1
