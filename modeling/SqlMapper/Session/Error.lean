import SqlMapper.Query.Error
import SqlMapper.Text.Integer

/-!
# Failures of a session

A request fails because it is turned down, because the database fails, because it takes too long,
or, for a migration, because some models fail.
-/

namespace SqlMapper

/-- Failures of the database. -/
inductive DatabaseError
  | noRow
  | unexpectedData (detail : String)
  deriving DecidableEq, Repr

inductive SessionError
  | database (cause : DatabaseError)
  | query (cause : QueryError)
  | unknownModel (name : String)
  | timeout (millis : UInt64)
  /-- The models that failed, each with its own failure. -/
  | migration (failures : List (String × SessionError))

def DatabaseError.message : DatabaseError → String
  | .noRow =>
      "no rows returned by a query that expected to return at least one row"
  | .unexpectedData detail => "encountered unexpected or invalid data: " ++ detail

/-- A duration in seconds from one second on, and in milliseconds below; zero has a unit of its
own. -/
def durationText (millis : UInt64) : String :=
  let n := millis.toNat
  if n = 0 then "0ns"
  else if n < 1000 then Text.natText n ++ "ms"
  else
    let fraction := ((Text.paddedDigits 3 (n % 1000)).reverse.dropWhile (· == '0')).reverse
    let point := if fraction.isEmpty then "" else "."
    Text.natText (n / 1000) ++ point ++ String.ofList fraction ++ "s"

namespace SessionError

mutual

def message : SessionError → String
  | .database cause => "database error: " ++ cause.message
  | .query cause => cause.message
  | .unknownModel name => "unknown model: " ++ name
  | .timeout millis => "timed out after " ++ durationText millis
  | .migration failures =>
      "migration failed for " ++ Text.natText failures.length ++ " model(s):\n" ++
        "\n".intercalate (failureLines failures)

def failureLines : List (String × SessionError) → List String
  | [] => []
  | (model, cause) :: rest => ("  - " ++ model ++ ": " ++ cause.message) :: failureLines rest

end

end SessionError

end SqlMapper
