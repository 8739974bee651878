import SqlMapper.Json.Writer

/-!
# Rejected requests

Why a request is turned down before anything is sent to the database.
-/

namespace SqlMapper

/-- What is wrong with a condition, an order or a page. -/
inductive ConditionError
  | listAsCondition (list : Json)
  | notAnObject (found : Json)
  | orNotAList
  | filterNotAnObject (found : Json)
  | orderEntryNotText
  | orderNotText
  | notACount (key : String)
  | orderTerm (term : String)
  | rangeSize (column : String)
  | patternOperand (column : String)
  | listOperand (operator column : String)
  | unknownOperator (key : String)
  | invalidPattern (pattern : String)

/-- A request is turned down for lack of a condition, of an identity or of anything to write, or
for a malformed condition. -/
inductive QueryError
  | missingWhere
  | missingId (model : String)
  | emptyUpdate (model : String)
  | invalidCondition (cause : ConditionError)

def ConditionError.message : ConditionError → String
  | .listAsCondition list =>
      "an array is not a condition, use \x7b\"in\": " ++ list.text ++ "\x7d"
  | .notAnObject found => "expected a condition object, got " ++ found.text
  | .orNotAList => "`or` must be an array of condition objects"
  | .filterNotAnObject found => "expected a filter object, got " ++ found.text
  | .orderEntryNotText => "`order` entries must be strings"
  | .orderNotText => "`order` must be a string or an array of strings"
  | .notACount key => s!"`{key}` must be a non-negative integer"
  | .orderTerm term => s!"invalid order term `{term}`"
  | .rangeSize column => s!"between on {column} needs exactly two values"
  | .patternOperand column => s!"regex on {column} needs a pattern string"
  | .listOperand operator column => s!"{operator} on {column} takes a single value"
  | .unknownOperator key => s!"unsupported operator `{key}`"
  | .invalidPattern pattern => s!"invalid regular expression `{pattern}`"

def QueryError.message : QueryError → String
  | .missingWhere => "Undefined cond.where: refusing to delete without a condition"
  | .missingId model => s!"cannot update {model}: data has no id"
  | .emptyUpdate model => s!"nothing to update on {model}: no declared property in data"
  | .invalidCondition cause => "invalid condition: " ++ cause.message

def invalid (cause : ConditionError) : Except QueryError α := .error (.invalidCondition cause)

end SqlMapper
