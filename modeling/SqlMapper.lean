import SqlMapper.Number.Layout
import SqlMapper.Text.Blank
import SqlMapper.Text.Real
import SqlMapper.Text.Utf8
import SqlMapper.Text.Quoted
import SqlMapper.Json.Writer
import SqlMapper.Json.Document
import SqlMapper.Json.Decode
import SqlMapper.Calendar.Format
import SqlMapper.Calendar.Parse
import SqlMapper.Model.Decode
import SqlMapper.Literal
import SqlMapper.Query.Filter
import SqlMapper.Query.Predicate
import SqlMapper.Query.Mapper
import SqlMapper.Schema.Definition
import SqlMapper.Schema.Listing
import SqlMapper.Session.Migration
import SqlMapper.Session.Script
import SqlMapper.Main
import SqlMapper.Proofs.Calendar.Days
import SqlMapper.Proofs.Calendar.Internet
import SqlMapper.Proofs.Calendar.Order
import SqlMapper.Proofs.Calendar.Reading
import SqlMapper.Proofs.Condition.Emptiness
import SqlMapper.Proofs.Condition.Equality
import SqlMapper.Proofs.Condition.Expression
import SqlMapper.Proofs.Condition.Meaning
import SqlMapper.Proofs.Condition.Patterns
import SqlMapper.Proofs.Condition.Preservation
import SqlMapper.Proofs.Condition.Reading
import SqlMapper.Proofs.Condition.Refusal
import SqlMapper.Proofs.Condition.Widening
import SqlMapper.Proofs.Json.Lexis
import SqlMapper.Proofs.Json.Reading
import SqlMapper.Proofs.Lexis.Decoding
import SqlMapper.Proofs.Lexis.Numeral
import SqlMapper.Proofs.Lexis.Token
import SqlMapper.Proofs.Lexis.Written
import SqlMapper.Proofs.Number.Integral
import SqlMapper.Proofs.Number.Reading
import SqlMapper.Proofs.Number.Rounding
import SqlMapper.Proofs.Query.Identity
import SqlMapper.Proofs.Query.Insertion
import SqlMapper.Proofs.Query.Reference
import SqlMapper.Proofs.Query.Saving
import SqlMapper.Proofs.Query.Selection
import SqlMapper.Proofs.Query.Update
import SqlMapper.Proofs.Schema.Catalog
import SqlMapper.Proofs.Schema.Command
import SqlMapper.Proofs.Schema.Convergence
import SqlMapper.Proofs.Schema.Copying
import SqlMapper.Proofs.Schema.Creation
import SqlMapper.Proofs.Schema.Difference
import SqlMapper.Proofs.Schema.Execution
import SqlMapper.Proofs.Schema.Footprint
import SqlMapper.Proofs.Schema.InPlace
import SqlMapper.Proofs.Schema.Outcome
import SqlMapper.Proofs.Schema.Rebuild
import SqlMapper.Proofs.Schema.Survival
import SqlMapper.Proofs.Session.Activity
import SqlMapper.Proofs.Session.Attribution
import SqlMapper.Proofs.Session.Isolation
import SqlMapper.Proofs.Session.Planning
import SqlMapper.Proofs.Session.Request
import SqlMapper.Proofs.Session.Separation
import SqlMapper.Proofs.Stability
import SqlMapper.Proofs.Text.Blanks
import SqlMapper.Proofs.Text.Digits
import SqlMapper.Proofs.Query.Ordering
import SqlMapper.Proofs.Condition.Encoding
import SqlMapper.Proofs.Condition.Qualified
import SqlMapper.Proofs.Session.Identity
import SqlMapper.Proofs.Query.Filtering
import SqlMapper.Proofs.Condition.Building
import SqlMapper.Proofs.Json.Structure
import SqlMapper.Proofs.Model.Reading
import SqlMapper.Proofs.Model.File
import SqlMapper.Proofs.Session.Registration
import SqlMapper.Proofs.Record
import SqlMapper.Proofs.Lexis.Quoting
import SqlMapper.Proofs.Json.Objects
import SqlMapper.Proofs.Session.Settings
