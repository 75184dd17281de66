import RecordCheck.Double.Basic
import RecordCheck.Double.Decimal
import RecordCheck.Double.Shortest
import RecordCheck.Eval.Basic
import RecordCheck.Eval.Call
import RecordCheck.Eval.Error
import RecordCheck.Eval.Operators
import RecordCheck.Expr.Basic
import RecordCheck.Expr.Fault
import RecordCheck.Expr.Formula
import RecordCheck.Expr.Intrinsic
import RecordCheck.Expr.Lexer
import RecordCheck.Expr.Parser
import RecordCheck.Expr.References
import RecordCheck.Expr.Token
import RecordCheck.FieldType
import RecordCheck.Proofs.Double.Widening
import RecordCheck.Proofs.Eval.Calls
import RecordCheck.Proofs.Eval.Chains
import RecordCheck.Proofs.Eval.Comparisons
import RecordCheck.Proofs.Eval.Connectives
import RecordCheck.Proofs.Eval.Containers
import RecordCheck.Proofs.Eval.Equality
import RecordCheck.Proofs.Eval.Extremes
import RecordCheck.Proofs.Eval.IntegerTexts
import RecordCheck.Proofs.Eval.Integers
import RecordCheck.Proofs.Eval.Operands
import RecordCheck.Proofs.Eval.Order
import RecordCheck.Proofs.Eval.Positions
import RecordCheck.Proofs.Eval.Reads
import RecordCheck.Proofs.Eval.Uniqueness
import RecordCheck.Proofs.Expr.Braces
import RecordCheck.Proofs.Expr.Completeness
import RecordCheck.Proofs.Expr.FaultPlaces
import RecordCheck.Proofs.Expr.Formulas
import RecordCheck.Proofs.Expr.Grammar
import RecordCheck.Proofs.Expr.Lookahead
import RecordCheck.Proofs.Expr.Lossless
import RecordCheck.Proofs.Expr.Marks
import RecordCheck.Proofs.Expr.Munch
import RecordCheck.Proofs.Expr.Occurrences
import RecordCheck.Proofs.Expr.Parsing
import RecordCheck.Proofs.Expr.Places
import RecordCheck.Proofs.Expr.Printer
import RecordCheck.Proofs.Expr.Readers
import RecordCheck.Proofs.Expr.Reading
import RecordCheck.Proofs.Expr.References
import RecordCheck.Proofs.Expr.Soundness
import RecordCheck.Proofs.Expr.Spelling
import RecordCheck.Proofs.FieldType
import RecordCheck.Proofs.Results
import RecordCheck.Proofs.Scenario.Expectations
import RecordCheck.Proofs.Schema.Building
import RecordCheck.Proofs.Schema.Built
import RecordCheck.Proofs.Schema.ClosedWalks
import RecordCheck.Proofs.Schema.Cycles
import RecordCheck.Proofs.Schema.Fields
import RecordCheck.Proofs.Schema.Mentions
import RecordCheck.Proofs.Schema.Order
import RecordCheck.Proofs.Schema.Registry
import RecordCheck.Proofs.Schema.Resolution
import RecordCheck.Proofs.Text.Quoted
import RecordCheck.Proofs.Validation.Acceptance
import RecordCheck.Proofs.Validation.Access
import RecordCheck.Proofs.Validation.Addresses
import RecordCheck.Proofs.Validation.Alike
import RecordCheck.Proofs.Validation.Alternatives
import RecordCheck.Proofs.Validation.Carries
import RecordCheck.Proofs.Validation.CheckNames
import RecordCheck.Proofs.Validation.Congruence
import RecordCheck.Proofs.Validation.Constraints
import RecordCheck.Proofs.Validation.Depth
import RecordCheck.Proofs.Validation.Derivation
import RecordCheck.Proofs.Validation.Failures
import RecordCheck.Proofs.Validation.Filling
import RecordCheck.Proofs.Validation.Layers
import RecordCheck.Proofs.Validation.LiveTags
import RecordCheck.Proofs.Validation.Locality
import RecordCheck.Proofs.Validation.Locations
import RecordCheck.Proofs.Validation.Lookups
import RecordCheck.Proofs.Validation.Omission
import RecordCheck.Proofs.Validation.PathTexts
import RecordCheck.Proofs.Validation.Plain
import RecordCheck.Proofs.Validation.Precedence
import RecordCheck.Proofs.Validation.Readiness
import RecordCheck.Proofs.Validation.Relocation
import RecordCheck.Proofs.Validation.Reorder
import RecordCheck.Proofs.Validation.Spots
import RecordCheck.Proofs.Validation.Stripping
import RecordCheck.Proofs.Validation.Trace
import RecordCheck.Proofs.Validation.Visit
import RecordCheck.Proofs.Validation.Walks
import RecordCheck.Proofs.Validation.Wrappers
import RecordCheck.Proofs.Value.Equality
import RecordCheck.Proofs.Value.Fields
import RecordCheck.Proofs.Value.Insertions
import RecordCheck.Proofs.Value.Parts
import RecordCheck.Regex.Basic
import RecordCheck.Regex.Class
import RecordCheck.Regex.Match
import RecordCheck.Regex.Parser
import RecordCheck.Regex.Pattern
import RecordCheck.Regex.Reason
import RecordCheck.Regex.Size
import RecordCheck.Samples
import RecordCheck.Scenario.Basic
import RecordCheck.Scenario.Expectation
import RecordCheck.Scenario.Failure
import RecordCheck.Schema.Basic
import RecordCheck.Schema.Builder
import RecordCheck.Schema.Error
import RecordCheck.Schema.Order
import RecordCheck.Schema.Registry
import RecordCheck.Settings.Basic
import RecordCheck.Settings.Reading
import RecordCheck.Text.Blank
import RecordCheck.Text.Case
import RecordCheck.Text.CodePoints
import RecordCheck.Text.Letter
import RecordCheck.Text.Pieces
import RecordCheck.Text.Quoted
import RecordCheck.Text.Scan
import RecordCheck.Text.Search
import RecordCheck.Toml.Basic
import RecordCheck.Toml.Parser
import RecordCheck.Toml.Scalar
import RecordCheck.Toml.Table
import RecordCheck.Validation.Address
import RecordCheck.Validation.Basic
import RecordCheck.Validation.Checks
import RecordCheck.Validation.Constraints
import RecordCheck.Validation.Error
import RecordCheck.Validation.Path
import RecordCheck.Validation.Validated
import RecordCheck.Value.Basic
import RecordCheck.Value.Entries
import RecordCheck.Value.Equality
import RecordCheck.Value.Fields
import RecordCheck.Value.Json
import RecordCheck.Value.Order
import RecordCheck.Value.Text
