import Sieve.Cache.Basic
import Sieve.Cache.Key
import Sieve.Calendar.Date
import Sieve.Calendar.DateTime
import Sieve.Calendar.Offset
import Sieve.Calendar.Pattern
import Sieve.Coercer
import Sieve.Condition
import Sieve.Datum
import Sieve.Datum.OfJson
import Sieve.Decimal.Integer
import Sieve.Decimal.Layout
import Sieve.Decimal.Reading
import Sieve.Decimal.Shortest
import Sieve.Document.Conversion
import Sieve.Document.Query
import Sieve.Document.Rendering
import Sieve.Document.Selector
import Sieve.Error
import Sieve.Evaluation
import Sieve.Field
import Sieve.Filter
import Sieve.Guid
import Sieve.Json.Basic
import Sieve.Json.Fields
import Sieve.Json.Number
import Sieve.Json.Printer
import Sieve.Json.Reader
import Sieve.Json.Source
import Sieve.Kind
import Sieve.Literal.BracketList
import Sieve.Literal.Tokens
import Sieve.Locale
import Sieve.Operator.Builtin
import Sieve.Operator.Custom
import Sieve.Plan.Basic
import Sieve.Plan.Binding
import Sieve.Resolution
import Sieve.Rule.Basic
import Sieve.Rule.Format
import Sieve.Rule.RawValue
import Sieve.Schema
import Sieve.Settings
import Sieve.Sql.Clause
import Sieve.Sql.Dialect
import Sieve.Sql.Fragment
import Sieve.Sql.Query
import Sieve.Text.Blank
import Sieve.Text.CaseTable
import Sieve.Text.LowerCase
import Sieve.Text.Printable
import Sieve.Text.Quoted
import Sieve.Text.Ranges
import Sieve.Text.Search
import Sieve.Translation
import Sieve.Value
import Sieve.Proofs.Outcome
import Sieve.Proofs.Plan.Assembly
import Sieve.Proofs.Plan.Verdict
import Sieve.Proofs.Cache.Shape
import Sieve.Proofs.Cache.Transparency
import Sieve.Proofs.Cache.Recency
import Sieve.Proofs.Sql.Like
import Sieve.Proofs.Sql.Wildcards
import Sieve.Proofs.Condition.Tests
import Sieve.Proofs.Sql.Pieces
import Sieve.Proofs.Sql.Formula
import Sieve.Proofs.Sql.Columns
import Sieve.Proofs.Sql.Meaning
import Sieve.Proofs.Sql.Lexer
import Sieve.Proofs.Sql.Symbols
import Sieve.Proofs.Sql.Reading
import Sieve.Proofs.Sql.Chain
import Sieve.Proofs.Sql.Leaves
import Sieve.Proofs.Sql.Independence
import Sieve.Proofs.Calendar.Order
import Sieve.Proofs.Decimal.Digits
import Sieve.Proofs.Calendar.Text
import Sieve.Proofs.Guid.Text
import Sieve.Proofs.Document.Regex
import Sieve.Proofs.Schema.Conformance
import Sieve.Proofs.Document.Stored
import Sieve.Proofs.Resolution.Moves
import Sieve.Proofs.Resolution.Typing
import Sieve.Proofs.Resolution.Rounds
import Sieve.Proofs.Document.Operand
import Sieve.Proofs.Document.Matching
import Sieve.Proofs.Condition.Typing
import Sieve.Proofs.Document.Windows
import Sieve.Proofs.Document.Agreement
import Sieve.Proofs.Plan.Typing
import Sieve.Proofs.Document.Json
import Sieve.Proofs.Document.Places
import Sieve.Proofs.Document.Meaning
import Sieve.Proofs.Resolution.Places
import Sieve.Proofs.Operator.Asking
import Sieve.Proofs.Plan.Leaf
import Sieve.Proofs.Plan.Reach
import Sieve.Proofs.Plan.Complement
import Sieve.Proofs.Text.LowerCase
import Sieve.Proofs.Operator.Folding
import Sieve.Proofs.Plan.Folding
import Sieve.Proofs.Condition.Case
import Sieve.Proofs.Plan.Case
import Sieve.Proofs.Value.Order
import Sieve.Proofs.Condition.Asked
import Sieve.Proofs.Plan.Comparability
import Sieve.Proofs.Plan.NullTests
import Sieve.Proofs.Plan.Extension
import Sieve.Proofs.Plan.Faults
import Sieve.Proofs.Plan.Padding
import Sieve.Proofs.Decimal.Bound
import Sieve.Proofs.Json.Number
import Sieve.Proofs.Plan.Literals
import Sieve.Proofs.Json.Fields
import Sieve.Proofs.Json.Text
import Sieve.Proofs.Rule.Format
import Sieve.Proofs.Plan.Testing
import Sieve.Proofs.Plan.Coherence
import Sieve.Proofs.Document.Comparison
import Sieve.Proofs.Document.Days
import Sieve.Proofs.Document.Precision
import Sieve.Proofs.Condition.Parts
import Sieve.Proofs.Sql.EmptyLists
import Sieve.Proofs.Document.EmptyLists
import Sieve.Proofs.Translation.EmptyLists
import Sieve.Proofs.Document.Scope
import Sieve.Proofs.Sql.Refusals
import Sieve.Proofs.Double.Nearest
import Sieve.Proofs.Double.Rounding
import Sieve.Proofs.Double.Storage
import Sieve.Proofs.Double.Scientific
import Sieve.Proofs.Value.Widths
import Sieve.Proofs.Plan.Widths
import Sieve.Proofs.Decimal.Shortest
import Sieve.Proofs.Decimal.Reading
import Sieve.Proofs.Text.Blank
import Sieve.Proofs.Locale.Number
import Sieve.Proofs.Coercer.Comma
import Sieve.Proofs.Coercer.Native
import Sieve.Proofs.Plan.Native
import Sieve.Proofs.Locale.Integer
import Sieve.Proofs.Coercer.Integer
import Sieve.Proofs.Literal.Numbers
import Sieve.Proofs.Literal.ListText
import Sieve.Proofs.Literal.BracketList
import Sieve.Proofs.Plan.Membership
import Sieve.Proofs.Literal.Unclosed
import Sieve.Proofs.Filter.Selection
import Sieve.Proofs.Document.Anchors
import Sieve.Proofs.Condition.Failures
import Sieve.Proofs.Plan.Failures
import Sieve.Proofs.Document.Chain
import Sieve.Proofs.Calendar.Written
import Sieve.Proofs.Coercer.Dates
import Sieve.Proofs.Coercer.Rendered
