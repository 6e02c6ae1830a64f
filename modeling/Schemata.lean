import Schemata.Finding
import Schemata.Json.Printer
import Schemata.Text.Lines
import Schemata.Text.Quoted
import Schemata.Catalog.Introspection
import Schemata.Code.Artifact
import Schemata.Code.Summary
import Schemata.Connection.Call
import Schemata.Conversion
import Schemata.Text.Duration
import Schemata.Proofs.Text.Lines
import Schemata.Proofs.Text.Letter
import Schemata.Proofs.Notation.Lexeme
import Schemata.Proofs.Number.Decimal
import Schemata.Proofs.Column.Spelling
import Schemata.Proofs.Column.Default
import Schemata.Proofs.Notation.Line
import Schemata.Proofs.Notation.Draft
import Schemata.Proofs.Notation.Text
import Schemata.Proofs.Notation.Builder
import Schemata.Proofs.Notation.RoundTrip
import Schemata.Proofs.Dependency.Kahn
import Schemata.Proofs.Plan.Groups
import Schemata.Proofs.Plan.Order
import Schemata.Proofs.Dependency.Cycle
import Schemata.Proofs.Dependency.Acyclic
import Schemata.Proofs.Dependency.Resolve
import Schemata.Proofs.Plan.Agreement
import Schemata.Proofs.Connection.Handle
import Schemata.Proofs.Connection.Accounting
import Schemata.Proofs.Plan.Names
import Schemata.Proofs.Column.RawType
import Schemata.Proofs.Notation.Relabel
import Schemata.Proofs.Catalog.Rows
import Schemata.Proofs.Catalog.RoundTrip
import Schemata.Proofs.Number.Shortest
import Schemata.Proofs.Json.Numeral
import Schemata.Proofs.Json.Grammar
import Schemata.Proofs.Json.Quote
import Schemata.Proofs.Json.RoundTrip
import Schemata.Proofs.Json.Printer
import Schemata.Proofs.Document.Check
import Schemata.Proofs.Column.Bare
import Schemata.Proofs.Document.Reload
import Schemata.Proofs.Document.RoundTrip
import Schemata.Proofs.Text.Padded
import Schemata.Proofs.Plan.Instant
import Schemata.Proofs.Plan.Stamps
import Schemata.Proofs.Code.Files
import Schemata.Proofs.Conversion.Generate
import Schemata.Proofs.Conversion.FileOrder
import Schemata.Proofs.Code.Sql.Script
import Schemata.Proofs.Code.Rollback
import Schemata.Proofs.Code.Sql.Rebuild
import Schemata.Proofs.Code.IntegerForm
import Schemata.Proofs.Code.Sql.Containers
import Schemata.Proofs.Text.Literal
import Schemata.Proofs.Text.Spelled
import Schemata.Proofs.Code.Sql.Literals
import Schemata.Proofs.Code.Literals
import Schemata.Proofs.Catalog.Reading
import Schemata.Proofs.Connection.Session
import Schemata.Proofs.Catalog.Introspection
import Schemata.Proofs.Conversion.Results
import Schemata.Proofs.Number.Rounding
import Schemata.Proofs.Connection.Sweep
import Schemata.Proofs.Catalog.Keys
import Schemata.Proofs.Conversion.Renaming
import Schemata.Proofs.Conversion.Targets
import Schemata.Proofs.Notation.Order
import Schemata.Proofs.Conversion.Orientation
import Schemata.Proofs.Column.Cast
import Schemata.Proofs.Column.Parentheses
import Schemata.Proofs.Code.PrimaryKey
import Schemata.Proofs.Catalog.Labels
import Schemata.Proofs.Notation.Feeds
import Schemata.Proofs.Notation.FreeText
import Schemata.Proofs.Notation.Comments
import Schemata.Proofs.Notation.Faults
import Schemata.Proofs.Catalog.ForeignKeys
import Schemata.Proofs.Code.Sql.Identifiers
import Schemata.Proofs.Column.Losses
import Schemata.Proofs.Code.TypeWarnings
import Schemata.Proofs.Conversion.TypeWarnings
