import ScopedQuery.Calendar.Date
import ScopedQuery.Calendar.Reading
import ScopedQuery.Calendar.Timestamp
import ScopedQuery.Cell.Interval
import ScopedQuery.Cell.Numeric
import ScopedQuery.Cell.Parameter
import ScopedQuery.Cell.Reading
import ScopedQuery.Fault
import ScopedQuery.Flat.Layout
import ScopedQuery.Flat.Spec
import ScopedQuery.Json.Basic
import ScopedQuery.Json.Document
import ScopedQuery.Json.Reading
import ScopedQuery.Layer.Address
import ScopedQuery.Layer.Basic
import ScopedQuery.Layer.CallLog
import ScopedQuery.Layer.Request
import ScopedQuery.Layer.Session
import ScopedQuery.Layer.Settings
import ScopedQuery.Number.Binary64
import ScopedQuery.Number.Literal
import ScopedQuery.Number.Shortest
import ScopedQuery.Ordered
import ScopedQuery.Page.Desk
import ScopedQuery.Page.Export
import ScopedQuery.Page.Memory
import ScopedQuery.Page.Pager
import ScopedQuery.Rule.Basic
import ScopedQuery.Rule.Compiled
import ScopedQuery.Rule.Pattern
import ScopedQuery.Schema.Coercion
import ScopedQuery.Schema.Dashboard
import ScopedQuery.Schema.Kind
import ScopedQuery.Schema.Table
import ScopedQuery.Sql.Filter
import ScopedQuery.Sql.Name
import ScopedQuery.Sql.Statement
import ScopedQuery.Text.Blank
import ScopedQuery.Text.Bytes
import ScopedQuery.Text.Digits
import ScopedQuery.Text.Letter
import ScopedQuery.Text.Parts
import ScopedQuery.Uuid
import ScopedQuery.Value
import ScopedQuery.Wire.Field
import ScopedQuery.Wire.Flat
import ScopedQuery.Wire.Request
import ScopedQuery.Wire.Response
import ScopedQuery.Wire.Rule
import ScopedQuery.Wire.Schema
import ScopedQuery.Wire.Settings
import ScopedQuery.Proofs.Result
import ScopedQuery.Proofs.Sql.Command
import ScopedQuery.Proofs.Sql.Rendering
import ScopedQuery.Proofs.Sql.Placeholders
import ScopedQuery.Proofs.Layer.Scoping
import ScopedQuery.Proofs.Page.Accumulation
import ScopedQuery.Proofs.Sql.Reading
import ScopedQuery.Proofs.Page.Exporting
import ScopedQuery.Proofs.Page.Flight
import ScopedQuery.Proofs.Page.Resetting
import ScopedQuery.Proofs.Page.Growing
import ScopedQuery.Proofs.Page.Timeline
import ScopedQuery.Proofs.Ordered
import ScopedQuery.Proofs.Layer.Checks
import ScopedQuery.Proofs.Sql.Content
import ScopedQuery.Proofs.Layer.Allowed
import ScopedQuery.Proofs.Layer.Calls
import ScopedQuery.Proofs.Layer.Binding
import ScopedQuery.Proofs.Flat.Fields
import ScopedQuery.Proofs.Layer.CallLog
import ScopedQuery.Proofs.Text.Bytes
import ScopedQuery.Proofs.Text.Utf8
import ScopedQuery.Proofs.Text.Numerals
import ScopedQuery.Proofs.Uuid
import ScopedQuery.Proofs.Calendar.Days
import ScopedQuery.Proofs.Calendar.Spelling
import ScopedQuery.Proofs.Calendar.Rfc3339
import ScopedQuery.Proofs.Calendar.Texts
import ScopedQuery.Proofs.Json.Numbers
import ScopedQuery.Proofs.Json.Documents
import ScopedQuery.Proofs.Cell.Decimals
import ScopedQuery.Proofs.Cell.Jsonb
import ScopedQuery.Proofs.Cell.Stored
import ScopedQuery.Proofs.Number.Rounding
import ScopedQuery.Proofs.Number.Shortest
import ScopedQuery.Proofs.Calendar.Order
import ScopedQuery.Proofs.Rule.Days
import ScopedQuery.Proofs.Json.WellFormed
import ScopedQuery.Proofs.Schema.Kinds
import ScopedQuery.Proofs.Rule.Shapes
import ScopedQuery.Proofs.Layer.Closing
import ScopedQuery.Proofs.Json.NumberTexts
import ScopedQuery.Proofs.Json.Written
import ScopedQuery.Proofs.Json.Portable
import ScopedQuery.Proofs.Wire.Readers
import ScopedQuery.Proofs.Wire.RoundTrip
import ScopedQuery.Proofs.Rule.Forms
import ScopedQuery.Proofs.Rule.Compiling
import ScopedQuery.Proofs.Rule.Patterns
import ScopedQuery.Proofs.Calendar.Instants
import ScopedQuery.Proofs.Rule.WrittenDays
import ScopedQuery.Proofs.Cell.NumericBytes
import ScopedQuery.Proofs.Cell.NumericText
import ScopedQuery.Proofs.Cell.WholeNumbers
import ScopedQuery.Proofs.Cell.Arrays
import ScopedQuery.Proofs.Cell.Durations
import ScopedQuery.Proofs.Flat.Rows
import ScopedQuery.Proofs.Schema.Wording
import ScopedQuery.Proofs.Page.Offsets
