import BoundSql.BindMap
import BoundSql.Build
import BoundSql.Calendar.Date
import BoundSql.Calendar.Scan
import BoundSql.Calendar.TimeOfDay
import BoundSql.Calendar.Timestamp
import BoundSql.Connection.Basic
import BoundSql.Connection.Beside
import BoundSql.Connection.Offline
import BoundSql.Connection.Scripted
import BoundSql.Engine.Basic
import BoundSql.Engine.Config
import BoundSql.Engine.Run
import BoundSql.Error
import BoundSql.Filter.Basic
import BoundSql.Filter.Compile
import BoundSql.Filter.OfJson
import BoundSql.Fragment.Basic
import BoundSql.Fragment.OfJson
import BoundSql.Fragment.Template
import BoundSql.Join.Basic
import BoundSql.Join.Compile
import BoundSql.Join.OfJson
import BoundSql.Json.Basic
import BoundSql.Json.Member
import BoundSql.Json.Printer
import BoundSql.Json.Reader
import BoundSql.Json.Record
import BoundSql.Keyed
import BoundSql.Numeral.Binary
import BoundSql.Numeral.Binary32
import BoundSql.Numeral.Binary64
import BoundSql.Numeral.Decimal.Basic
import BoundSql.Numeral.Decimal.Binary
import BoundSql.Numeral.Decimal.Text
import BoundSql.Numeral.FloatText
import BoundSql.Numeral.Integer
import BoundSql.Numeral.Power
import BoundSql.Numeral.Shortest
import BoundSql.Postgres.Address
import BoundSql.Postgres.Driver
import BoundSql.Postgres.KeywordText
import BoundSql.Postgres.Options
import BoundSql.Postgres.ScriptedServer
import BoundSql.Postgres.Server
import BoundSql.Postgres.Settings
import BoundSql.Postgres.UrlText
import BoundSql.Projection.Basic
import BoundSql.Projection.Compile
import BoundSql.Projection.OfJson
import BoundSql.Proofs.Building.Alike
import BoundSql.Proofs.Building.Bindable
import BoundSql.Proofs.Building.Emission
import BoundSql.Proofs.Building.Spelling
import BoundSql.Proofs.Building.Success
import BoundSql.Proofs.Connection.Journal
import BoundSql.Proofs.Connection.Observed
import BoundSql.Proofs.Engine.Atomicity
import BoundSql.Proofs.Engine.Course
import BoundSql.Proofs.Engine.Program
import BoundSql.Proofs.Engine.Refusal
import BoundSql.Proofs.Engine.Session
import BoundSql.Proofs.Engine.Steps
import BoundSql.Proofs.Engine.TestMode
import BoundSql.Proofs.Engine.Transaction
import BoundSql.Proofs.Filter.Clauses
import BoundSql.Proofs.Filter.Emission
import BoundSql.Proofs.Filter.LimitNumber
import BoundSql.Proofs.Filter.Spelling
import BoundSql.Proofs.Filter.Structure
import BoundSql.Proofs.Join.Clauses
import BoundSql.Proofs.Join.Emission
import BoundSql.Proofs.Join.Spelling
import BoundSql.Proofs.Join.Structure
import BoundSql.Proofs.Keyed
import BoundSql.Proofs.Postgres.Binding
import BoundSql.Proofs.Projection.Emission
import BoundSql.Proofs.Projection.Spelling
import BoundSql.Proofs.Sql.Capture
import BoundSql.Proofs.Sql.Clause
import BoundSql.Proofs.Sql.DecimalText
import BoundSql.Proofs.Sql.Filling
import BoundSql.Proofs.Sql.Formula
import BoundSql.Proofs.Sql.Grammar
import BoundSql.Proofs.Sql.Lexing
import BoundSql.Proofs.Sql.Lossless
import BoundSql.Proofs.Sql.Numbering
import BoundSql.Proofs.Sql.Opacity
import BoundSql.Proofs.Sql.Phrases
import BoundSql.Proofs.Sql.Pieces
import BoundSql.Proofs.Sql.Precedence
import BoundSql.Proofs.Sql.Quoted
import BoundSql.Proofs.Sql.ReadBack
import BoundSql.Proofs.Sql.Regions
import BoundSql.Proofs.Sql.Scanning
import BoundSql.Proofs.Sql.Sound
import BoundSql.Proofs.Sql.Vocabulary
import BoundSql.Proofs.Statement.Clauses
import BoundSql.Proofs.Statement.Emission
import BoundSql.Proofs.Statement.Inlining
import BoundSql.Proofs.Statement.Isolation
import BoundSql.Proofs.Statement.Lifetime
import BoundSql.Proofs.Statement.Placeholders
import BoundSql.Proofs.Statement.Reading
import BoundSql.Proofs.Statement.Spelling
import BoundSql.Proofs.Statement.Steady
import BoundSql.Proofs.Statement.Writing
import BoundSql.Proofs.Text.Runs
import BoundSql.Row
import BoundSql.Sql.Identifier
import BoundSql.Sql.Literal
import BoundSql.Sql.Operator
import BoundSql.Sql.Placeholder
import BoundSql.Sql.Positional
import BoundSql.Sql.Quoter
import BoundSql.Sql.Segment
import BoundSql.Sql.Token
import BoundSql.Statement.Basic
import BoundSql.Statement.Compile
import BoundSql.Statement.Compiler
import BoundSql.Statement.OfJson
import BoundSql.Text.Hex
import BoundSql.Text.Listing
import BoundSql.Text.Percent
import BoundSql.Text.Scan
import BoundSql.Text.Utf8
import BoundSql.Unicode.AlphabeticRanges
import BoundSql.Unicode.NumberRanges
import BoundSql.Unicode.Property
import BoundSql.Unicode.Ranges
import BoundSql.Unicode.VisibleRanges
import BoundSql.Uuid
import BoundSql.Value.Basic
import BoundSql.Value.Conversion
import BoundSql.Value.Listing
import BoundSql.Wire.BigEndian
import BoundSql.Wire.ColumnType
import BoundSql.Wire.Decode
import BoundSql.Wire.Encode
import BoundSql.Wire.Numeric
import BoundSql.Proofs.Building.Blind
import BoundSql.Proofs.Statement.Masking
import BoundSql.Proofs.Engine.Task
import BoundSql.Proofs.Engine.DryRun
import BoundSql.Proofs.Engine.Slots
import BoundSql.Proofs.Engine.Uncompiled
import BoundSql.Proofs.Fragment.Marker
import BoundSql.Proofs.Fragment.Replacement
import BoundSql.Proofs.Sql.Standing
import BoundSql.Proofs.Statement.Insertion
import BoundSql.Proofs.Join.Alias
import BoundSql.Proofs.Statement.Arguments
import BoundSql.Proofs.Postgres.Overlay
import BoundSql.Proofs.Projection.Flattening
import BoundSql.Proofs.Building.Failure
import BoundSql.Proofs.Projection.Wildcard
import BoundSql.Proofs.Filter.Rejection
import BoundSql.Proofs.Statement.Skipped
import BoundSql.Proofs.Projection.Notation
import BoundSql.Proofs.Filter.LimitText
import BoundSql.Proofs.Sql.References
import BoundSql.Proofs.Filter.References
import BoundSql.Proofs.Join.References
import BoundSql.Proofs.Projection.References
import BoundSql.Proofs.Statement.References
import BoundSql.Proofs.Text.Blanks
import BoundSql.Proofs.Building.Checking
import BoundSql.Proofs.Numeral.Digits
import BoundSql.Proofs.Calendar.Days
import BoundSql.Proofs.Calendar.Numbers
import BoundSql.Proofs.Calendar.Reading
import BoundSql.Proofs.Wire.Integers
import BoundSql.Proofs.Wire.TextTypes
import BoundSql.Proofs.Wire.Moments
import BoundSql.Proofs.Wire.Groups
import BoundSql.Proofs.Wire.Numeric
import BoundSql.Proofs.Wire.Identifiers
import BoundSql.Proofs.Wire.RoundTrip
import BoundSql.Proofs.Numeral.DecimalValue
import BoundSql.Proofs.Numeral.Written
import BoundSql.Proofs.Numeral.Exactness
import BoundSql.Proofs.Wire.Exactness
import BoundSql.Proofs.Filter.Reserved
import BoundSql.Proofs.Row
import BoundSql.Proofs.Connection.Transcript
import BoundSql.Proofs.Engine.Log
import BoundSql.Text.Position
import BoundSql.Sql.Cursor
import BoundSql.Proofs.Text.Position
import BoundSql.Proofs.Sql.Cursor
import BoundSql.Fragment.Cursor
import BoundSql.Proofs.Fragment.Cursor
import BoundSql.Proofs.Sql.Terminated
