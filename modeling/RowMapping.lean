import RowMapping.Calendar.Basic
import RowMapping.Calendar.Parser
import RowMapping.Calendar.Text
import RowMapping.Connection.Manager
import RowMapping.Connection.Settings
import RowMapping.Conversion.Basic
import RowMapping.Conversion.Defaults
import RowMapping.Conversion.Find
import RowMapping.Conversion.Registry
import RowMapping.Database.Basic
import RowMapping.Database.Script
import RowMapping.Database.Settings
import RowMapping.Dialect.Basic
import RowMapping.Dialect.Statement
import RowMapping.Error.Basic
import RowMapping.Error.Cause
import RowMapping.Error.Driver
import RowMapping.Example.Conversions
import RowMapping.Example.Data
import RowMapping.Example.Names
import RowMapping.Example.Record
import RowMapping.Instantiation.Description
import RowMapping.Instantiation.Name
import RowMapping.Instantiation.Plan
import RowMapping.Json.Basic
import RowMapping.Json.Parser
import RowMapping.Json.Printer
import RowMapping.Json.Record
import RowMapping.Number.Floating
import RowMapping.Number.Shortest
import RowMapping.Number.Text
import RowMapping.Proofs.Storage.Connections
import RowMapping.Proofs.Transaction.Action
import RowMapping.Proofs.Transaction.Meaning
import RowMapping.Query.Argument
import RowMapping.Query.Basic
import RowMapping.Query.Builder
import RowMapping.Query.Named
import RowMapping.Storage.Affinity
import RowMapping.Storage.Cell
import RowMapping.Storage.Decode
import RowMapping.Storage.Engine
import RowMapping.Storage.Items
import RowMapping.Storage.Records
import RowMapping.Storage.Snapshot
import RowMapping.Storage.UpdateResult
import RowMapping.Table.Basic
import RowMapping.Table.Column
import RowMapping.Table.Instances
import RowMapping.Table.Layout
import RowMapping.Target.Object
import RowMapping.Target.Type
import RowMapping.Text.Base64
import RowMapping.Text.Blank
import RowMapping.Text.Hex
import RowMapping.Text.Lowercase
import RowMapping.Text.Split
import RowMapping.Text.Utf8
import RowMapping.Transaction.Manager
import RowMapping.Transaction.Settings
import RowMapping.Transaction.World
import RowMapping.Url.Basic
import RowMapping.Url.Host
import RowMapping.Url.Parser
import RowMapping.Url.Percent
import RowMapping.Url.Punycode
import RowMapping.Uuid
import RowMapping.Value.Basic
import RowMapping.Value.Kind
import RowMapping.Proofs.Storage.Statements
import RowMapping.Proofs.Storage.Sessions
import RowMapping.Proofs.Transaction.Lifetime
import RowMapping.Proofs.Transaction.Statements
import RowMapping.Proofs.Transaction.Agreement
import RowMapping.Proofs.Transaction.ScopeWrites
import RowMapping.Proofs.Transaction.ScopeRefinement
import RowMapping.Proofs.Transaction.Attempts
import RowMapping.Proofs.Transaction.Machine
import RowMapping.Proofs.Storage.EngineLaws
import RowMapping.Proofs.Transaction.Effects
import RowMapping.Proofs.Transaction.Operations
import RowMapping.Proofs.Transaction.Stack
import RowMapping.Proofs.Transaction.WriterBooks
import RowMapping.Proofs.Transaction.SuspendedWriters
import RowMapping.Proofs.Transaction.StatementBlocks
import RowMapping.Proofs.Transaction.StatementRuns
import RowMapping.Proofs.Transaction.ScopeStatements
import RowMapping.Proofs.Transaction.ScriptStatements
import RowMapping.Proofs.Transaction.EndedOnce
import RowMapping.Proofs.Storage.Rest
import RowMapping.Proofs.Storage.Failures
import RowMapping.Proofs.Transaction.Cleaning
import RowMapping.Proofs.Transaction.Tending
import RowMapping.Proofs.Transaction.ConnectionsAtRest
import RowMapping.Proofs.Transaction.TendedFrames
import RowMapping.Proofs.Transaction.FailedWork
import RowMapping.Proofs.Transaction.Composition
import RowMapping.Proofs.Connection.Cache
import RowMapping.Proofs.Number.Digits
import RowMapping.Proofs.Calendar.ReadBack
import RowMapping.Proofs.Storage.TypedColumns
import RowMapping.Proofs.Conversion.Outcomes
import RowMapping.Proofs.Conversion.Calls
import RowMapping.Proofs.Instantiation.Choice
import RowMapping.Proofs.Instantiation.ColumnsOnce
import RowMapping.Proofs.Instantiation.Places
import RowMapping.Proofs.Instantiation.Rows
import RowMapping.Proofs.Json.ReadBack
import RowMapping.Proofs.Uuid
import RowMapping.Proofs.Url.Edges
import RowMapping.Proofs.Conversion.StoredLists
import RowMapping.Proofs.Query.NamedLexer
import RowMapping.Proofs.Query.NamedPlaceholders
import RowMapping.Proofs.Storage.Journal
import RowMapping.Proofs.Storage.Savepoints
import RowMapping.Proofs.Transaction.AttemptSequence
import RowMapping.Proofs.Transaction.Watching
import RowMapping.Proofs.Transaction.WatchedAttempts
import RowMapping.Proofs.Transaction.WatchedScripts
import RowMapping.Proofs.Transaction.Points
import RowMapping.Proofs.Transaction.Publishing
import RowMapping.Proofs.Transaction.LeftBehind
import RowMapping.Proofs.Transaction.Retries
import RowMapping.Proofs.Transaction.Journaling
import RowMapping.Proofs.Connection.OpenUntilClosed
import RowMapping.Proofs.Instantiation.MissingCells
import RowMapping.Proofs.Query.Confidential
import RowMapping.Proofs.Transaction.Batches
import RowMapping.Proofs.Storage.Bindings
import RowMapping.Proofs.Query.Refusals
import RowMapping.Proofs.Json.Numbers
import RowMapping.Proofs.Instantiation.DirectColumns
import RowMapping.Proofs.Conversion.JsonItems
import RowMapping.Proofs.Conversion.StoredVariants
import RowMapping.Proofs.Storage.Requests
import RowMapping.Proofs.Transaction.ImplicitWrites
import RowMapping.Proofs.Instantiation.Moved
import RowMapping.Proofs.Instantiation.ColumnOrder
import RowMapping.Proofs.Instantiation.StoredColumns
import RowMapping.Proofs.Instantiation.UndeclaredColumns
import RowMapping.Proofs.Calendar.Disjoint
import RowMapping.Proofs.Instantiation.TemporalColumns
import RowMapping.Proofs.Conversion.Registrations
import RowMapping.Proofs.Json.Values
import RowMapping.Proofs.Instantiation.PropertyPaths
import RowMapping.Proofs.Number.Rounding
import RowMapping.Proofs.Number.ShortestDigits
import RowMapping.Proofs.Json.WideNumbers
import RowMapping.Proofs.Conversion.StoredIntegers
import RowMapping.Proofs.Instantiation.NamedBinding
import RowMapping.Proofs.Instantiation.Renumbered
import RowMapping.Proofs.Query.VerbatimText
import RowMapping.Proofs.Table.Lines
import RowMapping.Proofs.Table.Maps
import RowMapping.Proofs.Query.BuiltPlaceholders
