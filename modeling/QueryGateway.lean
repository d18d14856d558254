import QueryGateway.Batch
import QueryGateway.Calendar
import QueryGateway.Comparison
import QueryGateway.Decimal.Binary
import QueryGateway.Decimal.Layout
import QueryGateway.Decimal.Numeral
import QueryGateway.Decimal.Shortest
import QueryGateway.Digest
import QueryGateway.Execution
import QueryGateway.Vector
import QueryGateway.Gateway
import QueryGateway.Http
import QueryGateway.Json.Basic
import QueryGateway.Json.Number
import QueryGateway.Json.Printer
import QueryGateway.Json.Reader
import QueryGateway.Metrics
import QueryGateway.Proofs.Gateway.Traffic
import QueryGateway.Proofs.Sql.Verdicts
import QueryGateway.Proofs.Store.Connections
import QueryGateway.Proofs.Store.Units
import QueryGateway.Request.Basic
import QueryGateway.Request.OfQuery
import QueryGateway.Request.Reader
import QueryGateway.Rpc.Call
import QueryGateway.Rpc.Envelope
import QueryGateway.Rpc.Failure
import QueryGateway.Rpc.Shape
import QueryGateway.Settings.Basic
import QueryGateway.Settings.Load
import QueryGateway.Settings.LogFilter
import QueryGateway.Sql.Builder
import QueryGateway.Sql.Diagnosis
import QueryGateway.Sql.Grammar
import QueryGateway.Sql.Lexeme
import QueryGateway.Sql.Parse
import QueryGateway.Sql.Query
import QueryGateway.Sql.Tree
import QueryGateway.Store.Cast
import QueryGateway.Store.Cast.Integer
import QueryGateway.Store.Cast.Moment
import QueryGateway.Store.Cast.Number
import QueryGateway.Store.Cast.Real
import QueryGateway.Store.Column
import QueryGateway.Store.Database
import QueryGateway.Store.Engine
import QueryGateway.Store.Fault
import QueryGateway.Store.Order
import QueryGateway.Store.Select
import QueryGateway.Store.Statement
import QueryGateway.Store.Table
import QueryGateway.Store.Value
import QueryGateway.Store.ValueText
import QueryGateway.Store.Work
import QueryGateway.Text.Blank
import QueryGateway.Text.Hidden
import QueryGateway.Text.LowerCase
import QueryGateway.Transactions.Registry
import QueryGateway.Writes
import QueryGateway.Yaml.Lines
import QueryGateway.Yaml.Reader
import QueryGateway.Yaml.Scalar
import QueryGateway.Proofs.Traversal
import QueryGateway.Proofs.Gateway.Effects
import QueryGateway.Proofs.Gateway.Soundness
import QueryGateway.Proofs.Gateway.Steps
import QueryGateway.Proofs.Gateway.Ends
import QueryGateway.Proofs.Gateway.Handles
import QueryGateway.Proofs.Gateway.Visibility
import QueryGateway.Proofs.Gateway.Alone
import QueryGateway.Proofs.Json.Finite
import QueryGateway.Proofs.Json.Numbers
import QueryGateway.Proofs.Json.Text
import QueryGateway.Proofs.Request.Canonical
import QueryGateway.Proofs.Request.Identity
import QueryGateway.Proofs.Request.Translation
import QueryGateway.Proofs.Request.Substitution
import QueryGateway.Proofs.Execution.Matching
import QueryGateway.Proofs.Execution.Columns
import QueryGateway.Proofs.Execution.Order
import QueryGateway.Proofs.Execution.Answers
import QueryGateway.Proofs.Execution.Meaning
import QueryGateway.Proofs.Execution.Distances
import QueryGateway.Proofs.Execution.Outcomes
import QueryGateway.Proofs.Execution.Agreement
import QueryGateway.Proofs.Sql.Words
import QueryGateway.Proofs.Sql.Layout
import QueryGateway.Proofs.Sql.Reading
import QueryGateway.Proofs.Sql.Accepting
import QueryGateway.Proofs.Sql.Proper
import QueryGateway.Proofs.Sql.Rendering
import QueryGateway.Proofs.Sql.Language
import QueryGateway.Proofs.Sql.Clauses
import QueryGateway.Proofs.Sql.Reserved
import QueryGateway.Proofs.Transactions.Callers
import QueryGateway.Proofs.Transactions.Custody
import QueryGateway.Proofs.Transactions.Ownership
import QueryGateway.Proofs.Json.Repeated
import QueryGateway.Proofs.Rpc.Bodies
import QueryGateway.Proofs.Gateway.Envelopes
import QueryGateway.Proofs.Store.Keys
import QueryGateway.Proofs.Store.Guards
import QueryGateway.Proofs.Gateway.Upserts
import QueryGateway.Proofs.Store.Uses
import QueryGateway.Proofs.Store.Breakdowns
import QueryGateway.Proofs.Store.Views
import QueryGateway.Proofs.Store.Rows
import QueryGateway.Proofs.Writes.Upsert
import QueryGateway.Proofs.Store.Integrity
import QueryGateway.Proofs.Store.Admission
import QueryGateway.Proofs.Writes.Update
import QueryGateway.Proofs.Execution.Stability
import QueryGateway.Proofs.Store.Classes
import QueryGateway.Proofs.Store.Lexing
import QueryGateway.Proofs.Store.Slots
import QueryGateway.Proofs.Store.Demands
import QueryGateway.Proofs.Store.Builders
import QueryGateway.Proofs.Gateway.Backends
import QueryGateway.Proofs.Gateway.Causes
import QueryGateway.Proofs.Gateway.Alike
import QueryGateway.Proofs.Gateway.Notes
import QueryGateway.Proofs.Gateway.Opacity
import QueryGateway.Proofs.Transactions.Sweeps
import QueryGateway.Proofs.Gateway.Idle
import QueryGateway.Proofs.Rpc.Parameters
import QueryGateway.Proofs.Gateway.Order
import QueryGateway.Proofs.Gateway.Refusals
import QueryGateway.Proofs.Execution.LetterCase
import QueryGateway.Proofs.Writes.Batches
import QueryGateway.Proofs.Writes.Courses
import QueryGateway.Proofs.Gateway.Counters
import QueryGateway.Proofs.Gateway.Gauge
import QueryGateway.Proofs.Calendar
import QueryGateway.Proofs.Store.Temporal
import QueryGateway.Proofs.Execution.Limits
import QueryGateway.Proofs.Settings.LogFilters
