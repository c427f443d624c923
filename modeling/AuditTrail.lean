import AuditTrail.CommandLine.Grammar
import AuditTrail.CommandLine.Invocation
import AuditTrail.CommandLine.Process
import AuditTrail.CommandLine.Run
import AuditTrail.Config.ConnectionString
import AuditTrail.Config.Embedded
import AuditTrail.Config.Environment
import AuditTrail.Config.Server
import AuditTrail.Config.Store
import AuditTrail.Contract
import AuditTrail.Document
import AuditTrail.Embedded.Archive
import AuditTrail.Embedded.Cell
import AuditTrail.Embedded.Database
import AuditTrail.Embedded.Depth
import AuditTrail.Embedded.Fault
import AuditTrail.Embedded.Open
import AuditTrail.Embedded.Row
import AuditTrail.Embedded.Schema
import AuditTrail.Embedded.Session
import AuditTrail.Embedded.Store
import AuditTrail.Error
import AuditTrail.Flag
import AuditTrail.Id
import AuditTrail.Id.Codec
import AuditTrail.Id.Spelling
import AuditTrail.Json.Binary64
import AuditTrail.Json.Codec
import AuditTrail.Json.Source
import AuditTrail.Json.TextMap
import AuditTrail.Json.TextMapFault
import AuditTrail.Json.Value
import AuditTrail.Limits
import AuditTrail.Limits.Check
import AuditTrail.Limits.Document
import AuditTrail.Main
import AuditTrail.Page
import AuditTrail.Project
import AuditTrail.Proofs.CommandLine.Commands
import AuditTrail.Proofs.CommandLine.Runs
import AuditTrail.Proofs.Config.ConnectionParts
import AuditTrail.Proofs.Config.ConnectionString
import AuditTrail.Proofs.Config.Document
import AuditTrail.Proofs.Embedded.Atomicity
import AuditTrail.Proofs.Embedded.Batch
import AuditTrail.Proofs.Embedded.Conditions
import AuditTrail.Proofs.Embedded.Content
import AuditTrail.Proofs.Embedded.Depth
import AuditTrail.Proofs.Embedded.Fidelity
import AuditTrail.Proofs.Embedded.Frame
import AuditTrail.Proofs.Embedded.Immutability
import AuditTrail.Proofs.Embedded.Interference
import AuditTrail.Proofs.Embedded.Isolation
import AuditTrail.Proofs.Embedded.Kept
import AuditTrail.Proofs.Embedded.Keys
import AuditTrail.Proofs.Embedded.Listing
import AuditTrail.Proofs.Embedded.Opening
import AuditTrail.Proofs.Embedded.Order
import AuditTrail.Proofs.Embedded.Pool
import AuditTrail.Proofs.Embedded.ProjectListing
import AuditTrail.Proofs.Embedded.ProjectWalk
import AuditTrail.Proofs.Embedded.Reachable
import AuditTrail.Proofs.Embedded.Reading
import AuditTrail.Proofs.Embedded.RecordWalk
import AuditTrail.Proofs.Embedded.Refinement
import AuditTrail.Proofs.Embedded.Refusals
import AuditTrail.Proofs.Embedded.Representation
import AuditTrail.Proofs.Embedded.Row
import AuditTrail.Proofs.Embedded.Shape
import AuditTrail.Proofs.Embedded.Share
import AuditTrail.Proofs.Embedded.SortKeys
import AuditTrail.Proofs.Embedded.Soundness
import AuditTrail.Proofs.Embedded.Statements
import AuditTrail.Proofs.Embedded.Step
import AuditTrail.Proofs.Embedded.Stored
import AuditTrail.Proofs.Embedded.TimeRange
import AuditTrail.Proofs.Embedded.Update
import AuditTrail.Proofs.Embedded.Values
import AuditTrail.Proofs.Embedded.Walk
import AuditTrail.Proofs.Embedded.Work
import AuditTrail.Proofs.Equivalence
import AuditTrail.Proofs.Id.Codec
import AuditTrail.Proofs.Id.Grammar
import AuditTrail.Proofs.Id.Spelling
import AuditTrail.Proofs.Id.Text
import AuditTrail.Proofs.Json.Layout
import AuditTrail.Proofs.Json.Source
import AuditTrail.Proofs.Json.TextMap
import AuditTrail.Proofs.Keyset
import AuditTrail.Proofs.Ledger.Same
import AuditTrail.Proofs.Ledger.Step
import AuditTrail.Proofs.Limits.Document
import AuditTrail.Proofs.Limits.Record
import AuditTrail.Proofs.Page
import AuditTrail.Proofs.Query
import AuditTrail.Proofs.Result
import AuditTrail.Proofs.Sequence
import AuditTrail.Proofs.Server.Confinement
import AuditTrail.Proofs.Server.Conversation
import AuditTrail.Proofs.Server.Course
import AuditTrail.Proofs.Server.Discipline
import AuditTrail.Proofs.Server.Effects
import AuditTrail.Proofs.Server.Grouping
import AuditTrail.Proofs.Server.Holding
import AuditTrail.Proofs.Server.Lasting
import AuditTrail.Proofs.Server.Learning
import AuditTrail.Proofs.Server.Lifecycle
import AuditTrail.Proofs.Server.Partition
import AuditTrail.Proofs.Server.Partitioning
import AuditTrail.Proofs.Server.Representation
import AuditTrail.Proofs.Server.Tables
import AuditTrail.Proofs.Statement.Assembled
import AuditTrail.Proofs.Text.Base64
import AuditTrail.Proofs.Text.Positional
import AuditTrail.Proofs.Text.Split
import AuditTrail.Proofs.Text.Utf8
import AuditTrail.Proofs.Time.Bounds
import AuditTrail.Proofs.Time.Calendar
import AuditTrail.Proofs.Time.Canonical
import AuditTrail.Proofs.Time.Fields
import AuditTrail.Proofs.Time.Relaxed
import AuditTrail.Proofs.Time.Sortable
import AuditTrail.Proofs.Time.Written
import AuditTrail.Proofs.Token
import AuditTrail.Proofs.Trace.Padding
import AuditTrail.Proofs.Trace.Parent
import AuditTrail.Proofs.Trace.State
import AuditTrail.Record
import AuditTrail.Server.Datum
import AuditTrail.Server.Dialogue
import AuditTrail.Server.Line
import AuditTrail.Server.Open
import AuditTrail.Server.Partition
import AuditTrail.Server.Row
import AuditTrail.Server.Schema
import AuditTrail.Server.Script
import AuditTrail.Server.Store
import AuditTrail.Statement.Column
import AuditTrail.Statement.Store
import AuditTrail.Statement.Syntax
import AuditTrail.Statement.Text
import AuditTrail.Text.Base64
import AuditTrail.Text.Blank
import AuditTrail.Text.Hexadecimal
import AuditTrail.Text.Positional
import AuditTrail.Text.Printable
import AuditTrail.Text.Quoted
import AuditTrail.Text.Split
import AuditTrail.Text.TextMap
import AuditTrail.Text.Utf8
import AuditTrail.Time.Calendar
import AuditTrail.Time.Instant
import AuditTrail.Time.Relaxed
import AuditTrail.Time.Written
import AuditTrail.Trace.Parent
import AuditTrail.Trace.State
