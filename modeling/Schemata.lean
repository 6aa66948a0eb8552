import Schemata.CommandLine.Arguments
import Schemata.CommandLine.Command
import Schemata.Ddl.Alteration
import Schemata.Ddl.Compilation
import Schemata.Ddl.Statement
import Schemata.Ddl.Table
import Schemata.Decimal.Binary64
import Schemata.Decimal.Layout
import Schemata.Decimal.Numeral
import Schemata.Decimal.Shortest
import Schemata.Digest.Sha256
import Schemata.Graph.Basic
import Schemata.Graph.Chains
import Schemata.Graph.Cycles
import Schemata.Graph.Order
import Schemata.History.Trace
import Schemata.History.Version
import Schemata.Json.Basic
import Schemata.Json.Display
import Schemata.Json.Equality
import Schemata.Json.Height
import Schemata.Json.Printer
import Schemata.Json.Reader
import Schemata.Keyed
import Schemata.Lock.Table
import Schemata.Logging.Options
import Schemata.Logging.Redaction
import Schemata.Main
import Schemata.Pipeline.Run
import Schemata.Problem
import Schemata.Provisioning.Engine
import Schemata.Provisioning.Execution
import Schemata.Provisioning.Provision
import Schemata.Refinement.Change
import Schemata.Refinement.Dialogue
import Schemata.Refinement.Edit
import Schemata.Refinement.Reply
import Schemata.Refinement.Session
import Schemata.Refinement.Timeline
import Schemata.Resource.Basic
import Schemata.Resource.Conversion
import Schemata.Resource.Publication
import Schemata.Resource.Registry
import Schemata.Rules.Audit
import Schemata.Rules.Basic
import Schemata.Rules.Defaults
import Schemata.Rules.Integrity
import Schemata.Rules.Naming
import Schemata.Rules.Structure
import Schemata.Rules.Validation
import Schemata.Schema.Basic
import Schemata.Schema.Decode
import Schemata.Schema.Diff
import Schemata.Schema.Payload
import Schemata.Settings.Basic
import Schemata.Settings.Environment
import Schemata.Settings.Numeral
import Schemata.Shape.Checked
import Schemata.Shape.Decode
import Schemata.Sql.DefaultValue
import Schemata.Sql.Naming
import Schemata.Sql.Quoting
import Schemata.Text.Blank
import Schemata.Text.CaseContext
import Schemata.Text.CaseTable
import Schemata.Text.CodeSet
import Schemata.Text.DecimalDigit
import Schemata.Text.LetterCase
import Schemata.Text.Path
import Schemata.Text.Printable
import Schemata.Text.Search
import Schemata.Time.Calendar
import Schemata.Time.Instant
import Schemata.Time.Iso
import Schemata.Time.Span
import Schemata.Time.Stamp
import Schemata.Yaml.Document
import Schemata.Yaml.Label
import Schemata.Yaml.Literal
import Schemata.Yaml.Node
import Schemata.Yaml.Place
import Schemata.Yaml.Plain
import Schemata.Yaml.Quoted
import Schemata.Yaml.Reader
import Schemata.Yaml.Scalar
import Schemata.Yaml.Token
import Schemata.Yaml.Tokens
import Schemata.Proofs.Ddl.Canonical
import Schemata.Proofs.Ddl.Containment
import Schemata.Proofs.Ddl.Orders
import Schemata.Proofs.Ddl.Script
import Schemata.Proofs.Graph.Chains
import Schemata.Proofs.Graph.Cycles
import Schemata.Proofs.Graph.Order
import Schemata.Proofs.Graph.Search
import Schemata.Proofs.Graph.Walk
import Schemata.Proofs.History.Archive
import Schemata.Proofs.History.Store
import Schemata.Proofs.History.Written
import Schemata.Proofs.Keyed
import Schemata.Proofs.Lock.Acquisition
import Schemata.Proofs.Lock.Blocks
import Schemata.Proofs.Pipeline.Gates
import Schemata.Proofs.Provisioning.Effects
import Schemata.Proofs.Provisioning.Isolation
import Schemata.Proofs.Refinement.Answers
import Schemata.Proofs.Refinement.Calls
import Schemata.Proofs.Refinement.Zipper
import Schemata.Proofs.Resource.Publication
import Schemata.Proofs.Rules.Hints
import Schemata.Proofs.Rules.Names
import Schemata.Proofs.Rules.Parts
import Schemata.Proofs.Rules.References
import Schemata.Proofs.Rules.Reports
import Schemata.Proofs.Rules.Sound
import Schemata.Proofs.Schema.Depth
import Schemata.Proofs.Schema.Exchange
import Schemata.Proofs.Shape.Explained
import Schemata.Proofs.Sql.Contained
import Schemata.Proofs.Sql.Lexing
import Schemata.Proofs.Sql.Quoting
import Schemata.Proofs.Sql.Naming
import Schemata.Proofs.Sql.Separation
import Schemata.Proofs.Lock.Calls
import Schemata.Proofs.Lock.Safety
import Schemata.Proofs.Lock.Lease
import Schemata.Proofs.Schema.RoundTrip
import Schemata.Proofs.History.Lasting
import Schemata.Proofs.Pipeline.Restoration
import Schemata.Proofs.Pipeline.Sharing
import Schemata.Proofs.History.Scopes
import Schemata.Proofs.Pipeline.Following
import Schemata.Proofs.Pipeline.AuditTrail
import Schemata.Proofs.Provisioning.Accounting
import Schemata.Proofs.Provisioning.Transactions
import Schemata.Proofs.Refinement.LateReplies
import Schemata.Proofs.Rules.Rounds
import Schemata.Proofs.Ddl.Catalog
import Schemata.Proofs.Ddl.Constraints
import Schemata.Proofs.Ddl.Indexes
import Schemata.Proofs.Ddl.Layout
import Schemata.Proofs.Ddl.Identity
import Schemata.Proofs.Ddl.Database
import Schemata.Proofs.Ddl.Repetition
import Schemata.Proofs.Ddl.Header
import Schemata.Proofs.Sql.Rendering
import Schemata.Proofs.Ddl.Defaults
import Schemata.Proofs.Sql.Stability
import Schemata.Proofs.Ddl.Required
import Schemata.Proofs.Shape.Reading
import Schemata.Proofs.Refinement.Batches
import Schemata.Proofs.Refinement.ColumnChanges
import Schemata.Proofs.Refinement.ColumnRemoval
import Schemata.Proofs.Refinement.Completion
import Schemata.Proofs.Refinement.Forms
import Schemata.Proofs.Refinement.Frame
import Schemata.Proofs.Refinement.Objects
import Schemata.Proofs.Refinement.Steps
import Schemata.Proofs.Refinement.TableRemoval
import Schemata.Proofs.Schema.Reading
import Schemata.Proofs.Resource.Records
import Schemata.Proofs.Resource.Plurals
import Schemata.Proofs.Resource.Export
import Schemata.Proofs.Schema.Differences
import Schemata.Proofs.Json.Parts
import Schemata.Proofs.Lock.Sweeping
import Schemata.Proofs.Logging.Secrets
