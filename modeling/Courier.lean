import Courier.Association
import Courier.Backend
import Courier.Base64
import Courier.Broker.Basic
import Courier.Broker.Poll
import Courier.Broker.Queue
import Courier.Bytes
import Courier.Consumer
import Courier.Decimal.Layout
import Courier.Decimal.Reading
import Courier.Decimal.Shortest
import Courier.Dictionary
import Courier.Envelope
import Courier.Error
import Courier.Handler
import Courier.Header
import Courier.Json.Basic
import Courier.Json.Decoder
import Courier.Json.Fault
import Courier.Json.Lexer
import Courier.Json.Record
import Courier.Lifecycle.Events
import Courier.Lifecycle.Handlers
import Courier.Log
import Courier.Log.Filter
import Courier.Log.Line
import Courier.Main
import Courier.Message.Basic
import Courier.Message.Class
import Courier.Message.QueueName
import Courier.Mint
import Courier.Pipeline.Basic
import Courier.Pipeline.Report
import Courier.Proofs.Pipeline.Tracking
import Courier.Proofs.Pipeline.Transitions
import Courier.Publisher
import Courier.Registry
import Courier.Settings.Address
import Courier.Settings.Basic
import Courier.Settings.Format
import Courier.Settings.Layers
import Courier.Settings.Reading
import Courier.Settings.Sources
import Courier.Settings.Toml.Document
import Courier.Settings.Toml.Value
import Courier.Settings.Tree
import Courier.Settings.Yaml.Atom
import Courier.Settings.Yaml.Cursor
import Courier.Settings.Yaml.Document
import Courier.Settings.Yaml.Scalar
import Courier.Simulation
import Courier.Sqs.Client
import Courier.Sqs.Message
import Courier.Sqs.Reply
import Courier.System
import Courier.Text.Graphic
import Courier.Text.Lossy
import Courier.Text.Quoted
import Courier.Timestamp.Basic
import Courier.Timestamp.Calendar
import Courier.Timestamp.Text
import Courier.Unsettled
import Courier.Worker.CommandLine
import Courier.Worker.Error
import Courier.Worker.Health
import Courier.Worker.Loading
import Courier.Worker.Program
import Courier.Worker.Service
import Courier.Worker.Settings
import Courier.Proofs.Pipeline.Correspondence
import Courier.Proofs.Pipeline.Numbering
import Courier.Proofs.Pipeline.Course
import Courier.Proofs.Pipeline.Conservation
import Courier.Proofs.Pipeline.Acknowledgement
import Courier.Proofs.Broker.Calls
import Courier.Proofs.Broker.Stock
import Courier.Proofs.Mint
import Courier.Proofs.Broker.Ledger
import Courier.Proofs.Broker.Entries
import Courier.Proofs.Broker.Receipts
import Courier.Proofs.Broker.Receiving
import Courier.Proofs.System.Runs
import Courier.Proofs.System.History
import Courier.Proofs.System.Removal
import Courier.Proofs.System.Order
import Courier.Proofs.System.Calls
import Courier.Proofs.Unsettled
import Courier.Proofs.Pipeline.Pending
import Courier.Proofs.Pipeline.Backpressure
import Courier.Proofs.Broker.Deduplication
import Courier.Proofs.Base64
import Courier.Proofs.Json.Strings
import Courier.Proofs.Json.Numbers
import Courier.Proofs.Json.Numerals
import Courier.Proofs.Json.Skipping
import Courier.Proofs.Json.Records
import Courier.Proofs.Timestamp.Calendar
import Courier.Proofs.Timestamp.Text
import Courier.Proofs.Envelope
import Courier.Proofs.Broker.Journal
import Courier.Proofs.Pipeline.Settlement
import Courier.Proofs.System.Leases
import Courier.Proofs.System.Success
import Courier.Proofs.Double.Nearest
import Courier.Proofs.Double.Parts
import Courier.Proofs.Double.Operations
import Courier.Proofs.Double.Interval
import Courier.Proofs.Double.Errors
import Courier.Proofs.Double.Assembly
import Courier.Proofs.Double.Products
import Courier.Proofs.Json.Doubles
import Courier.Proofs.Header
import Courier.Proofs.Header.Doubles
import Courier.Proofs.Publisher
import Courier.Proofs.Broker.Handouts
import Courier.Proofs.Pipeline.Dispatch
import Courier.Proofs.Pipeline.Chronicle
import Courier.Proofs.Pipeline.Replacement
import Courier.Proofs.Pipeline.Containment
import Courier.Proofs.Pipeline.Cancellation
import Courier.Proofs.Broker.Eligible
import Courier.Proofs.System.Conservation
import Courier.Proofs.System.Continuation
import Courier.Proofs.System.Shutdown
import Courier.Proofs.Pipeline.Loop
import Courier.Proofs.Pipeline.Losses
import Courier.Proofs.Pipeline.Sequential
import Courier.Proofs.Broker.Scan
import Courier.Proofs.Sqs
import Courier.Proofs.Lifecycle.Handlers
import Courier.Proofs.Lifecycle.Completion
import Courier.Proofs.Broker.Replies
import Courier.Proofs.Broker.Failures
import Courier.Proofs.Broker.Waiting
import Courier.Proofs.Pipeline.Overlap
import Courier.Proofs.QueueName
import Courier.Proofs.Broker.Isolation
import Courier.Proofs.Envelope.Conformity
import Courier.Proofs.Registry
import Courier.Proofs.Sqs.Batch
import Courier.Proofs.Backend
import Courier.Proofs.Broker.Windows
import Courier.Proofs.Publisher.Calls
import Courier.Proofs.Worker.Startup
import Courier.Proofs.Simulation
import Courier.Proofs.Worker.Life
