import Courier.Alarm.Basic
import Courier.Alarm.Session
import Courier.Backlog
import Courier.Broker.Basic
import Courier.Broker.Rounds
import Courier.Broker.Subscriptions
import Courier.Collector.Basic
import Courier.Collector.Cycle
import Courier.Collector.Script
import Courier.Collector.Session
import Courier.Collector.Sink
import Courier.Decimal.Double
import Courier.Decimal.Shortest
import Courier.Event.Basic
import Courier.Event.Describe
import Courier.Event.Id
import Courier.Event.Properties
import Courier.Failure
import Courier.Json.Decode
import Courier.Json.Document
import Courier.Json.Value
import Courier.Mailbox.Basic
import Courier.Mailbox.Session
import Courier.Mailbox.Stream
import Courier.Misuse
import Courier.Offload
import Courier.Pacing
import Courier.Proofs.Alarm.Disposal
import Courier.Proofs.Alarm.Firings
import Courier.Proofs.Alarm.Moments
import Courier.Proofs.Alarm.Panics
import Courier.Proofs.Alarm.Phases
import Courier.Proofs.Alarm.Range
import Courier.Proofs.Alarm.Reference
import Courier.Proofs.Backlog
import Courier.Proofs.Broker.Dispatch
import Courier.Proofs.Broker.Rounds
import Courier.Proofs.Broker.TwoWays
import Courier.Proofs.Clock
import Courier.Proofs.Collector.Accounts
import Courier.Proofs.Collector.Batches
import Courier.Proofs.Collector.Bounds
import Courier.Proofs.Collector.Calls
import Courier.Proofs.Collector.Chunks
import Courier.Proofs.Collector.Commands
import Courier.Proofs.Collector.Counters
import Courier.Proofs.Collector.Delivery
import Courier.Proofs.Collector.Disposal
import Courier.Proofs.Collector.Grammar
import Courier.Proofs.Collector.Handovers
import Courier.Proofs.Collector.History
import Courier.Proofs.Collector.Journal
import Courier.Proofs.Collector.Ledger
import Courier.Proofs.Collector.Moves
import Courier.Proofs.Collector.Retries
import Courier.Proofs.Collector.Runs
import Courier.Proofs.Collector.Schedule
import Courier.Proofs.Collector.Stage
import Courier.Proofs.Collector.Thresholds
import Courier.Proofs.Collector.Transcript
import Courier.Proofs.Event.Identifiers
import Courier.Proofs.Event.Survival
import Courier.Proofs.Hex
import Courier.Proofs.Json.Reading
import Courier.Proofs.Json.Records
import Courier.Proofs.Mailbox.Conservation
import Courier.Proofs.Mailbox.Disposal
import Courier.Proofs.Mailbox.History
import Courier.Proofs.Mailbox.Holdings
import Courier.Proofs.Mailbox.Kinds
import Courier.Proofs.Mailbox.Limit
import Courier.Proofs.Mailbox.Passes
import Courier.Proofs.Mailbox.Posting
import Courier.Proofs.Mailbox.Records
import Courier.Proofs.Mailbox.Redelivery
import Courier.Proofs.Mailbox.Reorderings
import Courier.Proofs.Mailbox.Returns
import Courier.Proofs.Mailbox.Streaming
import Courier.Proofs.Mailbox.Sweeps
import Courier.Proofs.Mailbox.Turns
import Courier.Proofs.Pacing
import Courier.Proofs.Runs
import Courier.Proofs.Settings.Agreement
import Courier.Proofs.Settings.Literals
import Courier.Proofs.Settings.Resetting
import Courier.Proofs.Sums
import Courier.Proofs.Tables
import Courier.Settings.Basic
import Courier.Settings.EnvFile
import Courier.Settings.Environment
import Courier.Settings.Json
import Courier.Text.Alphanumeric
import Courier.Text.Blank
import Courier.Text.Concealed
import Courier.Text.Hex
import Courier.Text.Quoted
import Courier.Text.Runs
import Courier.Time.Instant
import Courier.Time.Recurring
import Courier.Time.Span
