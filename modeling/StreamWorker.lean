import StreamWorker.Breakdown
import StreamWorker.CommandLine.Arguments
import StreamWorker.CommandLine.Program
import StreamWorker.CommandLine.Run
import StreamWorker.Decimal.Binary64
import StreamWorker.Decimal.Shortest
import StreamWorker.Failure
import StreamWorker.Json.Fault
import StreamWorker.Json.Figure
import StreamWorker.Json.Reader
import StreamWorker.Json.Shape
import StreamWorker.Json.Skip
import StreamWorker.Json.Token
import StreamWorker.Json.Value
import StreamWorker.Json.Writer
import StreamWorker.Main
import StreamWorker.Payload
import StreamWorker.Proofs.CommandLine.Echo
import StreamWorker.Proofs.CommandLine.Produce
import StreamWorker.Proofs.CommandLine.Serve
import StreamWorker.Proofs.Failure
import StreamWorker.Proofs.History.Acknowledgment
import StreamWorker.Proofs.History.Basic
import StreamWorker.Proofs.History.Calls
import StreamWorker.Proofs.History.Chronicle
import StreamWorker.Proofs.History.Claims
import StreamWorker.Proofs.History.Completion
import StreamWorker.Proofs.History.Delivery
import StreamWorker.Proofs.History.Heartbeat
import StreamWorker.Proofs.History.Ids
import StreamWorker.Proofs.History.Limits
import StreamWorker.Proofs.History.LoopEvents
import StreamWorker.Proofs.History.LoopsLetGo
import StreamWorker.Proofs.History.MemberLoops
import StreamWorker.Proofs.History.PayloadDelivery
import StreamWorker.Proofs.History.Produced
import StreamWorker.Proofs.History.Race
import StreamWorker.Proofs.History.Reconciliation
import StreamWorker.Proofs.History.Results
import StreamWorker.Proofs.History.ScriptedReads
import StreamWorker.Proofs.History.Settle
import StreamWorker.Proofs.History.Spans
import StreamWorker.Proofs.History.Standstill
import StreamWorker.Proofs.History.SteadyRuns
import StreamWorker.Proofs.History.Stranded
import StreamWorker.Proofs.History.Ticks
import StreamWorker.Proofs.History.Trace
import StreamWorker.Proofs.History.Writes
import StreamWorker.Proofs.Json.Integral
import StreamWorker.Proofs.Json.Reader
import StreamWorker.Proofs.Json.RoundTrip
import StreamWorker.Proofs.Json.Shape
import StreamWorker.Proofs.Json.Token
import StreamWorker.Proofs.Payload
import StreamWorker.Proofs.Server.Batches
import StreamWorker.Proofs.Server.Exchange
import StreamWorker.Proofs.Server.Publication
import StreamWorker.Proofs.Server.Read
import StreamWorker.Proofs.Server.Spans
import StreamWorker.Proofs.Server.Wire
import StreamWorker.Proofs.Session.Address
import StreamWorker.Proofs.Session.Cancellation
import StreamWorker.Proofs.Session.Consumption
import StreamWorker.Proofs.Session.Drain
import StreamWorker.Proofs.Session.Flight
import StreamWorker.Proofs.Session.HeartbeatLoops
import StreamWorker.Proofs.Session.LoopEnds
import StreamWorker.Proofs.Session.Order
import StreamWorker.Proofs.Session.Outcome
import StreamWorker.Proofs.Session.Publication
import StreamWorker.Proofs.Session.Reports
import StreamWorker.Proofs.Session.Tallies
import StreamWorker.Proofs.Session.World
import StreamWorker.Proofs.Settings.Basic
import StreamWorker.Proofs.Settings.Environment
import StreamWorker.Proofs.Settings.Garbled
import StreamWorker.Proofs.Store.Expiry
import StreamWorker.Proofs.Store.Keyspace
import StreamWorker.Proofs.Store.Memory
import StreamWorker.Proofs.Store.Portions
import StreamWorker.Proofs.Store.Stream
import StreamWorker.Proofs.Store.Unanswered
import StreamWorker.Proofs.Text.Digits
import StreamWorker.Proofs.Text.Numeral
import StreamWorker.Proofs.Text.Quoted
import StreamWorker.Proofs.Text.Utf8
import StreamWorker.Server.Address
import StreamWorker.Server.Command
import StreamWorker.Server.Connection
import StreamWorker.Server.Exchange
import StreamWorker.Server.Refusal
import StreamWorker.Server.Reply
import StreamWorker.Server.Url
import StreamWorker.Server.Wire
import StreamWorker.Session.Flight
import StreamWorker.Session.Script
import StreamWorker.Session.World
import StreamWorker.Settings.Basic
import StreamWorker.Settings.EnvFile
import StreamWorker.Settings.Environment
import StreamWorker.Store.Keyspace
import StreamWorker.Store.Memory
import StreamWorker.Store.Operation
import StreamWorker.Store.Stream
import StreamWorker.Table
import StreamWorker.Telemetry.Directive
import StreamWorker.Telemetry.Endpoint
import StreamWorker.Telemetry.Filter
import StreamWorker.Telemetry.Setup
import StreamWorker.Text.Alphanumeric
import StreamWorker.Text.Blank
import StreamWorker.Text.Numeral
import StreamWorker.Text.Percent
import StreamWorker.Text.Quoted
import StreamWorker.Text.Unshown
import StreamWorker.Text.Utf8
import StreamWorker.Time.Duration
import StreamWorker.Time.Instant
import StreamWorker.Worker.Basic
import StreamWorker.Worker.Call
import StreamWorker.Worker.Identity
import StreamWorker.Worker.Note
