import RemoteCall.Config.File
import RemoteCall.Memory.Exchange
import RemoteCall.Session.Run
import RemoteCall.Socket.Address
import RemoteCall.Socket.Stream
import RemoteCall.Proofs.Pending.Calls
import RemoteCall.Proofs.Pending.Ledger
import RemoteCall.Proofs.Connection.Turns
import RemoteCall.Proofs.Connection.Writing
import RemoteCall.Proofs.Connection.Sending
import RemoteCall.Proofs.Connection.Timeline
import RemoteCall.Proofs.Connection.Heartbeats
import RemoteCall.Proofs.Connection.Sweeping
import RemoteCall.Proofs.Connection.Inbound
import RemoteCall.Proofs.Session.Switchboard
import RemoteCall.Proofs.Session.Moves
import RemoteCall.Proofs.Session.Steps
import RemoteCall.Proofs.Session.Agreement
import RemoteCall.Proofs.Session.Stop
import RemoteCall.Proofs.Session.Frames
import RemoteCall.Proofs.Session.Routing
import RemoteCall.Proofs.Text.Utf8
import RemoteCall.Proofs.Wire.Bodies
import RemoteCall.Proofs.Wire.Framing
import RemoteCall.Proofs.Socket.Receiving
import RemoteCall.Proofs.Socket.Truncation
import RemoteCall.Proofs.Session.Probing
import RemoteCall.Proofs.Session.Course
import RemoteCall.Proofs.Session.Chronicle
import RemoteCall.Proofs.Session.Waiting
import RemoteCall.Proofs.Session.Endings
import RemoteCall.Proofs.Session.Requests
import RemoteCall.Proofs.Session.Phases
import RemoteCall.Proofs.Session.Refusals
import RemoteCall.Proofs.Session.Failures
import RemoteCall.Proofs.Session.Timelines
import RemoteCall.Proofs.Service.Caching
import RemoteCall.Proofs.Session.Liveness
import RemoteCall.Proofs.Service.Registry
import RemoteCall.Proofs.Session.Ticks
import RemoteCall.Proofs.Session.Schedule
import RemoteCall.Proofs.Session.Reconnection
import RemoteCall.Proofs.Session.Lively
import RemoteCall.Proofs.Session.Congestion
import RemoteCall.Proofs.Dictionary
import RemoteCall.Proofs.Json.Tokens
import RemoteCall.Proofs.Json.Values
import RemoteCall.Proofs.Json.RoundTrip
import RemoteCall.Proofs.Service.Arguments
import RemoteCall.Proofs.Session.Delivery
import RemoteCall.Proofs.Socket.Accounting
import RemoteCall.Proofs.Connection.Reading
import RemoteCall.Proofs.Socket.Ending
import RemoteCall.Proofs.Session.Data
import RemoteCall.Proofs.Session.Intervals
import RemoteCall.Proofs.Session.Release
import RemoteCall.Proofs.Json.Spelling
import RemoteCall.Proofs.Json.Skipping
import RemoteCall.Proofs.Config.Records
import RemoteCall.Proofs.Config.Files
import RemoteCall.Proofs.Connection.Numbering
import RemoteCall.Proofs.Session.Bystanders
import RemoteCall.Proofs.Session.Numbering
import RemoteCall.Proofs.Session.Wraparound
