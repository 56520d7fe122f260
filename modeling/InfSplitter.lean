import InfSplitter.Lib.Text
import InfSplitter.Lib.MultiMap
import InfSplitter.Lib.Chase
import InfSplitter.Lib.Links
import InfSplitter.Lib.Reading
import InfSplitter.Lib.Run
import InfSplitter.Lib.Toml
import InfSplitter.Lib.Frames
import InfSplitter.Lib.Replace
import InfSplitter.Lib.Utf8
import InfSplitter.Lib.FirstSeen
import InfSplitter.Lib.Cuts
import InfSplitter.Lib.Deletion
import InfSplitter.Lib.BinarySearch
import InfSplitter.Session.Model
import InfSplitter.Session.Store
import InfSplitter.Session.InFlight
import InfSplitter.Session.Chains
import InfSplitter.Session.Completion
import InfSplitter.Session.Commit
import InfSplitter.Session.Frontier
import InfSplitter.Session.Selection
import InfSplitter.Session.Agreement
import InfSplitter.Session.Part
import InfSplitter.Session.Walks
import InfSplitter.Session.Deltas
import InfSplitter.Persistence.Document
import InfSplitter.Persistence.Restore
import InfSplitter.Persistence.Steps
import InfSplitter.Persistence.Runs
import InfSplitter.Persistence.Indexes
import InfSplitter.Persistence.StartUp
import InfSplitter.Persistence.NaiveSearch
import InfSplitter.Json.Value
import InfSplitter.Interactions.Messages
import InfSplitter.Interactions.Request
import InfSplitter.Interactions.Forwarding
import InfSplitter.Routing.World
import InfSplitter.Routing.Invariant
import InfSplitter.Routing.Context
import InfSplitter.Routing.Replay
import InfSplitter.Routing.Handler
import InfSplitter.Routing.SystemFork
import InfSplitter.Routing.Routes
import InfSplitter.Routing.Separation
import InfSplitter.SplitSend.Batches
import InfSplitter.SplitSend.Matching
import InfSplitter.SplitSend.Pieces
import InfSplitter.SplitSend.Statuses
import InfSplitter.SplitSend.Isolation
import InfSplitter.SplitSend.Packing
import InfSplitter.SplitSend.Fragments
import InfSplitter.SplitSend.Kept
import InfSplitter.SplitSend.Send
import InfSplitter.SplitSend.CleanUp
import InfSplitter.SplitSend.Limit
import InfSplitter.SplitSend.Greedy
import InfSplitter.SplitSend.Feasibility
import InfSplitter.SplitSend.Measured
import InfSplitter.SplitSend.Tight
import InfSplitter.Responses.Interaction
import InfSplitter.Responses.Wire
import InfSplitter.Responses.Merge
import InfSplitter.Responses.Replay
import InfSplitter.Streams.Events
import InfSplitter.Streams.Agreement
import InfSplitter.Responses.Tokens
import InfSplitter.Streams.Sse
import InfSplitter.Streams.Buffered
import InfSplitter.Streams.Substitution
import InfSplitter.Streams.Merged
import InfSplitter.Streams.Live
import InfSplitter.Streams.Readers
import InfSplitter.Streams.Chunks
import InfSplitter.Streams.Pushes
import InfSplitter.Streams.Accounting
import InfSplitter.Streams.Lines
import InfSplitter.Streams.Encodings
import InfSplitter.Egress.Passthrough
import InfSplitter.Egress.TokenCaps
import InfSplitter.Control.Scan
import InfSplitter.Control.Runs
import InfSplitter.Control.Recognition
import InfSplitter.Diagnostics.Guard
import InfSplitter.Diagnostics.Requests
import InfSplitter.Diagnostics.StreamDump
import InfSplitter.Traffic.System
import InfSplitter.Traffic.Batches
import InfSplitter.Traffic.SessionRecord
import InfSplitter.Traffic.Chains
import InfSplitter.Traffic.Links
import InfSplitter.Traffic.Calls
import InfSplitter.Traffic.Refinement
import InfSplitter.Traffic.Duplicates
import InfSplitter.Traffic.Crash
import InfSplitter.Configuration.Load
import InfSplitter.Configuration.Routing
import InfSplitter.Lib.FileNames
import InfSplitter.Diagnostics.FileNames
import InfSplitter.Diagnostics.Rotation
import InfSplitter.Diagnostics.Retention
import InfSplitter.Diagnostics.WriterLoop
import InfSplitter.Lib.Calendar
import InfSplitter.Diagnostics.Dates
import InfSplitter.Diagnostics.Relay
import InfSplitter.Lib.ValueMap
import InfSplitter.Egress.Headers
import InfSplitter.Json.Reading
import InfSplitter.Lib.Base64
import InfSplitter.Diagnostics.Records
import InfSplitter.Diagnostics.Channels
import InfSplitter.Diagnostics.Sharing
import InfSplitter.Diagnostics.Delivery
import InfSplitter.Streams.Converters
import InfSplitter.Traffic.Deletion
import InfSplitter.Server.Dispatch
import InfSplitter.Server.Clients
import InfSplitter.Lib.KeptValue
import InfSplitter.Server.Health
import InfSplitter.Diagnostics.Details
import InfSplitter.Egress.Masking
import InfSplitter.Server.Passthrough
import InfSplitter.Server.Interleaving
import InfSplitter.Server.Privacy
import InfSplitter.Server.Conversations
import InfSplitter.Streams.Chaining
