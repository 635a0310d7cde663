import TrilliumGrpc.Async.Drain
import TrilliumGrpc.Async.Pipe
import TrilliumGrpc.Async.Read
import TrilliumGrpc.Async.Steps
import TrilliumGrpc.Async.Stream
import TrilliumGrpc.Async.Tally
import TrilliumGrpc.Async.Write
import TrilliumGrpc.Client.Conn
import TrilliumGrpc.Client.Deadline
import TrilliumGrpc.Client.Deferred
import TrilliumGrpc.Client.HalfClose
import TrilliumGrpc.Client.Heads
import TrilliumGrpc.Client.History
import TrilliumGrpc.Client.Issue
import TrilliumGrpc.Client.Operations
import TrilliumGrpc.Client.Receiving
import TrilliumGrpc.Client.ServiceClient
import TrilliumGrpc.Client.Stopped
import TrilliumGrpc.Client.Terminal
import TrilliumGrpc.Client.Typed
import TrilliumGrpc.Client.Serving
import TrilliumGrpc.Client.Verdict
import TrilliumGrpc.Client.Unary
import TrilliumGrpc.Client.CancelSend
import TrilliumGrpc.Client.UnaryVerdict
import TrilliumGrpc.Client.UnaryOutcome
import TrilliumGrpc.Client.UnaryRequest
import TrilliumGrpc.Codegen.Generator
import TrilliumGrpc.Codegen.Render
import TrilliumGrpc.ContentType
import TrilliumGrpc.Data.Base64
import TrilliumGrpc.Data.Blocking
import TrilliumGrpc.Data.Bytes
import TrilliumGrpc.Data.Digits
import TrilliumGrpc.Data.Gather
import TrilliumGrpc.Data.HeaderMap
import TrilliumGrpc.Data.Scale
import TrilliumGrpc.Data.Time
import TrilliumGrpc.Encoding
import TrilliumGrpc.EncodingCap
import TrilliumGrpc.EndToEnd.Deadline
import TrilliumGrpc.EndToEnd.Head
import TrilliumGrpc.EndToEnd.RequestHead
import TrilliumGrpc.EndToEnd.Session
import TrilliumGrpc.EndToEnd.Settings
import TrilliumGrpc.EndToEnd.Unary
import TrilliumGrpc.Frame.Outgoing
import TrilliumGrpc.Frame.Payloads
import TrilliumGrpc.Frame.Reader
import TrilliumGrpc.Frame.Reference
import TrilliumGrpc.Frame.Refinement
import TrilliumGrpc.Frame.Single
import TrilliumGrpc.Frame.Taken
import TrilliumGrpc.Frame.Writer
import TrilliumGrpc.Metadata
import TrilliumGrpc.MetadataBinary
import TrilliumGrpc.MetadataOrder
import TrilliumGrpc.MetadataRuns
import TrilliumGrpc.MetadataWire
import TrilliumGrpc.Frame.RoundTrip
import TrilliumGrpc.Server.Bidi
import TrilliumGrpc.Server.Body
import TrilliumGrpc.Server.Cut
import TrilliumGrpc.Server.Dispatch
import TrilliumGrpc.Server.Handover
import TrilliumGrpc.Server.History
import TrilliumGrpc.Server.Shapes
import TrilliumGrpc.Server.Announced
import TrilliumGrpc.Server.Failures
import TrilliumGrpc.Server.Cardinality
import TrilliumGrpc.Server.SingleResponse
import TrilliumGrpc.Server.Answered
import TrilliumGrpc.Server.Streaming
import TrilliumGrpc.Server.Taking
import TrilliumGrpc.Status
import TrilliumGrpc.StatusTrailers
import TrilliumGrpc.Timeout
import TrilliumGrpc.TimeoutFormat
import TrilliumGrpc.TimeoutGrammar
import TrilliumGrpc.EndToEnd.ServerStreaming
import TrilliumGrpc.EndToEnd.ClientStreaming
import TrilliumGrpc.EndToEnd.Outcome
import TrilliumGrpc.EndToEnd.StreamedCall
import TrilliumGrpc.StatusMessage
import TrilliumGrpc.Client.ResponseHead
import TrilliumGrpc.EndToEnd.ContentTypes
import TrilliumGrpc.Codegen.ProtoNames
import TrilliumGrpc.Codegen.Routing
import TrilliumGrpc.Codegen.ModuleNames
import TrilliumGrpc.Data.SortedMap
import TrilliumGrpc.Macros.ModTree
