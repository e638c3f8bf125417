import MiniMs.Library.Text
import MiniMs.Library.Run
import MiniMs.Library.Json
import MiniMs.Library.RawString
import MiniMs.Library.JsonLoads
import MiniMs.Library.JsonDumped
import MiniMs.Dpumesh.Descriptor
import MiniMs.Dpumesh.BufferPool
import MiniMs.Dpumesh.HeaderText
import MiniMs.Dpumesh.Worker
import MiniMs.Dpumesh.Callee
import MiniMs.Dpumesh.Leakage
import MiniMs.Dpumesh.ResponsePipes
import MiniMs.Dpumesh.Cursor
import MiniMs.Daemon.Bridge
import MiniMs.Dpumesh.Scanner
import MiniMs.Dpumesh.BodyString
import MiniMs.Dpumesh.FieldText
import MiniMs.Dpumesh.Write
import MiniMs.Daemon.Descriptors
import MiniMs.Daemon.IngressText
import MiniMs.Daemon.RoutingMetadata
import MiniMs.Daemon.IngressPayload
import MiniMs.Daemon.LocalHeader
import MiniMs.Library.Number
import MiniMs.Http.Parse
import MiniMs.Http.Cutting
import MiniMs.Http.Framing
import MiniMs.Service.Store
import MiniMs.Service.Handlers
import MiniMs.Tcp.Conn
import MiniMs.Http.RequestLine
import MiniMs.Service.Lookup
import MiniMs.Tcp.ResponseTransfer
import MiniMs.Tcp.Lookup
import MiniMs.Tcp.Upstream
import MiniMs.Dpumesh.Handler
import MiniMs.Service.Outcomes
import MiniMs.Tcp.Loop
import MiniMs.Tcp.Forwarding
import MiniMs.Daemon.RouteResponse
import MiniMs.Dpumesh.Respond
import MiniMs.Daemon.BridgeResponse
import MiniMs.Daemon.Registry
import MiniMs.Daemon.RequestNames
import MiniMs.Daemon.Mesh
import MiniMs.Library.JsonStops
import MiniMs.Library.JsonText
import MiniMs.Service.ReplyText
import MiniMs.Library.Packed
import MiniMs.Library.Region
import MiniMs.Library.Circular
import MiniMs.Dpumesh.Layout
import MiniMs.Dpumesh.Ring
import MiniMs.Library.JsonExtent
import MiniMs.Library.JsonPrinted
import MiniMs.Daemon.RegistryMap
import MiniMs.Daemon.Registrations
import MiniMs.Daemon.Startup
import MiniMs.Daemon.BridgeTables
import MiniMs.Dpumesh.Bitmap
import MiniMs.Dpumesh.Send
import MiniMs.Daemon.Shm
import MiniMs.Daemon.Dma
import MiniMs.Daemon.BodyTransport
import MiniMs.Library.JsonCuts
import MiniMs.Daemon.BridgeFraming
import MiniMs.Http.LineGrammar
import MiniMs.Service.Query
import MiniMs.Library.Turns
import MiniMs.Daemon.WorkerSelector
import MiniMs.Dpumesh.SlotWrite
import MiniMs.Library.FlatJson
import MiniMs.Service.StoreFile
import MiniMs.Service.FlatFile
import MiniMs.Service.AskedKey
import MiniMs.Library.Slots
import MiniMs.Library.Party
import MiniMs.Library.Custody
import MiniMs.Library.CustodySteps
import MiniMs.Library.Draining
import MiniMs.Daemon.Pools
import MiniMs.Daemon.Pipeline
import MiniMs.Daemon.PipelineCalls
import MiniMs.Daemon.SlotExclusivity
import MiniMs.Daemon.Carriage
import MiniMs.Daemon.InFlight
import MiniMs.Daemon.Delivery
import MiniMs.Daemon.Backpressure
import MiniMs.Daemon.Exchange
import MiniMs.Daemon.IngressRow
import MiniMs.Daemon.DpumeshLookup
import MiniMs.Library.Alone
import MiniMs.Library.Owners
import MiniMs.Library.Files
import MiniMs.Daemon.AtomicSteps
import MiniMs.Dpumesh.EventLoop
import MiniMs.Daemon.Attachments
