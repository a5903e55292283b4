import EspHomeApi.ApiClient
import EspHomeApi.Batch
import EspHomeApi.CallTrace
import EspHomeApi.CodedStream
import EspHomeApi.Collector
import EspHomeApi.Connection
import EspHomeApi.Coroutine
import EspHomeApi.CoroutineView
import EspHomeApi.Coupling
import EspHomeApi.Cursor
import EspHomeApi.CursorErasure
import EspHomeApi.Deaf
import EspHomeApi.DecodeLoop
import EspHomeApi.Delivery
import EspHomeApi.EntityConversion
import EspHomeApi.Executor
import EspHomeApi.Frame
import EspHomeApi.Framing
import EspHomeApi.Handshake
import EspHomeApi.History
import EspHomeApi.Isolation
import EspHomeApi.Lib.Exchange
import EspHomeApi.Lib.Expected
import EspHomeApi.Lib.Items
import EspHomeApi.Lib.OneShot
import EspHomeApi.Lib.Race
import EspHomeApi.Lib.ReadAll
import EspHomeApi.Lib.Reader
import EspHomeApi.Lib.Run
import EspHomeApi.Lib.ShortWrite
import EspHomeApi.Lib.StopState
import EspHomeApi.Lib.Traced
import EspHomeApi.Lib.Varint
import EspHomeApi.Lib.WireFormat
import EspHomeApi.LightCommands
import EspHomeApi.MessageType
import EspHomeApi.MessageWait
import EspHomeApi.MessageWrapper
import EspHomeApi.Net
import EspHomeApi.Operations
import EspHomeApi.Outgoing
import EspHomeApi.Phantom
import EspHomeApi.PlainTextProtocol
import EspHomeApi.Progress
import EspHomeApi.Protocol
import EspHomeApi.ReceiveLoop
import EspHomeApi.ReceiveTask
import EspHomeApi.Registry
import EspHomeApi.Requests
import EspHomeApi.Response
import EspHomeApi.Result
import EspHomeApi.Segmentation
import EspHomeApi.SendReport
import EspHomeApi.Serialize
import EspHomeApi.Session
import EspHomeApi.Skipping
import EspHomeApi.StepLabels
import EspHomeApi.StepOutcomes
import EspHomeApi.Stopped
import EspHomeApi.Subscription
import EspHomeApi.Transition
import EspHomeApi.Verdict
import EspHomeApi.WatchDog
import EspHomeApi.WireClient
import EspHomeApi.WireMessage
import EspHomeApi.WrapperContents
