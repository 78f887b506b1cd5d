import TapSdk.Library.Memory
import TapSdk.Library.Run
import TapSdk.Library.OrderedMap
import TapSdk.Library.Wire
import TapSdk.Library.Ledger
import TapSdk.Library.Cut
import TapSdk.Library.Table
import TapSdk.Library.Heap
import TapSdk.Library.Json
import TapSdk.Library.Form
import TapSdk.Library.Base64
import TapSdk.Library.Digest
import TapSdk.Library.Sha1
import TapSdk.Library.Md5
import TapSdk.Library.Hmac
import TapSdk.Library.Decimal
import TapSdk.Library.Http
import TapSdk.Base.CityHash
import TapSdk.Base.File
import TapSdk.Base.BlockingQueue
import TapSdk.Base.Timer
import TapSdk.Base.TimerLoop
import TapSdk.Base.Proof.TimerQueue
import TapSdk.Base.Proof.TimerWaiting
import TapSdk.Base.Proof.TimerLoop
import TapSdk.Base.PositionalIo
import TapSdk.Base.Proof.PositionalIo
import TapSdk.Base.FileStream
import TapSdk.Base.Proof.FileStream
import TapSdk.Base.QueueThreads
import TapSdk.Base.Proof.QueueThreads
import TapSdk.Base.Base64
import TapSdk.Base.Proof.Base64
import TapSdk.Base.Sha1
import TapSdk.Base.Proof.Sha1
import TapSdk.Base.Md5
import TapSdk.Base.Proof.Md5
import TapSdk.Base.Hmac
import TapSdk.Base.Proof.Hmac
import TapSdk.Tracker.Message
import TapSdk.Tracker.DiskCache
import TapSdk.Tracker.Proof.Mapping
import TapSdk.Tracker.Proof.RecordArea
import TapSdk.Tracker.Proof.Append
import TapSdk.Tracker.Proof.Layout
import TapSdk.Tracker.Proof.History
import TapSdk.Tracker.Proof.PushBounds
import TapSdk.Tracker.Proof.PushFailure
import TapSdk.Tracker.Crash
import TapSdk.Tracker.Proof.Crash
import TapSdk.Tracker.Proof.Branches
import TapSdk.Tracker.Proof.MappingLife
import TapSdk.Tracker.LoadLoop
import TapSdk.Tracker.Proof.LoadSafety
import TapSdk.Tracker.Proof.Damage
import TapSdk.Tracker.TrackerCache
import TapSdk.Tracker.Proof.UploadTime
import TapSdk.Tracker.CacheName
import TapSdk.Tracker.Manager
import TapSdk.Tracker.Proof.ScanLanguage
import TapSdk.Tracker.Service
import TapSdk.Tracker.Proof.ManagerRules
import TapSdk.Tracker.Proof.Slots
import TapSdk.Tracker.Proof.FlushLoop
import TapSdk.Tracker.Proof.RefusedFlush
import TapSdk.Tracker.Proof.SelfDeadlock
import TapSdk.Tracker.Proof.Refinement
import TapSdk.Tracker.Proof.Delivery
import TapSdk.Tracker.WireFormat
import TapSdk.Tracker.Proof.Starvation
import TapSdk.Tracker.Proof.Reopening
import TapSdk.Duration.Model
import TapSdk.Duration.Statistics
import TapSdk.Duration.Handlers
import TapSdk.Duration.Account
import TapSdk.Duration.Launches
import TapSdk.Duration.Deliveries
import TapSdk.Duration.Encoding
import TapSdk.Duration.Startup
import TapSdk.Duration.TimerEvents
import TapSdk.Duration.Proof.Tracking
import TapSdk.Duration.Proof.Durability
import TapSdk.Duration.Proof.Launches
import TapSdk.Duration.Proof.Sessions
import TapSdk.Duration.Proof.Identity
import TapSdk.Duration.Proof.Clock
import TapSdk.Duration.Proof.Games
import TapSdk.Duration.Proof.Encoding
import TapSdk.Duration.Proof.Batches
import TapSdk.Duration.Proof.EndEvent
import TapSdk.Duration.Proof.Spans
import TapSdk.Duration.Proof.Intervals
import TapSdk.Duration.Proof.Lifecycle
import TapSdk.Duration.Proof.Expiry
import TapSdk.Duration.Proof.Orphans
import TapSdk.Duration.Proof.Retries
import TapSdk.Duration.Proof.Duplicates
import TapSdk.Duration.Proof.TimerEvents
import TapSdk.Duration.Proof.TimerProgress
import TapSdk.Duration.Proof.ConfigRetries
import TapSdk.Duration.Proof.HeatBeats
import TapSdk.Duration.ConfigResponse
import TapSdk.Duration.Proof.ConfigResponse
import TapSdk.Sdk.Api
import TapSdk.Sdk.Proof.Returns
import TapSdk.Sdk.Proof.Configs
import TapSdk.Sdk.Future
import TapSdk.Sdk.Proof.Future
import TapSdk.Sdk.Startup
import TapSdk.Sdk.Proof.Startup
import TapSdk.Login.TapLogin
import TapSdk.Login.Unwrap
import TapSdk.Login.Proof.Success
import TapSdk.Login.Proof.Unwrap
import TapSdk.Login.Proof.Form
import TapSdk.Login.Polling
import TapSdk.Login.Proof.Polling
import TapSdk.Net.Uri
import TapSdk.Net.Request
import TapSdk.Net.Proof.Uri
import TapSdk.Net.Proof.Request
import TapSdk.Tracker.Upload
import TapSdk.Tracker.LogServer
import TapSdk.Tracker.WireServer
import TapSdk.Tracker.Proof.Upload
import TapSdk.Library.JsonReader
import TapSdk.Library.JsonRoundTrip
import TapSdk.Duration.ReportServer
import TapSdk.Duration.Proof.ReportServer
import TapSdk.Net.ClientPool
import TapSdk.Net.Proof.ClientPool
import TapSdk.Library.Segments
import TapSdk.Library.HttpResponse
import TapSdk.Net.Response
import TapSdk.Net.Proof.Response
import TapSdk.Net.Proof.Responses
import TapSdk.Net.Proof.Answers
