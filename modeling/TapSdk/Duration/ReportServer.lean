import TapSdk.Duration.Encoding
import TapSdk.Library.JsonRoundTrip
import TapSdk.Net.Request
import TapSdk.Sdk.Startup

/-!
# The server of the reports

The request that the reporter makes for a batch, `PostSync` of `net/httpclient.h` with the path of
`duration/duration.cpp`, and a server that reads reports from it by their fields. The server is not
part of the repository.
-/

namespace TapSdk.Duration

open Library

def collectorUrl : Sdk.Startup.Region → Str
  | .global => ascii "tds-activity-collector.tapapis.com"
  | .cn => ascii "tds-activity-collector.tapapis.cn"
  | .rnd => ascii "tds-activity-collector.xdrnd.cn"

/-- The client that `Init` creates. -/
def collectorClient (region : Sdk.Startup.Region) : Net.CoroHttpClient :=
  ⟨collectorUrl region, true, [], []⟩

def reportRequest (body : Str) : Net.Request :=
  { type := .post
    path := ascii "report/v1/statistics"
    headers := []
    params := []
    content := body
    contentType := .json }

/-! ### What a report says -/

structure Report where
  event : Str
  ts : UInt64
  clientId : Str
  identifier : Str
  user : Option Json
  deviceId : Str
  sessionId : Str
  lastTs : Option UInt64
  environment : Str
  sdkVersion : Str
  device : Option DeviceInfo

namespace Report

def textOf (key : Str) (json : Json) : Option Str :=
  match json.member key with
  | some (.string text) => some text
  | _ => none

def numberOf (key : Str) (json : Json) : Option UInt64 :=
  match json.member key with
  | some (.unsigned number) => some number
  | _ => none

def deviceOf (json : Json) : Option DeviceInfo := do
  let platform ← textOf (ascii "os") json
  let engine ← textOf (ascii "engine") json
  let model ← textOf (ascii "device_model") json
  some ⟨platform, engine, model⟩

/-- A report without a user, a device or an earlier time has no such field. -/
def ofJson (json : Json) : Option Report := do
  let event ← textOf (ascii "event") json
  let ts ← numberOf (ascii "ts") json
  let clientId ← textOf (ascii "client_id") json
  let identifier ← textOf (ascii "identifier") json
  let deviceId ← textOf (ascii "device_id") json
  let extra ← json.member (ascii "extra")
  let sessionId ← textOf (ascii "session_id") extra
  let environment ← textOf (ascii "environment") json
  let sdkVersion ← textOf (ascii "sdk_version") json
  some ⟨event, ts, clientId, identifier, json.member (ascii "user"), deviceId, sessionId,
    numberOf (ascii "last_ts") extra, environment, sdkVersion, deviceOf json⟩

/-- The reports of a body. -/
def readAll (body : Str) : Option (List Report) :=
  match Json.parse body with
  | some (.array items) => items.mapM ofJson
  | _ => none

/-- The reports of the next request on a connection, and what is left. -/
def receive (bytes : Str) : Option (List Report × Str) := do
  let (request, rest) ← Http.read bytes
  let reports ← readAll request.body
  some (reports, rest)

/-- What an event is to the server: times in seconds, and the user as JSON. -/
def ofEvent (parse : Str → Option Json) (info : ReportInfo) (event : DurEvent) : Report where
  event := actionString event.action
  ts := event.timestamp / 1000
  clientId := event.gameId
  identifier := event.gamePkg
  user := if event.userId = [] then none else (parse event.userId).map Json.normalize
  deviceId := event.deviceId
  sessionId := event.session
  lastTs := if event.lastTimestamp ≠ 0 then some (event.lastTimestamp / 1000) else none
  environment := devTypeString info.devType
  sdkVersion := info.sdkVersion
  device := info.deviceInfo

end Report

end TapSdk.Duration
