import TapSdk.Duration.Statistics
import TapSdk.Library.Json

/-!
# The report on its way to the server

`ReportContent::ToJson` of `duration/dur_model.cpp` and `PostAsync` with a list of
`net/httpclient.h`, and the reporter over them with a server that answers every POST it receives
with success. The parser of the JSON library is a parameter; where it throws it returns nothing. The
user of an event is parsed as JSON, and `ToJson` throws if it is not; that is caught, and the POST
fails with the status -1. What `dump` throws is not caught, and leaves the thread.
-/

namespace TapSdk.Duration

open Library

inductive DeviceType where
  | localDevice
  | sandbox
  | cloud
  deriving DecidableEq

structure DeviceInfo where
  platform : Str
  engine : Str
  model : Str
  deriving DecidableEq

/-- The members of the statistics that the reporter copies into every event. -/
structure ReportInfo where
  devType : DeviceType
  deviceInfo : Option DeviceInfo
  sdkVersion : Str
  deriving DecidableEq

def actionString : EventAction → Str
  | .gameStart => ascii "start"
  | .gameEnd => ascii "end"
  | .heatBeat => ascii "heartbeat"
  | .userLogin => ascii "login"
  | .userLogout => ascii "logout"
  | .gameForeground => ascii "resume"
  | .gameBackground => ascii "pause"
  | .nullEvent => ascii ""

def devTypeString : DeviceType → Str
  | .localDevice => ascii "local"
  | .sandbox => ascii "sandbox"
  | .cloud => ascii "cloud"

section Encoding

variable (parse : Str → Option Json) (info : ReportInfo)

/-- The assignment to `user`, unless there is no user. -/
def userField (event : DurEvent) : Option (List (Str × Json)) :=
  if event.userId = [] then some []
  else (parse event.userId).map fun user => [(ascii "user", user)]

def extraFields (event : DurEvent) : List (Str × Json) :=
  (ascii "session_id", .string event.session)
    :: if event.lastTimestamp ≠ 0 then [(ascii "last_ts", .unsigned (event.lastTimestamp / 1000))]
      else []

def deviceFields : List (Str × Json) :=
  match info.deviceInfo with
  | none => []
  | some device => [(ascii "os", .string device.platform), (ascii "engine", .string device.engine),
      (ascii "device_model", .string device.model)]

def reportFields (event : DurEvent) (user : List (Str × Json)) : List (Str × Json) :=
  [(ascii "event", .string (actionString event.action)),
    (ascii "ts", .unsigned (event.timestamp / 1000)),
    (ascii "client_id", .string event.gameId), (ascii "identifier", .string event.gamePkg)]
  ++ user
  ++ [(ascii "device_id", .string event.deviceId),
    (ascii "extra", Json.ofFields (extraFields event)),
    (ascii "environment", .string (devTypeString info.devType)),
    (ascii "sdk_version", .string info.sdkVersion)]
  ++ deviceFields info

/-- `ReportContent::ToJson`. -/
def toJson (event : DurEvent) : Option Json :=
  (userField parse event).map fun user => Json.ofFields (reportFields info event user)

/-- What `PostAsync` makes of the reports: the body of its request, or the exception. -/
inductive Encoded where
  | invalid
  | thrown
  | body (text : Str)

def encode (reports : List DurEvent) : Encoded :=
  match reports.mapM (toJson parse info) with
  | none => .invalid
  | some contents =>
      match (Json.ofItems contents).dump with
      | none => .thrown
      | some text => .body text

end Encoding

/-! ### The reporter with its server -/

/-- The statistics, what the server has received, how often the retry loop has been entered for the
batch in hand, how many retry loops have ended, and whether an exception has left the reporter. -/
structure Reporting where
  statistics : Statistics
  received : List DurEvent
  iterations : Nat
  passes : Nat
  thrown : Bool

namespace Reporting

def start (statistics : Statistics) : Reporting := ⟨statistics, [], 0, 0, false⟩

/-- The process has not been ended by an exception or by a thread object that was not joined. -/
def alive (reporting : Reporting) : Bool :=
  !reporting.thrown && !reporting.statistics.terminated

def count (reporting : Reporting) (next : Statistics) : Reporting :=
  match reporting.statistics.reportThread, next.reportThread with
  | some .waiting, _ => { reporting with statistics := next, iterations := 1 }
  | some (.checking ..), some (.building ..) =>
      { reporting with statistics := next, iterations := reporting.iterations + 1 }
  | some (.checking ..), _ | some (.answered ..), some .loop =>
      { reporting with statistics := next, passes := reporting.passes + 1 }
  | _, _ => { reporting with statistics := next }

variable (parse : Str → Option Json) (info : ReportInfo)

/-- `PostSync`, in the place where the statistics take the answer of the server. -/
def post (reporting : Reporting) (input : Statistics.ReporterInput) (reports : List DurEvent) :
    Option Reporting :=
  match encode parse info reports with
  | .invalid => (reporting.statistics.step (.reporter { input with answer := .failure (-1) })).map
      fun next => { reporting with statistics := next }
  | .thrown => some { reporting with thrown := true }
  | .body _ => (reporting.statistics.step (.reporter { input with answer := .success })).map
      fun next => { reporting with statistics := next, received := reporting.received ++ reports }

def step (reporting : Reporting) (op : Statistics.Op) : Option Reporting :=
  if reporting.alive then
    match op, reporting.statistics.reportThread with
    | .reporter input, some (.posting _ reports _ _) => reporting.post parse info input reports
    | .reporter input, _ => (reporting.statistics.step (.reporter input)).map reporting.count
    | op, _ => (reporting.statistics.step op).map fun next => { reporting with statistics := next }
  else none

def system : System Reporting Statistics.Op where
  init reporting := ∃ statistics, Statistics.system.init statistics ∧ reporting = start statistics
  step := step parse info

end Reporting

end TapSdk.Duration
