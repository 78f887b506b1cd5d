import TapSdk.Library.Json
import TapSdk.Tracker.Manager
import TapSdk.Tracker.Upload

/-!
# The C interface

`sdk/tapsdk_api.cpp`, and what `sdk/tapsdk.cpp` and `tracker::Init` do behind it. A call returns a
result or lets an exception out. Every pointer may be null. The structs of the caller are its own
memory: between two calls it may write new strings into a `tapsdk_tracker_config`, whose hash it
leaves as it is. Of the duration statistics only the game id is here, which is all that the
assertions of its listeners read.
-/

namespace TapSdk.Sdk

open Library Tracker

inductive TapsdkResult where
  | success
  | timeout
  | noInit
  | error
  | invalidInput
  deriving DecidableEq

inductive Outcome where
  | returned (result : TapsdkResult)
  | thrown
  -- The call waits for a lock that is never released, or has gone on from an erased entry.
  | lost
  deriving DecidableEq

def toString (text : Option Str) : Str := text.getD []

/-! ### Structs of the caller -/

structure TapsdkDeviceInfo where
  deviceVersion : Option Str
  model : Option Str
  platform : Option Str
  osVersion : Option Str
  ramSize : Option Str
  romSize : Option Str
  networkType : Option Str
  mobileType : Option Str
  cpuInfo : Option Str

structure TapsdkDevice where
  type : Int
  deviceId : Option Str
  info : Option TapsdkDeviceInfo

structure TapsdkConfig where
  enableDurationStatistics : Bool
  enableTapTracker : Bool
  region : Int
  sdkVersion : Option Str
  trackerGroupSize : UInt32
  device : Option TapsdkDevice

structure TapsdkTrackerConfig where
  topic : Option Str
  endpoint : Option Str
  accessKeyid : Option Str
  accessKeySecret : Option Str
  project : Option Str
  logStore : Option Str
  hash : UInt64

structure TapsdkUser where
  containTapInfo : Bool
  userId : Option Str

structure TapsdkGame where
  clientId : Option Str
  identify : Option Str
  appVersion : Option Str

def TapsdkTrackerConfig.empty : TapsdkTrackerConfig := ⟨none, none, none, none, none, none, 0⟩

def TapsdkTrackerConfig.strings (config : TapsdkTrackerConfig) : TrackDiskCacheConfig where
  topic := toString config.topic
  endpoint := toString config.endpoint
  accessKeyid := toString config.accessKeyid
  accessKeySecret := toString config.accessKeySecret
  project := toString config.project
  logStore := toString config.logStore

/-- The object that `CreateConfig` makes; its hash goes into the struct as well. -/
def createConfig (config : TapsdkTrackerConfig) : TrackerConfig :=
  ⟨config.strings, config.strings.freshHash, Or.inr rfl⟩

/-! ### What the SDK keeps -/

structure DeviceInfo where
  deviceVersion : Str
  model : Str
  platform : Str
  osVersion : Str
  ramSize : Str
  romSize : Str
  networkType : Str
  mobileType : Str
  cpuInfo : Str

def DeviceInfo.empty : DeviceInfo := ⟨[], [], [], [], [], [], [], [], []⟩

structure Device where
  deviceId : Str
  deviceInfo : DeviceInfo

def Device.construct (device : TapsdkDevice) : Device where
  deviceId := toString device.deviceId
  deviceInfo := match device.info with
    | none => DeviceInfo.empty
    | some info =>
      { deviceVersion := toString info.deviceVersion, model := toString info.model
        platform := toString info.platform, osVersion := toString info.osVersion
        ramSize := toString info.ramSize, romSize := toString info.romSize
        networkType := toString info.networkType, mobileType := toString info.mobileType
        cpuInfo := toString info.cpuInfo }

structure Game where
  clientId : Str
  identify : Str
  appVersion : Str

def Game.construct (game : TapsdkGame) : Game :=
  ⟨toString game.clientId, toString game.identify, toString game.appVersion⟩

/-- A message that was created, with the strings that the struct held then. -/
structure TrackMessage where
  message : TrackMessageImpl
  flushed : Bool
  created : TrackDiskCacheConfig

/-- A message that a cache has taken: the strings it was created with, and the slot. -/
structure Accepted where
  created : TrackDiskCacheConfig
  hash : UInt64
  index : Nat
  deriving DecidableEq

structure Api where
  sdkInited : Bool
  inited : Bool
  sdkVersion : Str
  -- Not read before the first `tapsdk_init`.
  currentDevice : Device
  currentGame : Option Game
  -- `game_id` of the duration statistics, once its listeners are registered.
  duration : Option Str
  trackerInited : Bool
  trackerConfigs : UInt64 → Option TrackerConfig
  -- The memory of the caller.
  configs : Nat → TapsdkTrackerConfig
  -- The messages that were created and not deleted, and the next handle.
  messages : Nat → Option TrackMessage
  nextMessage : Nat
  manager : Manager
  -- `tracker_lock` is held by a call that never releases it.
  locked : Bool
  accepted : List Accepted

namespace Api

/-- A new process. -/
def start (accepted : List Accepted) : Api where
  sdkInited := false
  inited := false
  sdkVersion := []
  currentDevice := ⟨[], DeviceInfo.empty⟩
  currentGame := none
  duration := none
  trackerInited := false
  trackerConfigs := fun _ => none
  configs := fun _ => TapsdkTrackerConfig.empty
  messages := fun _ => none
  nextMessage := 0
  manager := Manager.empty (fun _ => none) 0
  locked := false
  accepted := accepted

def setConfig (api : Api) (address : Nat) (config : TapsdkTrackerConfig) : Api :=
  { api with configs := fun other => if other = address then config else api.configs other }

def setMessage (api : Api) (handle : Nat) (message : Option TrackMessage) : Api :=
  { api with messages := fun other => if other = handle then message else api.messages other }

def setTrackerConfig (api : Api) (config : TrackerConfig) : Api :=
  { api with trackerConfigs := fun hash =>
      if hash = config.cached then some config else api.trackerConfigs hash }

/-- An upload has ended before its first suspension, so that its completion waits for the lock on
the thread that holds it: it had nothing to send, or the client did not accept its address. -/
def completesInline (manager : Manager) : Bool :=
  manager.selfDeadlock || manager.inFlight.any fun upload => !upload.cache.config.strings.addressed

/-- The manager after a call that may have started an upload. -/
def setManager (api : Api) (manager : Manager) : Api :=
  { api with manager := manager, locked := api.locked || completesInline manager }

end Api

section Calls

variable (ext : Externals)

/-- The directory that `process_name` and the cache directory of the device select. -/
structure InitFiles where
  files : Str → Option FileData
  names : List Str
  env : LoadEnv

structure CreateEnv where
  now : UInt32
  uuid : Str

inductive Call where
  | init (config : Option TapsdkConfig) (files : InitFiles)
  | gameSet (game : Option TapsdkGame)
  | userSet (user : Option TapsdkUser)
  | windowOnForeground
  | windowOnBackground
  | trackerCreate (config : Option Nat) (message : Bool) (env : CreateEnv)
  | trackerMsgAddParam (message : Option Nat) (key value : Option Str)
  | trackerMsgAddContent (message : Option Nat) (key value : Option Str)
  | trackerFlush (message : Option Nat) (env : FlushEnv)

namespace Api

/-! ### Starting -/

def loadTrackers (config : TapsdkConfig) (files : InitFiles) : Manager :=
  let groupSize := if config.trackerGroupSize ≠ 0 then config.trackerGroupSize else 2000
  (Manager.empty files.files groupSize).syncLoadTrackersCache ext files.names files.env

/-- `Init` of `tapsdk.cpp`; the second call asserts, and the exception is caught. -/
def initSdk (api : Api) (config : TapsdkConfig) (files : InitFiles) : Bool × Api :=
  let configured := { api with sdkVersion := toString config.sdkVersion }
  if api.inited then (false, configured)
  else
    (true, { configured with
      inited := true
      duration := if config.enableDurationStatistics then some [] else none
      trackerInited := config.enableTapTracker
      manager := if config.enableTapTracker then loadTrackers ext config files else api.manager })

def init (api : Api) (config : Option TapsdkConfig) (files : InitFiles) : TapsdkResult × Api :=
  match config with
  | none => (.invalidInput, api)
  | some config =>
      match config.device with
      | none => (.invalidInput, api)
      | some device =>
          if ¬ (0 ≤ config.region ∧ config.region ≤ 2) then (.invalidInput, api)
          else if ¬ (0 ≤ device.type ∧ device.type ≤ 2) then (.invalidInput, api)
          else
            match { api with currentDevice := Device.construct device }.initSdk ext
              config files with
            | (true, api) => (.success, { api with sdkInited := true })
            | (false, api) => (.error, api)

/-! ### Game, user and window -/

/-- The listener of the duration statistics ignores a game that is null. -/
def setCurrentGame (api : Api) (game : Option Game) : Api :=
  { api with
    currentGame := game
    duration := match game with
      | none => api.duration
      | some game => api.duration.map fun _ => game.clientId }

def gameSet (api : Api) (game : Option TapsdkGame) : TapsdkResult × Api :=
  if api.sdkInited = false then (.noInit, api)
  else
    match game with
    | none => (.success, api.setCurrentGame none)
    | some game =>
        if game.clientId = none then (.invalidInput, api)
        else if game.identify = none then (.invalidInput, api)
        else (.success, api.setCurrentGame (some (Game.construct game)))

/-- The user goes to the duration statistics, whose listener asserts nothing. -/
def userSet (api : Api) (user : Option TapsdkUser) : TapsdkResult × Api :=
  if api.sdkInited = false then (.noInit, api)
  else if user.any fun user => user.userId = none then (.noInit, api)
  else (.success, api)

/-- `tapsdk_window_on_foreground` and `tapsdk_window_on_background`. -/
def onWindow (api : Api) : Outcome :=
  if api.sdkInited = false then .returned .noInit
  else if api.duration = some [] then .thrown
  else .returned .success

/-! ### Tracker messages -/

/-- `FillCommons`. -/
def fillCommons (api : Api) (uuid : Str) : List TrackMsgContent :=
  let info := api.currentDevice.deviceInfo
  [⟨ascii "sdk_version", api.sdkVersion⟩, ⟨ascii "device_id", api.currentDevice.deviceId⟩,
    ⟨ascii "t_log_id", uuid⟩, ⟨ascii "version", ascii "1.0.1"⟩,
    ⟨ascii "dv", info.deviceVersion⟩, ⟨ascii "md", info.model⟩, ⟨ascii "cpu", info.cpuInfo⟩,
    ⟨ascii "ram", info.ramSize⟩, ⟨ascii "rom", info.romSize⟩,
    ⟨ascii "network_type", info.networkType⟩, ⟨ascii "mobile_type", info.mobileType⟩,
    ⟨ascii "os", info.platform⟩, ⟨ascii "sv", info.osVersion⟩]
  ++ match api.currentGame with
    | none => []
    | some game => [⟨ascii "app_package_name", game.identify⟩,
        ⟨ascii "app_version", game.appVersion⟩]

def createTracker (api : Api) (config : TrackerConfig) (env : CreateEnv) :
    Option TrackMessageImpl :=
  if api.trackerInited then some ⟨some config, env.now, ⟨[], api.fillCommons env.uuid⟩⟩ else none

/-- The configuration that `tapsdk_tracker_create` uses, and what it leaves in the struct and in the
table. -/
def trackerConfig (api : Api) (address : Nat) : TrackerConfig × Api :=
  let struct := api.configs address
  let made := createConfig struct
  let hashed := api.setConfig address { struct with hash := made.hash }
  if struct.hash = 0 then (made, hashed.setTrackerConfig made)
  else
    match api.trackerConfigs struct.hash with
    | some config => (config, api)
    | none => (made, hashed)

def trackerCreate (api : Api) (config : Option Nat) (message : Bool) (env : CreateEnv) :
    TapsdkResult × Api :=
  if api.sdkInited = false then (.noInit, api)
  else
    match config, message with
    | some address, true =>
        let (config, configured) := api.trackerConfig address
        match configured.createTracker config env with
        | none => (.error, configured)
        | some message => (.success, { configured.setMessage configured.nextMessage
            (some ⟨message, false, (api.configs address).strings⟩) with
              nextMessage := configured.nextMessage + 1 })
    | _, _ => (.invalidInput, api)

/-- `tapsdk_tracker_msg_add_param` and `tapsdk_tracker_msg_add_content`, for the list that the pair
is added to. A handle that is not alive is not passed. -/
def msgAdd (api : Api) (add : TrackMsgCacheProto → TrackMsgContent → TrackMsgCacheProto)
    (message : Option Nat) (key value : Option Str) : Option (Outcome × Api) :=
  if api.sdkInited = false then some (.returned .noInit, api)
  else
    match message, key, value with
    | some handle, some key, some value =>
        match api.messages handle with
        | none => none
        | some track =>
            if track.flushed then some (.thrown, api)
            else
              let proto := add track.message.proto ⟨key, value⟩
              some (.returned .success, api.setMessage handle
                (some { track with message := { track.message with proto := proto } }))
    | _, _, _ => some (.returned .invalidInput, api)

def trackerMsgAddParam (api : Api) :
    Option Nat → Option Str → Option Str → Option (Outcome × Api) :=
  api.msgAdd fun proto content => { proto with logCommons := proto.logCommons ++ [content] }

def trackerMsgAddContent (api : Api) :
    Option Nat → Option Str → Option Str → Option (Outcome × Api) :=
  api.msgAdd fun proto content => { proto with logContents := proto.logContents ++ [content] }

/-- The loop of `FlushTracker` advances from an entry that it has erased. -/
def derails (manager : Manager) (message : TrackMessageImpl) (env : FlushEnv) : Bool :=
  match message.config with
  | none => false
  | some config => (flushLoop ext config.hash message env
      (manager.trackersCache config.hash).entries manager).advances.any fun advance => !advance.2

def flushMessage (api : Api) (handle : Nat) (track : TrackMessage) (env : FlushEnv) :
    Outcome × Api :=
  if api.trackerInited = false then (.returned .error, api)
  else if api.locked then (.lost, api)
  else if track.flushed then (.returned .error, api)
  else
    let (taken, manager) := api.manager.flushTracker ext track.message env
    let tried := api.setManager manager
    let lost := tried.locked || derails ext api.manager track.message env
    match taken, track.message.config with
    | some index, some config =>
        (if lost then .lost else .returned .success,
          { tried.setMessage handle none with
            accepted := api.accepted ++ [⟨track.created, config.hash, index⟩] })
    | _, _ =>
        (if lost then .lost else .returned .error,
          tried.setMessage handle (some { track with flushed := true }))

def trackerFlush (api : Api) (message : Option Nat) (env : FlushEnv) : Option (Outcome × Api) :=
  if api.sdkInited = false then some (.returned .noInit, api)
  else
    match message with
    | none => some (.returned .invalidInput, api)
    | some handle => (api.messages handle).map fun track => api.flushMessage ext handle track env

/-! ### Runs -/

def returning (result : TapsdkResult × Api) : Option (Outcome × Api) :=
  some (.returned result.1, result.2)

def call (api : Api) : Call → Option (Outcome × Api)
  | .init config files => returning (api.init ext config files)
  | .gameSet game => returning (api.gameSet game)
  | .userSet user => returning (api.userSet user)
  | .windowOnForeground => some (api.onWindow, api)
  | .windowOnBackground => some (api.onWindow, api)
  | .trackerCreate config message env => returning (api.trackerCreate config message env)
  | .trackerMsgAddParam message key value => api.trackerMsgAddParam message key value
  | .trackerMsgAddContent message key value => api.trackerMsgAddContent message key value
  | .trackerFlush message env => api.trackerFlush ext message env

inductive Op where
  | call (call : Call)
  -- The caller writes the strings of a struct.
  | edit (address : Nat) (strings : TapsdkTrackerConfig)
  -- The timer, and the end of an upload.
  | check (order : List UInt64) (clock : Nat → UInt32)
  | complete (position : Nat) (success : Bool) (env : CompletionEnv)
  -- The process ends, and another one starts.
  | exit

def step (api : Api) : Op → Option Api
  | .call call => (api.call ext call).map (·.2)
  | .edit address strings =>
      some (api.setConfig address { strings with hash := (api.configs address).hash })
  | .check order clock =>
      some (api.setManager (api.manager.checkAndUploadTrackers ext order clock))
  | .complete position success env =>
      (api.manager.complete ext position success env).map fun manager =>
        { api with manager := manager }
  | .exit => some (start api.accepted)

def system : System Api Op where
  init api := api = start []
  step api op := api.step ext op

end Api

end Calls

end TapSdk.Sdk
