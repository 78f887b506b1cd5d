import TapSdk.Library.Json
import TapSdk.Library.Run

/-!
# Starting the SDK

`Init` of `sdk/tapsdk.cpp` and `tapsdk_init` of `sdk/tapsdk_api.cpp`, with the globals that they
write and every point at which a module can fail. A null string of the caller is the empty one to
the SDK. What a device holds beside its type is copied and not looked at.
-/

namespace TapSdk.Sdk.Startup

open Library

variable {ι : Type}

structure Config where
  enableDurationStatistics : Bool
  enableTapLogin : Bool
  enableTapTracker : Bool
  processName : Bytes
  -- The number of a `Region`.
  region : Int
  sdkVersion : Bytes
  trackerGroupSize : UInt32
  deriving DecidableEq

def Config.default : Config := ⟨false, false, false, [], 0, [], 0⟩

/-- `tapsdk_device`, and the device that is made of it. -/
structure Device (ι : Type) where
  type : Int
  rest : ι
  deriving DecidableEq

/-- `tapsdk_config`. -/
structure TapsdkConfig (ι : Type) where
  config : Config
  device : Option (Device ι)
  deriving DecidableEq

/-- Which modules have been set up, as far as it went. -/
structure Modules where
  durationStatistics : Bool
  login : Bool
  tracker : Bool
  deriving DecidableEq

structure Globals (ι : Type) where
  sdkConfig : Config
  currentDevice : Option (Device ι)
  inited : Bool
  modules : Modules
  -- Of `tapsdk_api.cpp`.
  sdkInited : Bool

def Globals.start : Globals ι := ⟨.default, none, false, ⟨false, false, false⟩, false⟩

/-- What throws, where the source does not say so itself. -/
structure InitEnv where
  runtimeThrows : Bool
  durationThrows : Bool
  loginThrows : Bool
  trackerThrows : Bool
  deriving DecidableEq

inductive Region where
  | cn
  | global
  | rnd

def Region.ofInt? (region : Int) : Option Region :=
  if region = 0 then some .cn
  else if region = 1 then some .global
  else if region = 2 then some .rnd
  else none

/-- `DurationStatistics::Init`: the type of the device and the region are checked. -/
def durationInits (config : Config) (device : Device ι) (env : InitEnv) : Bool :=
  (0 ≤ device.type ∧ device.type ≤ 2) && (Region.ofInt? config.region).isSome && !env.durationThrows

namespace Globals

/-! ### `Init` -/

def initTracker (sdk : Globals ι) (env : InitEnv) : Bool × Globals ι :=
  if sdk.sdkConfig.enableTapTracker then
    if env.trackerThrows then (false, sdk)
    else (true, { sdk with modules := { sdk.modules with tracker := true } })
  else (true, sdk)

def initLogin (sdk : Globals ι) (env : InitEnv) : Bool × Globals ι :=
  if sdk.sdkConfig.enableTapLogin then
    if env.loginThrows then (false, sdk)
    else { sdk with modules := { sdk.modules with login := true } }.initTracker env
  else sdk.initTracker env

/-- The statistics are kept although their `Init` throws. -/
def initDuration (sdk : Globals ι) (device : Device ι) (env : InitEnv) : Bool × Globals ι :=
  if sdk.sdkConfig.enableDurationStatistics then
    let made := { sdk with modules := { sdk.modules with durationStatistics := true } }
    if durationInits sdk.sdkConfig device env then made.initLogin env else (false, made)
  else sdk.initLogin env

/-- The exception of an assertion or of a module is caught. -/
def init (sdk : Globals ι) (config : Config) (env : InitEnv) : Bool × Globals ι :=
  let configured := { sdk with sdkConfig := config }
  if sdk.inited then (false, configured)
  else
    let marked := { configured with inited := true }
    if env.runtimeThrows then (false, marked)
    else
      match marked.currentDevice with
      | none => (false, marked)
      | some device => marked.initDuration device env

/-! ### `tapsdk_init` -/

/-- The device that the checks of the arguments let through. -/
def acceptedDevice (config : TapsdkConfig ι) : Option (Device ι) :=
  match config.device with
  | none => none
  | some device =>
      if ¬ (0 ≤ config.config.region ∧ config.config.region ≤ 2) then none
      else if ¬ (0 ≤ device.type ∧ device.type ≤ 2) then none
      else some device

def tapsdkInit (sdk : Globals ι) (config : Option (TapsdkConfig ι)) (env : InitEnv) :
    Bool × Globals ι :=
  match config with
  | none => (false, sdk)
  | some config =>
      match acceptedDevice config with
      | none => (false, sdk)
      | some device =>
          match { sdk with currentDevice := some device }.init config.config env with
          | (true, sdk) => (true, { sdk with sdkInited := true })
          | (false, sdk) => (false, sdk)

end Globals

/-! ### Runs -/

inductive Call (ι : Type) where
  | tapsdkInit (config : Option (TapsdkConfig ι)) (env : InitEnv)
  | init (config : Config) (env : InitEnv)
  -- `platform::Device::SetCurrent`.
  | setDevice (device : Option (Device ι))

/-- The globals, with the configurations of the calls that have reported success and the device that
was set last, by one of these calls or by itself. -/
structure World (ι : Type) where
  sdk : Globals ι
  successes : List Config
  device : Option (Device ι)

namespace World

def start : World ι := ⟨.start, [], none⟩

/-- Whether the call reports success, and the globals after it. -/
def call (world : World ι) : Call ι → Bool × Globals ι
  | .tapsdkInit config env => world.sdk.tapsdkInit config env
  | .init config env => world.sdk.init config env
  | .setDevice device => (true, { world.sdk with currentDevice := device })

def succeeded (world : World ι) (sdk : Globals ι) : Call ι → World ι
  | .tapsdkInit config _ =>
      ⟨sdk, world.successes ++ (config.map TapsdkConfig.config).toList,
        config.bind TapsdkConfig.device⟩
  | .init config _ => ⟨sdk, world.successes ++ [config], world.device⟩
  | .setDevice device => ⟨sdk, world.successes, device⟩

def step (world : World ι) (call : Call ι) : World ι :=
  if (world.call call).1 then world.succeeded (world.call call).2 call
  else { world with sdk := (world.call call).2 }

end World

def system (ι : Type) : System (World ι) (Call ι) where
  init world := world = World.start
  step world call := some (world.step call)

end TapSdk.Sdk.Startup
