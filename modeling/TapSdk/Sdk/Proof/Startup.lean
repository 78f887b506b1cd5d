import TapSdk.Sdk.Startup

/-!
# What a failed start leaves behind

`Init` stores the configuration before it looks whether the SDK has been started, and marks it as
started before anything can fail; `tapsdk_init` replaces the device before either. Only a call that
is refused for its arguments, or one that sets what is set already, leaves things as they were.
-/

namespace TapSdk.Sdk.Startup

open Library

variable {ι : Type}

/-! ### The settings -/

structure Settings (ι : Type) where
  config : Config
  device : Option (Device ι)
  inited : Bool

namespace Globals

def settings (sdk : Globals ι) : Settings ι := ⟨sdk.sdkConfig, sdk.currentDevice, sdk.inited⟩

theorem settings_initTracker (sdk : Globals ι) (env : InitEnv) :
    (sdk.initTracker env).2.settings = sdk.settings := by
  unfold initTracker
  split
  · split <;> rfl
  · rfl

theorem settings_initLogin (sdk : Globals ι) (env : InitEnv) :
    (sdk.initLogin env).2.settings = sdk.settings := by
  unfold initLogin
  split
  · split
    · rfl
    · exact settings_initTracker _ env
  · exact settings_initTracker _ env

theorem settings_initDuration (sdk : Globals ι) (device : Device ι) (env : InitEnv) :
    (sdk.initDuration device env).2.settings = sdk.settings := by
  unfold initDuration
  split
  · dsimp only
    split
    · exact settings_initLogin _ env
    · rfl
  · exact settings_initLogin _ env

/-- Whatever `Init` returns, it has stored the configuration, and the SDK counts as started. -/
theorem settings_init (sdk : Globals ι) (config : Config) (env : InitEnv) :
    (sdk.init config env).2.settings = ⟨config, sdk.currentDevice, true⟩ := by
  unfold init
  cases hinited : sdk.inited with
  | true =>
      rw [if_pos rfl]
      simp only [settings]
  | false =>
      rw [if_neg (by decide)]
      dsimp only
      split
      · rfl
      · split
        · rfl
        · rw [settings_initDuration]
          rfl

/-! ### Success -/

/-- There is a device, and no module that is enabled fails. -/
def ModulesStart (device : Option (Device ι)) (config : Config) (env : InitEnv) : Prop :=
  env.runtimeThrows = false ∧ ∃ found, device = some found
    ∧ (config.enableDurationStatistics = true → durationInits config found env = true)
    ∧ (config.enableTapLogin = true → env.loginThrows = false)
    ∧ (config.enableTapTracker = true → env.trackerThrows = false)

theorem initTracker_iff (sdk : Globals ι) (env : InitEnv) : (sdk.initTracker env).1 = true
    ↔ (sdk.sdkConfig.enableTapTracker = true → env.trackerThrows = false) := by
  unfold initTracker
  cases sdk.sdkConfig.enableTapTracker <;> cases env.trackerThrows <;> simp

theorem initLogin_iff (sdk : Globals ι) (env : InitEnv) : (sdk.initLogin env).1 = true
    ↔ (sdk.sdkConfig.enableTapLogin = true → env.loginThrows = false)
      ∧ (sdk.sdkConfig.enableTapTracker = true → env.trackerThrows = false) := by
  unfold initLogin
  cases hlogin : sdk.sdkConfig.enableTapLogin <;> cases env.loginThrows <;>
    simp [initTracker_iff]

theorem initDuration_iff (sdk : Globals ι) (device : Device ι) (env : InitEnv) :
    (sdk.initDuration device env).1 = true
      ↔ (sdk.sdkConfig.enableDurationStatistics = true →
          durationInits sdk.sdkConfig device env = true)
        ∧ (sdk.sdkConfig.enableTapLogin = true → env.loginThrows = false)
        ∧ (sdk.sdkConfig.enableTapTracker = true → env.trackerThrows = false) := by
  unfold initDuration
  cases hduration : sdk.sdkConfig.enableDurationStatistics <;>
    cases hinits : durationInits sdk.sdkConfig device env <;> simp [initLogin_iff]

theorem init_iff (sdk : Globals ι) (config : Config) (env : InitEnv) :
    (sdk.init config env).1 = true
    ↔ sdk.inited = false ∧ ModulesStart sdk.currentDevice config env := by
  unfold init ModulesStart
  cases hinited : sdk.inited with
  | true => simp
  | false =>
      cases hruntime : env.runtimeThrows with
      | true => simp
      | false =>
          cases hdevice : sdk.currentDevice with
          | none => simp
          | some device => simp [initDuration_iff]

theorem init_fails_iff (sdk : Globals ι) (config : Config) (env : InitEnv) :
    (sdk.init config env).1 = false
      ↔ sdk.inited = true ∨ ¬ ModulesStart sdk.currentDevice config env := by
  rw [← Bool.not_eq_true, init_iff, not_and_or, Bool.not_eq_false]

/-- A failed `Init` changes nothing only where it finds the SDK started with the same
configuration. -/
theorem init_keeps_iff (sdk : Globals ι) (config : Config) (env : InitEnv) :
    ((sdk.init config env).1 = false → (sdk.init config env).2.settings = sdk.settings)
      ↔ (if sdk.inited then config = sdk.sdkConfig
        else ModulesStart sdk.currentDevice config env) := by
  rw [settings_init, init_fails_iff]
  unfold settings
  cases hinited : sdk.inited with
  | true => simp
  | false => simp

theorem tapsdkInit_accepted (sdk : Globals ι) {config : TapsdkConfig ι} {device : Device ι}
    (h : acceptedDevice config = some device) (env : InitEnv) :
    (sdk.tapsdkInit (some config) env).1
        = ({ sdk with currentDevice := some device }.init config.config env).1
      ∧ (sdk.tapsdkInit (some config) env).2.settings
        = ({ sdk with currentDevice := some device }.init config.config env).2.settings := by
  simp only [tapsdkInit, h]
  generalize { sdk with currentDevice := some device }.init config.config env = result
  obtain ⟨success, after⟩ := result
  cases success <;> exact ⟨rfl, rfl⟩

end Globals

/-! ### Calls -/

/-- What a call must find to leave the settings as they are or to succeed: it is refused for its
arguments, or the SDK has been started and the call sets what is set already, or no module fails. -/
def Harmless (world : World ι) : Call ι → Prop
  | .tapsdkInit none _ => True
  | .tapsdkInit (some config) env =>
      match Globals.acceptedDevice config with
      | none => True
      | some device =>
          if world.sdk.inited then
            config.config = world.sdk.sdkConfig ∧ some device = world.sdk.currentDevice
          else Globals.ModulesStart (some device) config.config env
  | .init config env =>
      if world.sdk.inited then config = world.sdk.sdkConfig
      else Globals.ModulesStart world.sdk.currentDevice config env
  | .setDevice _ => True

/-- A call that does not report success leaves the configuration, the device and the flag. -/
def Keeps (world : World ι) (call : Call ι) : Prop :=
  (world.call call).1 = false → (world.call call).2.settings = world.sdk.settings

theorem keeps_iff_harmless (world : World ι) (call : Call ι) :
    Keeps world call ↔ Harmless world call := by
  cases call with
  | setDevice device => exact iff_of_true (fun h => Bool.noConfusion h) trivial
  | init config env => exact Globals.init_keeps_iff world.sdk config env
  | tapsdkInit config env =>
      cases config with
      | none => exact iff_of_true (fun _ => rfl) trivial
      | some config =>
          simp only [Keeps, Harmless, World.call]
          cases haccepted : Globals.acceptedDevice config with
          | none =>
              refine iff_of_true (fun _ => ?_) trivial
              simp only [Globals.tapsdkInit, haccepted]
          | some device =>
              obtain ⟨hsuccess, hsettings⟩ := Globals.tapsdkInit_accepted world.sdk haccepted env
              rw [hsuccess, hsettings, Globals.settings_init, Globals.init_fails_iff]
              simp only [Globals.settings]
              cases hinited : world.sdk.inited with
              | true => simp
              | false => simp

/-! ### Runs -/

/-- The device is the one set last. Until a call has succeeded the SDK can be started; then the
settings are those of that call, and there is no other. -/
structure InForce (world : World ι) : Prop where
  device : world.sdk.currentDevice = world.device
  config : (world.successes = [] ∧ world.sdk.inited = false ∧ world.sdk.sdkConfig = .default)
    ∨ ∃ config, world.successes = [config] ∧ world.sdk.inited = true ∧ world.sdk.sdkConfig = config
  retry : world.successes = [] → ∀ config env,
    Globals.ModulesStart world.sdk.currentDevice config env → (world.sdk.init config env).1 = true

theorem inForce_start : InForce (World.start : World ι) where
  device := rfl
  config := Or.inl ⟨rfl, rfl, rfl⟩
  retry _ config env hstart := (Globals.init_iff _ config env).mpr ⟨rfl, hstart⟩

theorem InForce.of_settings {world : World ι} (h : InForce world) {sdk : Globals ι}
    (hsettings : sdk.settings = world.sdk.settings) : InForce { world with sdk := sdk } := by
  obtain ⟨hconfig, hdevice, hinited⟩ := Settings.mk.inj hsettings
  refine ⟨hdevice.trans h.device, ?_, fun hnone config env hstart => ?_⟩
  · change (_ ∧ sdk.inited = false ∧ sdk.sdkConfig = _) ∨ ∃ config, _ ∧ sdk.inited = true ∧ _
    rw [hinited, hconfig]
    exact h.config
  · have hretry := h.retry hnone config env (hdevice ▸ hstart)
    rw [Globals.init_iff] at hretry ⊢
    exact ⟨hinited.trans hretry.1, hstart⟩

theorem InForce.of_success {world : World ι} (h : InForce world) {sdk : Globals ι} {config : Config}
    {device : Option (Device ι)} (hstarts : world.sdk.inited = false)
    (hsettings : sdk.settings = ⟨config, device, true⟩) :
    InForce ⟨sdk, world.successes ++ [config], device⟩ := by
  obtain ⟨hconfig, hdevice, hinited⟩ := Settings.mk.inj hsettings
  have hnone : world.successes = [] := by
    rcases h.config with ⟨hnone, -, -⟩ | ⟨other, -, hother, -⟩
    · exact hnone
    · rw [hstarts] at hother
      cases hother
  refine ⟨hdevice, Or.inr ⟨config, ?_, hinited, hconfig⟩, fun hempty => ?_⟩
  · rw [hnone]
    rfl
  · exact absurd hempty (by simp)

theorem acceptedDevice_eq {config : TapsdkConfig ι} {device : Device ι}
    (h : Globals.acceptedDevice config = some device) : config.device = some device := by
  unfold Globals.acceptedDevice at h
  split at h
  · cases h
  · rename_i found hfound
    split at h
    · cases h
    · split at h
      · cases h
      · rw [hfound, h]

theorem InForce.step {world : World ι} (h : InForce world) {call : Call ι}
    (hharmless : Harmless world call) : InForce (world.step call) := by
  unfold World.step
  split
  · rename_i hsuccess
    cases call with
    | setDevice device =>
        refine ⟨rfl, h.config, fun hnone config env hstart => ?_⟩
        rcases h.config with ⟨-, hinited, -⟩ | ⟨other, hother, -, -⟩
        · exact (Globals.init_iff _ config env).mpr ⟨hinited, hstart⟩
        · exact absurd hnone (by simp [World.succeeded, hother])
    | init config env =>
        have hstarts := (Globals.init_iff world.sdk config env).mp hsuccess
        have hsettings := Globals.settings_init world.sdk config env
        rw [h.device] at hsettings
        exact h.of_success hstarts.1 hsettings
    | tapsdkInit config env =>
        cases config with
        | none => cases hsuccess
        | some config =>
            cases haccepted : Globals.acceptedDevice config with
            | none =>
                simp only [World.call, Globals.tapsdkInit, haccepted] at hsuccess
                cases hsuccess
            | some device =>
                obtain ⟨hreports, hsettings⟩ := Globals.tapsdkInit_accepted world.sdk haccepted env
                rw [Globals.settings_init] at hsettings
                have hstarts := (Globals.init_iff _ config.config env).mp (hreports ▸ hsuccess)
                have hforce := h.of_success hstarts.1 hsettings
                rw [← acceptedDevice_eq haccepted] at hforce
                exact hforce
  · rename_i hfails
    have hkeeps := (keeps_iff_harmless world call).mpr hharmless
    exact h.of_settings (hkeeps (Bool.of_not_eq_true hfails))

/-- In a run every call that fails leaves the settings exactly when each finds what makes it
harmless; the settings in force are then those of the one call that succeeded. -/
theorem failed_init_keeps_iff (calls : List (Call ι)) :
    ((system ι).AlongSteps Keeps World.start calls
      ↔ (system ι).AlongSteps Harmless World.start calls)
    ∧ ((system ι).AlongSteps Harmless World.start calls →
        (system ι).Along InForce World.start calls) := by
  constructor
  · have hiff : @Keeps ι = Harmless := by
      funext world call
      exact propext (keeps_iff_harmless world call)
    rw [hiff]
  · intro hharmless
    refine hharmless.along (fun _ h => h) (fun world call next h hmeets hstep => ?_) inForce_start
    obtain rfl := Option.some.inj hstep
    exact h.step hmeets

/-- Without a device `Init` fails, and the SDK counts as started. -/
theorem failed_init_marks_started :
    ¬ ∀ calls : List (Call Unit), (system Unit).AlongSteps Keeps World.start calls := by
  intro hall
  have hkeeps := (hall [.init .default ⟨false, false, false, false⟩] _ rfl).1
  exact absurd (congrArg Settings.inited (hkeeps rfl)) (by decide)

end TapSdk.Sdk.Startup
