import TapSdk.Duration.ConfigResponse

/-!
# Malformed configurations

What becomes an error is what the constructor throws, and it reads its fields one after the other:
the first one that cannot be read decides. A field of the wrong type throws. A field that is missing
does not, and neither does a number that is out of range.
-/

namespace TapSdk.Duration

open Library Login

/-! ### Fields and their faults -/

inductive ConfigField where
  | enable
  | notapEnable
  | tapFrequency
  | notapFrequency
  | availableStartTs
  | serverTs
  deriving DecidableEq

namespace ConfigField

def key : ConfigField → String
  | enable => "enable"
  | notapEnable => "notap_enable"
  | tapFrequency => "tap_frequency"
  | notapFrequency => "notap_frequency"
  | availableStartTs => "available_start_ts"
  | serverTs => "server_ts"

/-- In the order of the constructor. -/
def all : List ConfigField :=
  [enable, notapEnable, tapFrequency, notapFrequency, availableStartTs, serverTs]

end ConfigField

inductive Fault where
  -- The field is not there.
  | missing
  -- The content is not an object, or the field is not of a type that converts.
  | mistyped
  -- The field is a floating-point number that its unsigned type cannot hold.
  | beyond
  deriving DecidableEq

def floatFault (library : Net.JsonLibrary) (limit : Int) (text : Bytes) : Option Fault :=
  if 0 ≤ wholePart library text ∧ wholePart library text < limit then none else some .beyond

def boolFault : Json → Option Fault
  | .boolean _ => none
  | _ => some .mistyped

def u32Fault (library : Net.JsonLibrary) : Json → Option Fault
  | .unsigned _ | .integer _ | .boolean _ => none
  | .float text => floatFault library u32Limit text
  | _ => some .mistyped

def u64Fault (library : Net.JsonLibrary) : Json → Option Fault
  | .unsigned _ | .integer _ => none
  | .float text => floatFault library u64Limit text
  | _ => some .mistyped

def valueFault (library : Net.JsonLibrary) : ConfigField → Json → Option Fault
  | .enable | .notapEnable => boolFault
  | .tapFrequency | .notapFrequency => u32Fault library
  | .availableStartTs | .serverTs => u64Fault library

def memberFault (json : Json) (key : String) (fault : Json → Option Fault) : Option Fault :=
  match json with
  | .object members =>
      match Net.lookup members (ascii key) with
      | some value => fault value
      | none => some .missing
  | _ => some .mistyped

/-- The fault of the first field that has one. -/
def firstFault (library : Net.JsonLibrary) (json : Json) : Option Fault :=
  ConfigField.all.findSome? fun field => memberFault json field.key (valueFault library field)

/-! ### What a fault does -/

section Matching

variable {α β : Type}

/-- The reading ends as the fault says: only a mistyped value throws. -/
def EndsBy (reading : Guarded α) : Option Fault → Prop
  | none => ∃ value, reading = pure value
  | some .mistyped => ∃ what, reading = throw what
  | some _ => reading = outsideContract

theorem pure_endsBy (value : α) : EndsBy (pure value) none := ⟨value, rfl⟩

theorem typeError_endsBy (id what : String) (json : Json) :
    EndsBy (typeError id what json : Guarded α) (some .mistyped) := ⟨_, rfl⟩

theorem castUnsigned_endsBy (library : Net.JsonLibrary) (limit : Int) (text : Bytes)
    (convert : Int → α) :
    EndsBy (convert <$> castUnsigned library limit text) (floatFault library limit text) := by
  unfold castUnsigned floatFault
  split
  · exact pure_endsBy (convert (wholePart library text))
  · rfl

theorem toBool_endsBy (json : Json) : EndsBy (toBool json) (boolFault json) := by
  cases json with
  | boolean value => exact pure_endsBy value
  | _ => exact typeError_endsBy _ _ _

theorem toU32_endsBy (library : Net.JsonLibrary) (json : Json) :
    EndsBy (toU32 library json) (u32Fault library json) := by
  cases json with
  | unsigned value => exact pure_endsBy _
  | integer value => exact pure_endsBy _
  | boolean value => exact pure_endsBy _
  | float text => exact castUnsigned_endsBy library u32Limit text UInt32.ofInt
  | _ => exact typeError_endsBy _ _ _

theorem toU64_endsBy (library : Net.JsonLibrary) (json : Json) :
    EndsBy (toU64 library json) (u64Fault library json) := by
  cases json with
  | unsigned value => exact pure_endsBy _
  | integer value => exact pure_endsBy _
  | float text => exact castUnsigned_endsBy library u64Limit text UInt64.ofInt
  | _ => exact typeError_endsBy _ _ _

theorem member_endsBy {convert : Json → Guarded α} {fault : Json → Option Fault}
    (hconvert : ∀ value, EndsBy (convert value) (fault value)) (json : Json) (key : String) :
    EndsBy (member json key convert) (memberFault json key fault) := by
  unfold member memberFault constIndex
  cases json with
  | object members =>
      cases hfound : Net.lookup members (ascii key) with
      | none =>
          simp only [hfound]
          rfl
      | some value =>
          simp only [hfound]
          exact hconvert value
  | _ => exact ⟨_, rfl⟩

/-- The first of two readings decides unless it succeeds. -/
theorem EndsBy.bind {reading : Guarded α} {rest : α → Guarded β} {fault next : Option Fault}
    (hreading : EndsBy reading fault) (hrest : ∀ value, EndsBy (rest value) next) :
    EndsBy (reading >>= rest) (fault.or next) := by
  cases fault with
  | none =>
      obtain ⟨value, rfl⟩ := hreading
      exact hrest value
  | some fault =>
      cases fault with
      | mistyped =>
          obtain ⟨what, rfl⟩ := hreading
          exact ⟨what, rfl⟩
      | missing =>
          obtain rfl : reading = outsideContract := hreading
          rfl
      | beyond =>
          obtain rfl : reading = outsideContract := hreading
          rfl

end Matching

theorem findSome?_cons_eq_or {α β : Type} (fault : α → Option β) (first : α) (rest : List α) :
    (first :: rest).findSome? fault = (fault first).or (rest.findSome? fault) := by
  rw [List.findSome?_cons]
  cases fault first <;> rfl

theorem firstFault_eq (library : Net.JsonLibrary) (json : Json) : firstFault library json
    = (memberFault json "enable" boolFault).or ((memberFault json "notap_enable" boolFault).or
      ((memberFault json "tap_frequency" (u32Fault library)).or
        ((memberFault json "notap_frequency" (u32Fault library)).or
          ((memberFault json "available_start_ts" (u64Fault library)).or
            ((memberFault json "server_ts" (u64Fault library)).or none))))) := by
  simp only [firstFault, ConfigField.all, findSome?_cons_eq_or, List.findSome?_nil, ConfigField.key,
    valueFault]

/-- The constructor ends as the first fault says. -/
theorem construct_endsBy (library : Net.JsonLibrary) (json : Json) :
    EndsBy (ServerConfig.construct library json) (firstFault library json) := by
  rw [firstFault_eq]
  refine (member_endsBy toBool_endsBy json "enable").bind fun enable => ?_
  refine (member_endsBy toBool_endsBy json "notap_enable").bind fun noTapEnable => ?_
  refine (member_endsBy (toU32_endsBy library) json "tap_frequency").bind fun tapFrequency => ?_
  refine (member_endsBy (toU32_endsBy library) json "notap_frequency").bind fun noTapFrequency => ?_
  refine (member_endsBy (toU64_endsBy library) json "available_start_ts").bind fun available => ?_
  refine (member_endsBy (toU64_endsBy library) json "server_ts").bind fun serverTs => ?_
  exact pure_endsBy _

/-! ### What the constructor builds -/

/-- Each of the six members is that of the configuration. -/
structure BuiltFrom (library : Net.JsonLibrary) (json : Json) (config : ServerConfig) : Prop where
  enable : member json "enable" toBool = pure config.enable
  noTapEnable : member json "notap_enable" toBool = pure config.noTapEnable
  tapFrequency : member json "tap_frequency" (toU32 library) = pure config.tapFrequency
  noTapFrequency : member json "notap_frequency" (toU32 library) = pure config.noTapFrequency
  availableStartTs : member json "available_start_ts" (toU64 library) = pure config.availableStartTs
  serverTs : member json "server_ts" (toU64 library) = pure config.serverTs

theorem bind_eq_pure {α β : Type} {reading : Guarded α} {rest : α → Guarded β} {result : β}
    (h : reading >>= rest = pure result) :
    ∃ value, reading = pure value ∧ rest value = pure result := by
  match reading, h with
  | some (.ok value), h => exact ⟨value, rfl, h⟩

theorem builtFrom_of_construct {library : Net.JsonLibrary} {json : Json} {config : ServerConfig}
    (h : ServerConfig.construct library json = pure config) : BuiltFrom library json config := by
  obtain ⟨enable, henable, h⟩ := bind_eq_pure h
  obtain ⟨noTapEnable, hnoTapEnable, h⟩ := bind_eq_pure h
  obtain ⟨tapFrequency, htapFrequency, h⟩ := bind_eq_pure h
  obtain ⟨noTapFrequency, hnoTapFrequency, h⟩ := bind_eq_pure h
  obtain ⟨availableStartTs, havailable, h⟩ := bind_eq_pure h
  obtain ⟨serverTs, hserverTs, h⟩ := bind_eq_pure h
  obtain rfl := Except.ok.inj (Option.some.inj h)
  exact ⟨henable, hnoTapEnable, htapFrequency, hnoTapFrequency, havailable, hserverTs⟩

/-! ### `MakeResult` -/

/-- A configuration built from all six fields or an error, and nothing outside a contract. -/
def Answers (library : Net.JsonLibrary) (json : Json) : Prop :=
  ∃ result, makeResult (ServerConfig.construct library) (.ok json) = some result
    ∧ ∀ config, result = .ok config → BuiltFrom library json config

theorem makeResult_ok {α : Type} (construct : Json → Guarded α) (json : Json) :
    makeResult construct (.ok json)
      = (construct json).run.map fun made => Net.makeResult (fun _ => made) (.ok json) := rfl

theorem not_answers_of_outsideContract {library : Net.JsonLibrary} {json : Json}
    (h : ServerConfig.construct library json = outsideContract) : ¬ Answers library json := by
  rintro ⟨result, hresult, -⟩
  rw [makeResult_ok, h] at hresult
  cases hresult

/-- What the server sends becomes a configuration or an error exactly when the first fault, if there
is one, is that of a value of the wrong type. -/
theorem answers_iff_firstFault_throws (library : Net.JsonLibrary) (json : Json) :
    Answers library json ↔
      firstFault library json = none ∨ firstFault library json = some .mistyped := by
  have hends := construct_endsBy library json
  cases hfault : firstFault library json with
  | none =>
      rw [hfault] at hends
      obtain ⟨config, hconfig⟩ := hends
      refine iff_of_true ⟨.ok config, ?_, ?_⟩ (.inl rfl)
      · rw [makeResult_ok, hconfig]
        rfl
      · intro other hother
        obtain rfl := Except.ok.inj hother
        exact builtFrom_of_construct hconfig
  | some fault =>
      rw [hfault] at hends
      cases fault with
      | mistyped =>
          obtain ⟨what, hwhat⟩ := hends
          refine iff_of_true ⟨.error ⟨200, -1, what⟩, ?_, ?_⟩ (.inr rfl)
          · rw [makeResult_ok, hwhat]
            rfl
          · intro config hconfig
            cases hconfig
      | missing => exact iff_of_false (not_answers_of_outsideContract hends) (by decide)
      | beyond => exact iff_of_false (not_answers_of_outsideContract hends) (by decide)

/-- A value of the wrong type hides the fields after it, whether they are there or not. -/
example (library : Net.JsonLibrary) :
    firstFault library (.object [(ascii "enable", .null)]) = some .mistyped
      ∧ firstFault library (.object [(ascii "enable", .boolean true)]) = some .missing := ⟨rfl, rfl⟩

/-- An object without any of the fields. -/
theorem empty_config_outside_contract :
    ¬ ∀ (library : Net.JsonLibrary) (json : Json), Answers library json := by
  intro hanswers
  exact not_answers_of_outsideContract rfl
    (hanswers ⟨fun _ => none, fun _ => 0, fun _ => 0⟩ (.object []))

end TapSdk.Duration
