import TapSdk.Duration.Model
import TapSdk.Login.Unwrap

/-!
# The configuration as the server sends it

The constructor of `ReportConfig` from JSON in `duration/dur_model.cpp`, and `MakeResult` of
`net/httpclient.h` around it. The constructor has a constant value before it: `operator[]` of a
constant object asserts that the name is there, throws nothing when it is not, and goes on to
dereference the end of the map. A cast of a floating-point number to an integer type that cannot
hold it is outside its contract in the same way.
-/

namespace TapSdk.Duration

open Library Login

/-- `ReportConfig` with `server_ts`, which is not stored. -/
structure ServerConfig extends ReportConfig where
  serverTs : UInt64
  deriving DecidableEq

/-- What may throw, with what the exception says. It is nothing once an operation has been used
outside its contract. -/
abbrev Guarded (α : Type) := ExceptT Bytes Option α

def outsideContract {α : Type} : Guarded α := ExceptT.mk none

/-! ### The JSON library -/

def typeName : Json → Bytes
  | .null => ascii "null"
  | .object _ => ascii "object"
  | .array _ => ascii "array"
  | .string _ => ascii "string"
  | .boolean _ => ascii "boolean"
  | .unsigned _ | .integer _ | .float _ => ascii "number"

def typeError {α : Type} (id what : String) (json : Json) : Guarded α :=
  throw (ascii "[json.exception.type_error." ++ ascii id ++ ascii "] " ++ ascii what
    ++ typeName json)

/-- `operator[]` of a constant value. -/
def constIndex (json : Json) (key : Bytes) : Guarded Json :=
  match json with
  | .object members =>
      match Net.lookup members key with
      | some value => pure value
      | none => outsideContract
  | json => typeError "305" "cannot use operator[] with a string argument with " json

def toBool : Json → Guarded Bool
  | .boolean value => pure value
  | json => typeError "302" "type must be boolean, but is " json

/-- The whole part of a floating-point number. -/
def wholePart (library : Net.JsonLibrary) (text : Bytes) : Int :=
  (library.floatValue text).num.tdiv (library.floatValue text).den

/-- `static_cast` of a floating-point number to an unsigned type. -/
def castUnsigned (library : Net.JsonLibrary) (limit : Int) (text : Bytes) : Guarded Int :=
  if 0 ≤ wholePart library text ∧ wholePart library text < limit then pure (wholePart library text)
  else outsideContract

def u32Limit : Int := 4294967296

def u64Limit : Int := 18446744073709551616

/-- The conversion to an arithmetic type that is not one of the library's own. -/
def toU32 (library : Net.JsonLibrary) : Json → Guarded UInt32
  | .unsigned value => pure value.toUInt32
  | .integer value => pure (UInt32.ofInt value)
  | .float text => UInt32.ofInt <$> castUnsigned library u32Limit text
  | .boolean value => pure (if value then 1 else 0)
  | json => typeError "302" "type must be number, but is " json

/-- The conversion to `number_unsigned_t`, which takes no boolean. -/
def toU64 (library : Net.JsonLibrary) : Json → Guarded UInt64
  | .unsigned value => pure value
  | .integer value => pure (UInt64.ofInt value)
  | .float text => UInt64.ofInt <$> castUnsigned library u64Limit text
  | json => typeError "302" "type must be number, but is " json

/-! ### The constructor -/

/-- `json[key]`, converted to the type of what it is assigned to. -/
def member {α : Type} (json : Json) (key : String) (convert : Json → Guarded α) : Guarded α :=
  constIndex json (ascii key) >>= convert

def ServerConfig.construct (library : Net.JsonLibrary) (json : Json) : Guarded ServerConfig := do
  let enable ← member json "enable" toBool
  let noTapEnable ← member json "notap_enable" toBool
  let tapFrequency ← member json "tap_frequency" (toU32 library)
  let noTapFrequency ← member json "notap_frequency" (toU32 library)
  let availableStartTs ← member json "available_start_ts" (toU64 library)
  let serverTs ← member json "server_ts" (toU64 library)
  return ⟨⟨0, enable, noTapEnable, tapFrequency, noTapFrequency, availableStartTs⟩, serverTs⟩

/-- `MakeResult`, which catches what the constructor throws. -/
def makeResult {α : Type} (construct : Json → Guarded α) (res : Net.Result Json) :
    Option (Net.Result α) :=
  match res with
  | .error error => some (.error error)
  | .ok json => (construct json).run.map fun made => Net.makeResult (fun _ => made) (.ok json)

end TapSdk.Duration
