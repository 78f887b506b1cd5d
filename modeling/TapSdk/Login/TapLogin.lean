import Mathlib.Data.List.Basic
import TapSdk.Library.Json

/-!
# Logging in

`login/tap_login.cpp`, with what it uses of `net/httpclient.h`, `net/coro_httpclient.cpp` and
`sdk/result.h`. A request is answered by a response of any status and transport error, or it throws.
The JSON library is behind `JsonReader`; how a body is unwrapped is a member of the client, as in
the source.
-/

namespace TapSdk.Login

open Library

/-! ### Requests -/

namespace Net

structure Error where
  status : Int
  code : Int
  msg : Bytes
  deriving DecidableEq

abbrev Result (α : Type) := Except Error α

structure ResultWrapper where
  code : Int
  msg : Bytes
  content : Json

/-- What the HTTP library returns: `net_err` is its value and its message. -/
structure RespData where
  status : Int
  netErr : Int
  netErrMessage : Bytes
  respBody : Bytes

structure TapHttpClient where
  unwrapResult : Bytes → ResultWrapper

/-- `RequestAsync`, from the response on. The body of a failure is taken as a C string. -/
def TapHttpClient.requestAsync (client : TapHttpClient) (value : RespData) : Result Json :=
  if value.status = 200 then
    let tapRes := client.unwrapResult value.respBody
    if tapRes.code = 0 then .ok tapRes.content else .error ⟨200, tapRes.code, tapRes.msg⟩
  else
    .error ⟨value.status, value.netErr,
      if value.respBody ≠ [] then value.respBody.takeWhile (· ≠ 0) else value.netErrMessage⟩

/-- `MakeResult`; the constructor of the result may throw. -/
def makeResult {α : Type} (construct : Json → Except Bytes α) (res : Result Json) : Result α :=
  match res with
  | .error error => .error error
  | .ok json =>
      match construct json with
      | .ok value => .ok value
      | .error what => .error ⟨200, -1, what⟩

def TapHttpClient.postAsync {α : Type} (client : TapHttpClient)
    (construct : Json → Except Bytes α) (value : RespData) : Result α :=
  makeResult construct (client.requestAsync value)

def toContent (forms : List (Bytes × Bytes)) : Bytes :=
  (ascii "&").intercalate (forms.map fun (key, value) => key ++ ascii "=" ++ value)

/-- One round of the loop of `ToParam`, on the text so far and on `first`. -/
def appendParam (state : Bytes × Bool) (param : Bytes × Bytes) : Bytes × Bool :=
  (state.1 ++ (if state.2 then ascii "?" else ascii "&")
    ++ (param.1 ++ ascii "=" ++ param.2), false)

def toParam (params : List (Bytes × Bytes)) : Bytes := (params.foldl appendParam ([], true)).1

end Net

/-! ### Models -/

/-- The JSON library: a member of a constant object, and two conversions. -/
structure JsonReader where
  member : Json → Bytes → Except Bytes Json
  string : Json → Except Bytes Bytes
  integer : Json → Except Bytes Int64

structure QrCodeResponse where
  qrcodeUrl : Bytes
  verificationUrl : Bytes
  deviceCode : Bytes
  userCode : Bytes
  expiresIn : Int64
  interval : Int64

def QrCodeResponse.construct (reader : JsonReader) (json : Json) : Except Bytes QrCodeResponse := do
  let qrcodeUrl ← reader.string (← reader.member json (ascii "qrcode_url"))
  let verificationUrl ← reader.string (← reader.member json (ascii "verification_url"))
  let deviceCode ← reader.string (← reader.member json (ascii "device_code"))
  let userCode ← reader.string (← reader.member json (ascii "user_code"))
  let expiresIn ← reader.integer (← reader.member json (ascii "expires_in"))
  let interval ← reader.integer (← reader.member json (ascii "interval"))
  return ⟨qrcodeUrl, verificationUrl, deviceCode, userCode, expiresIn, interval⟩

structure AccessToken where
  kid : Bytes
  deriving DecidableEq

/-- `InnerAccessToken`, which reads nothing of the JSON. -/
def AccessToken.construct (_ : Json) : Except Bytes AccessToken := .ok ⟨[]⟩

/-! ### `LoginAsync` -/

/-- One round of the loop: the time in seconds at its condition, the response to the token request,
and whether the window has been cancelled after the pause. -/
structure Round where
  now : UInt64
  token : Bytes → Option Net.RespData
  canceled : Bool

/-- What a login finds, in the order in which it asks. A request without a response has thrown. -/
structure LoginEnv where
  -- The id of the current device.
  device : Option Bytes
  -- The id of the current game.
  game : Option Bytes
  qrcode : Bytes → Option Net.RespData
  window : Bool
  startTime : UInt64
  rounds : List Round

section Login

variable (client : Net.TapHttpClient) (reader : JsonReader)

/-- The loop until the code expires; nothing when a request throws, or when there are no more
rounds. -/
def checkState (forms : Bytes) (startTime expiresIn : UInt64) :
    List Round → Option (Net.Result AccessToken)
  | [] => none
  | round :: rest =>
      if round.now - startTime < expiresIn then
        match round.token forms with
        | none => none
        | some value =>
            match client.postAsync AccessToken.construct value with
            | .ok token => some (.ok token)
            | .error _ =>
                if round.canceled then some (.error ⟨-1, -1, ascii "Canceled!"⟩)
                else checkState forms startTime expiresIn rest
      else some (.error ⟨-1, -1, ascii "Timeout!"⟩)

def loginForms (game info : Bytes) : List (Bytes × Bytes) :=
  [(ascii "client_id", game), (ascii "response_type", ascii "device_code"),
    (ascii "version", ascii "device_code"), (ascii "platform", ascii "ue"),
    (ascii "device_id", info)]

/-- `LoginAsync`: what the coroutine returns, if it does. -/
def loginAsync (env : LoginEnv) : Option (Net.Result AccessToken) :=
  match env.device, env.game with
  | none, _ => some (.error ⟨-1, -1, ascii "No Device Info!"⟩)
  | some _, none => some (.error ⟨-1, -1, ascii "No Game Info!"⟩)
  | some device, some game =>
      match (Json.ofFields [(ascii "device_id", .string device)]).dump with
      | none => none
      | some info =>
          let forms := Net.toContent (loginForms game info)
          match env.qrcode forms with
          | none => none
          | some value =>
              match client.postAsync (QrCodeResponse.construct reader) value with
              | .error error => some (.error error)
              | .ok qrcode =>
                  if env.window = false then
                    some (.error ⟨-1, -1, ascii "No window!, is current background?"⟩)
                  else
                    checkState client forms env.startTime qrcode.expiresIn.toUInt64 env.rounds

/-! ### `Login` -/

def noErr : Int := 0

structure Error where
  code : Int
  msg : Bytes
  deriving DecidableEq

/-- `Result<AccessToken>`. -/
structure Result where
  value : Option AccessToken
  error : Error
  deriving DecidableEq

def Result.ofValue (value : AccessToken) : Result := ⟨some value, ⟨noErr, []⟩⟩

def Result.ofError (error : Error) : Result := ⟨none, error⟩

def Result.success (result : Result) : Bool := result.error.code ≠ noErr

/-- The callback of `Login`: what it sets the future to. -/
def futureResult : Net.Result AccessToken → Result
  | .ok token => .ofValue token
  | .error error => .ofError ⟨error.code, error.msg⟩

def login (env : LoginEnv) : Option Result := (loginAsync client reader env).map futureResult

end Login

end TapSdk.Login
