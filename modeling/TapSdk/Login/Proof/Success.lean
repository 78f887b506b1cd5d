import TapSdk.Login.TapLogin

/-!
# What a login reports

The outcome of the requests passes through three results before a caller can ask for it:
`RequestAsync` turns a response into a `net::Error`, `LoginAsync` returns it or an error of its own,
and `Login` keeps its code. `Success()` then reads that code, the wrong way round. A second loss is
on the way: a response with a failing status and no transport error makes an error whose code is
`NO_ERR`.
-/

namespace TapSdk.Login

open Library

/-! ### The code of an error -/

namespace Net

variable {client : TapHttpClient} {value : RespData} {error : Error}

/-- A failure has no code when the transport gave none. A failing tap code is never zero. -/
theorem requestAsync_code (h : client.requestAsync value = .error error) :
    error.code = 0 ↔ value.status ≠ 200 ∧ value.netErr = 0 := by
  unfold TapHttpClient.requestAsync at h
  by_cases hstatus : value.status = 200
  · simp only [hstatus, if_true] at h
    by_cases hcode : (client.unwrapResult value.respBody).code = 0
    · rw [if_pos hcode] at h
      cases h
    · rw [if_neg hcode] at h
      cases h
      simp [hstatus, hcode]
  · rw [if_neg hstatus] at h
    cases h
    simp [hstatus]

theorem requestAsync_status {json : Json} (h : client.requestAsync value = .ok json) :
    value.status = 200 := by
  by_contra hstatus
  unfold TapHttpClient.requestAsync at h
  rw [if_neg hstatus] at h
  cases h

variable {α : Type} {construct : Json → Except Bytes α}

theorem postAsync_code (h : client.postAsync construct value = .error error) :
    error.code = 0 ↔ value.status ≠ 200 ∧ value.netErr = 0 := by
  unfold TapHttpClient.postAsync at h
  cases hrequest : client.requestAsync value with
  | error failed =>
      rw [hrequest] at h
      cases h
      exact requestAsync_code hrequest
  | ok json =>
      rw [hrequest, makeResult] at h
      cases hconstruct : construct json with
      | ok built =>
          rw [hconstruct] at h
          cases h
      | error what =>
          rw [hconstruct] at h
          cases h
          simp [requestAsync_status hrequest]

theorem postAsync_status {built : α} (h : client.postAsync construct value = .ok built) :
    value.status = 200 := by
  unfold TapHttpClient.postAsync at h
  cases hrequest : client.requestAsync value with
  | error failed =>
      rw [hrequest] at h
      cases h
  | ok json => exact requestAsync_status hrequest

end Net

variable {client : Net.TapHttpClient} {reader : JsonReader} {env : LoginEnv}
  {returned : Net.Result AccessToken} {error : Net.Error}

/-- The loop drops the errors of its requests: it fails by cancelling or by timeout. -/
theorem checkState_code {forms : Bytes} {startTime expiresIn : UInt64} {rounds : List Round}
    (h : checkState client forms startTime expiresIn rounds = some (.error error)) :
    error.code = -1 := by
  induction rounds with
  | nil => cases h
  | cons round rest ih =>
      simp only [checkState] at h
      split at h
      · cases htoken : round.token forms with
        | none =>
            rw [htoken] at h
            cases h
        | some value =>
            rw [htoken] at h
            cases hpost : client.postAsync AccessToken.construct value with
            | ok token =>
                simp only [hpost] at h
                cases h
            | error failed =>
                simp only [hpost] at h
                split at h
                · cases h
                  rfl
                · exact ih h
      · cases h
        rfl

/-- The response to the device-code request, when the login makes it and it does not throw. -/
def qrcodeResponse (env : LoginEnv) : Option Net.RespData := do
  let device ← env.device
  let game ← env.game
  let info ← (Json.ofFields [(ascii "device_id", .string device)]).dump
  env.qrcode (Net.toContent (loginForms game info))

/-- The ways a login fails: before the device-code request, with the error of that request, or after
a device code has been received. -/
theorem loginAsync_error (h : loginAsync client reader env = some (.error error)) :
    (qrcodeResponse env = none ∧ error.code = -1) ∨
      ∃ value, qrcodeResponse env = some value ∧
        (client.postAsync (QrCodeResponse.construct reader) value = .error error ∨
          value.status = 200 ∧ error.code = -1) := by
  unfold loginAsync at h
  unfold qrcodeResponse
  cases hdevice : env.device with
  | none =>
      simp only [hdevice] at h
      cases h
      exact Or.inl ⟨rfl, rfl⟩
  | some device =>
      cases hgame : env.game with
      | none =>
          simp only [hdevice, hgame] at h
          cases h
          exact Or.inl ⟨rfl, rfl⟩
      | some game =>
          simp only [hdevice, hgame] at h
          cases hinfo : (Json.ofFields [(ascii "device_id", .string device)]).dump with
          | none =>
              simp only [hinfo] at h
              cases h
          | some info =>
              simp only [hinfo] at h
              cases hvalue : env.qrcode (Net.toContent (loginForms game info)) with
              | none =>
                  simp only [hvalue] at h
                  cases h
              | some value =>
                  simp only [hvalue] at h
                  refine Or.inr ⟨value, by simp [hinfo, hvalue], ?_⟩
                  cases hpost : client.postAsync (QrCodeResponse.construct reader) value with
                  | error failed =>
                      simp only [hpost] at h
                      cases h
                      exact Or.inl rfl
                  | ok qrcode =>
                      simp only [hpost] at h
                      refine Or.inr ⟨Net.postAsync_status hpost, ?_⟩
                      split at h
                      · cases h
                        rfl
                      · exact checkState_code h

/-- The only failure without a code: the device-code request is answered with a failing status and
no transport error. -/
theorem loginAsync_code (h : loginAsync client reader env = some (.error error)) :
    error.code = noErr ↔
      ∃ value, qrcodeResponse env = some value ∧ value.status ≠ 200 ∧ value.netErr = 0 := by
  unfold noErr
  rcases loginAsync_error h with ⟨hnone, hcode⟩ | ⟨value, hvalue, hpost | ⟨hstatus, hcode⟩⟩
  · simp [hnone, hcode]
  · simp [hvalue, Net.postAsync_code hpost]
  · simp [hvalue, hstatus, hcode]

/-! ### Success -/

/-- What a result should say of the outcome it is made from. -/
def Reports (returned : Net.Result AccessToken) (result : Result) : Prop :=
  (result.success = true ↔ ∃ token, returned = .ok token) ∧
    ∀ error, returned = .error error → result.error.code ≠ noErr

theorem Result.success_iff {result : Result} :
    result.success = true ↔ result.error.code ≠ noErr :=
  decide_eq_true_iff

theorem futureResult_success_iff : (futureResult returned).success = true ↔
    ∃ error, returned = .error error ∧ error.code ≠ noErr := by
  rw [Result.success_iff]
  cases returned with
  | ok token => simp [futureResult, Result.ofValue]
  | error error => simp [futureResult, Result.ofError]

/-- A token is reported as a failure and a failure with a code as a success. What is left is a
failure without a code. -/
theorem reports_success_iff :
    ((futureResult returned).success = true ↔ ∃ token, returned = .ok token) ↔
      ∃ error, returned = .error error ∧ error.code = noErr := by
  rw [futureResult_success_iff]
  cases returned with
  | ok token => simp
  | error error => simp

/-- No login reports its outcome, whatever the answers are. -/
theorem login_misreports (h : loginAsync client reader env = some returned) :
    login client reader env = some (futureResult returned) ∧
      ¬Reports returned (futureResult returned) := by
  refine ⟨by rw [login, h, Option.map_some], fun ⟨hsuccess, hfailure⟩ => ?_⟩
  obtain ⟨error, herror, hcode⟩ := reports_success_iff.mp hsuccess
  apply hfailure error herror
  rw [herror]
  exact hcode

/-- What the library does with the device code below. -/
def sampleReader : JsonReader where
  member json key :=
    match json with
    | .object members =>
        match members.find? fun (name, _) => name = key with
        | some (_, value) => .ok value
        | none => .error (ascii "key not found")
    | _ => .error (ascii "cannot use operator[] with a string argument")
  string
    | .string bytes => .ok bytes
    | _ => .error (ascii "type must be string")
  integer
    | .unsigned value => .ok value.toInt64
    | .integer value => .ok (Int64.ofInt value)
    | _ => .error (ascii "type must be number")

/-- Every body but an empty one is the device code. -/
def sampleClient : Net.TapHttpClient where
  unwrapResult body :=
    if body = [] then ⟨-1, ascii "Invalid response!", .null⟩
    else ⟨0, [], .object [(ascii "qrcode_url", .string (ascii "q")),
      (ascii "verification_url", .string (ascii "v")), (ascii "device_code", .string (ascii "d")),
      (ascii "user_code", .string (ascii "u")), (ascii "expires_in", .unsigned 60),
      (ascii "interval", .unsigned 5)]⟩

/-- A login whose device-code request is answered by `value`, and its first token request by a
token. -/
def answered (value : Net.RespData) : LoginEnv where
  device := some (ascii "device")
  game := some (ascii "game")
  qrcode _ := some value
  window := true
  startTime := 1000
  rounds := [⟨1000, fun _ => some ⟨200, 0, [], ascii "token"⟩, false⟩]

/-- A device-code request answered with a failing status and no transport error. -/
theorem login_misreports_badGateway :
    login sampleClient sampleReader (answered ⟨502, 0, [], ascii "Bad Gateway"⟩)
        = some ⟨none, ⟨noErr, ascii "Bad Gateway"⟩⟩ ∧
      ¬Reports (.error ⟨502, 0, ascii "Bad Gateway"⟩) ⟨none, ⟨noErr, ascii "Bad Gateway"⟩⟩ :=
  @login_misreports sampleClient sampleReader (answered ⟨502, 0, [], ascii "Bad Gateway"⟩)
    (.error ⟨502, 0, ascii "Bad Gateway"⟩) (by decide +kernel)

/-- Both requests succeed and there is a token, but `Success()` is false. The failing status has no
code. -/
theorem token_reported_as_failure :
    (loginAsync sampleClient sampleReader (answered ⟨200, 0, [], ascii "code"⟩)
        = some (.ok ⟨[]⟩) ∧
      login sampleClient sampleReader (answered ⟨200, 0, [], ascii "code"⟩)
        = some ⟨some ⟨[]⟩, ⟨noErr, []⟩⟩ ∧
      (⟨some ⟨[]⟩, ⟨noErr, []⟩⟩ : Result).success = false) ∧
    loginAsync sampleClient sampleReader (answered ⟨502, 0, [], ascii "Bad Gateway"⟩)
        = some (.error ⟨502, 0, ascii "Bad Gateway"⟩) ∧
      (futureResult (.error ⟨502, 0, ascii "Bad Gateway"⟩)).error.code = noErr := by
  decide +kernel

end TapSdk.Login
