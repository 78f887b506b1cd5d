import TapSdk.Login.TapLogin

/-!
# What a response says

`TapUnwrapResult` of `net/httpclient.cpp`, which a client uses to unwrap the body of a response. A
body comes in one of two envelopes: the old one with `success`, the new one with `code`. The local
variables keep what they were assigned when something throws, and the handler resets two of them.

The parser of the JSON library and its floating-point numbers are behind `JsonLibrary`; what the
function uses of the library beside them is as in `nlohmann/json.hpp`.
-/

namespace TapSdk.Login.Net

open Library

inductive JsonError where
  | parseError
  -- A name was looked up in a value that is neither an object nor null.
  | typeError305
  -- The value is not of the type it was to be converted to.
  | typeError302
  deriving DecidableEq

structure JsonLibrary where
  -- `json::parse`, which throws when the text is not JSON.
  parse : Bytes → Option Json
  -- The value of a floating-point number, by its text.
  floatValue : Bytes → Rat
  -- What `static_cast<int>` makes of one that is out of range, which C++ leaves undefined.
  castBeyond : Bytes → Int

/-! ### Looking up and converting -/

def lookup (members : List (Bytes × Json)) (key : Bytes) : Option Json :=
  (members.find? fun member => member.1 = key).map Prod.snd

/-- `find(key) != end()`. -/
def contains : Json → Bytes → Bool
  | .object members, key => (lookup members key).isSome
  | _, _ => false

/-- `operator[]` of a value that is not constant: null becomes an object, and a name that is missing
is added with null. -/
def index : Json → Bytes → Except JsonError Json
  | .null, _ => .ok .null
  | .object members, key => .ok ((lookup members key).getD .null)
  | _, _ => .error .typeError305

def getBool : Json → Except JsonError Bool
  | .boolean value => .ok value
  | _ => .error .typeError302

def getString : Json → Except JsonError Bytes
  | .string bytes => .ok bytes
  | _ => .error .typeError302

/-- `static_cast<int>` of an integer. -/
def castInteger (value : Int) : Int := value.bmod 4294967296

/-- `static_cast<int>` of a floating-point number: the fraction is dropped. -/
def JsonLibrary.castFloat (library : JsonLibrary) (text : Bytes) : Int :=
  let whole := (library.floatValue text).num.tdiv (library.floatValue text).den
  if -2147483648 ≤ whole ∧ whole < 2147483648 then whole else library.castBeyond text

def JsonLibrary.getInt (library : JsonLibrary) : Json → Except JsonError Int
  | .unsigned value => .ok (castInteger value.toNat)
  | .integer value => .ok (castInteger value)
  | .float text => .ok (library.castFloat text)
  | .boolean value => .ok value.toNat
  | _ => .error .typeError302

/-! ### Unwrapping -/

/-- The local variables `code`, `msg` and `content`, which an exception leaves as they are. -/
abbrev Unwrapping := ExceptT JsonError (StateM ResultWrapper)

def setCode (code : Int) : Unwrapping Unit := modify fun result => { result with code := code }

def setMsg (msg : Bytes) : Unwrapping Unit := modify fun result => { result with msg := msg }

def setContent (content : Json) : Unwrapping Unit :=
  modify fun result => { result with content := content }

def invalidResponse : Bytes := ascii "Invalid response!"

/-- The body of the `try`. -/
def JsonLibrary.tryUnwrap (library : JsonLibrary) (response : Bytes) : Unwrapping Unit := do
  let resp ← match library.parse response with
    | some resp => pure resp
    | none => throw .parseError
  -- old wrap
  if contains resp (ascii "success") then
    let success ← MonadExcept.ofExcept (index resp (ascii "success") >>= getBool)
    if success then
      setCode 0
      setContent (← MonadExcept.ofExcept (index resp (ascii "data")))
    else
      let resp ← MonadExcept.ofExcept (index resp (ascii "data"))
      setCode (← MonadExcept.ofExcept (index resp (ascii "code") >>= library.getInt))
      setMsg (← MonadExcept.ofExcept (index resp (ascii "msg") >>= getString))
  else
    setCode (← MonadExcept.ofExcept (index resp (ascii "code") >>= library.getInt))
    if (← get).code = 0 then
      setContent (← MonadExcept.ofExcept (index resp (ascii "data")))
    else
      setMsg (← MonadExcept.ofExcept (index resp (ascii "msg") >>= getString))

def JsonLibrary.unwrap (library : JsonLibrary) (response : Bytes) : Unwrapping Unit :=
  if response = [] then pure ()
  else tryCatch (library.tryUnwrap response) fun _ => do
    setCode (-1)
    setMsg invalidResponse

def JsonLibrary.tapUnwrapResult (library : JsonLibrary) (response : Bytes) :
    Except JsonError ResultWrapper :=
  match (library.unwrap response).run ⟨-1, invalidResponse, .null⟩ with
  | (.ok (), result) => .ok result
  | (.error error, _) => .error error

/-- A client that unwraps with this function, as every client does that is not told otherwise. -/
def JsonLibrary.client (library : JsonLibrary) : TapHttpClient where
  unwrapResult response :=
    match library.tapUnwrapResult response with
    | .ok result => result
    -- nothing is thrown
    | .error _ => ⟨-1, invalidResponse, .null⟩

end TapSdk.Login.Net
