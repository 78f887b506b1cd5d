import TapSdk.Library.Http
import TapSdk.Login.TapLogin
import TapSdk.Net.Uri

/-!
# The text of a request

`RequestAsync` of `net/coro_httpclient.cpp` up to what is written to the socket, with the headers
and the request text of `cinatra/coro_http_client.hpp`. A hash map is a list of pairs, and the order
in which it is gone through is a parameter.
-/

namespace TapSdk.Net

open Library

abbrev Pairs := List (Bytes × Bytes)

inductive HttpType where
  | get
  | post
  deriving DecidableEq

inductive ContentType where
  | none
  | json
  | form
  -- The callback form always passes this one, and no content.
  | string
  deriving DecidableEq

def methodName : HttpType → Bytes
  | .get => ascii "GET"
  | .post => ascii "POST"

/-- `get_content_type_str`. -/
def contentTypeStr : ContentType → Bytes
  | .none => []
  | .json => ascii "application/json; charset=UTF-8"
  | .form => ascii "application/x-www-form-urlencoded"
  | .string => ascii "text/html; charset=UTF-8"

/-- `operator[]` of a hash map, assigned to. -/
def assign (key value : Bytes) : Pairs → Pairs
  | [] => [(key, value)]
  | pair :: rest => if pair.1 = key then (key, value) :: rest else pair :: assign key value rest

/-- What `coro_http_client` keeps for its next request. -/
structure CoroClient where
  reqHeaders : Pairs
  formData : Pairs
  deriving DecidableEq

namespace CoroClient

/-- After `reset`, and when it is new. -/
def empty : CoroClient := ⟨[], []⟩

def addHeader (client : CoroClient) (header : Bytes × Bytes) : CoroClient :=
  if header.1 = [] then client
  else if header.1 = ascii "Host" then client
  else { client with reqHeaders := assign header.1 header.2 client.reqHeaders }

/-- `emplace` keeps a part that is there. -/
def addStrPart (client : CoroClient) (part : Bytes × Bytes) : CoroClient :=
  if (client.formData.map Prod.fst).contains part.1 then client
  else { client with formData := client.formData ++ [part] }

def setContentType (client : CoroClient) (contentType : ContentType) : CoroClient :=
  if contentTypeStr contentType = [] then client
  else { client with
    reqHeaders := assign (ascii "Content-Type") (contentTypeStr contentType) client.reqHeaders }

def headerLine (header : Bytes × Bytes) : Bytes := header.1 ++ ascii ": " ++ header.2 ++ Http.crlf

/-- `build_request_header`, without a proxy. -/
def buildRequestHeader (order : Pairs → Pairs) (uri : Uri) (method : HttpType)
    (contentType : ContentType) (reqStr : Bytes) (contentLen : Nat) (client : CoroClient) : Bytes :=
  let query := if uri.query = [] then [] else ascii "?" ++ uri.query
  let headers := (client.setContentType contentType).reqHeaders
  let hasConnection := (headers.map Prod.fst).contains (ascii "Connection")
  let shouldAdd := 0 < contentLen ∨ method = .post
  let hasLength := (headers.map Prod.fst).contains (ascii "Content-Length")
  methodName method ++ ascii " " ++ uri.getPath ++ query ++ ascii " HTTP/1.1" ++ Http.crlf
    ++ ascii "Host:" ++ uri.host ++ Http.crlf
    ++ (order headers).flatMap headerLine
    ++ (if hasConnection then [] else ascii "Connection: keep-alive" ++ Http.crlf)
    ++ reqStr
    ++ (if shouldAdd ∧ ¬hasLength then
        ascii "Content-Length: " ++ Json.digits contentLen ++ Http.crlf
      else [])
    ++ Http.crlf

end CoroClient

/-- The members of `CoroHttpClient` that a request reads. -/
structure CoroHttpClient where
  host : Bytes
  https : Bool
  commonHeaders : Pairs
  commonParams : Pairs
  deriving DecidableEq

/-- The arguments of `RequestAsync`. -/
structure Request where
  type : HttpType
  path : Bytes
  headers : Pairs
  params : Pairs
  content : Bytes
  contentType : ContentType
  deriving DecidableEq

namespace CoroHttpClient

/-- What `AcquireClient` adds to a client that is new or has been reset. -/
def prepare (client : CoroHttpClient) (coro : CoroClient) : CoroClient :=
  client.commonHeaders.foldl CoroClient.addHeader
    (client.commonParams.foldl CoroClient.addStrPart coro)

/-- `find_first_of` finds any of its characters. -/
def hasSchema (url : Bytes) : Bool := url.head?.any fun c => (ascii "https://ws").contains c

def address (client : CoroHttpClient) (path : Bytes) : Bytes :=
  webPath ((if client.https then ascii "https://" else ascii "http://") ++ client.host) path

/-- `handle_uri` of the address; none when the request ends there, before its first suspension. -/
def handleUri (client : CoroHttpClient) (path : Bytes) : Option Uri :=
  let url := client.address path
  Uri.parseFrom (if hasSchema url then url else ascii "http://" ++ url)

/-- What a client in this state writes to the socket; nothing when the address is not accepted. -/
def sendText (client : CoroHttpClient) (order : Pairs → Pairs) (request : Request)
    (coro : CoroClient) : Option Bytes := do
  let uri ← client.handleUri request.path
  some (coro.buildRequestHeader order uri request.type request.contentType
    (Login.Net.toParam request.params) request.content.length ++ request.content)

/-- What is written to the socket for a request, when no other has the same client. -/
def requestText (client : CoroHttpClient) (order : Pairs → Pairs) (request : Request) :
    Option Bytes :=
  client.sendText order request
    (request.headers.foldl CoroClient.addHeader (client.prepare CoroClient.empty))

end CoroHttpClient

end TapSdk.Net
