import TapSdk.Library.Run
import TapSdk.Net.Request

/-!
# The pool of clients

`AcquireClient`, `RecycleClient` and both forms of `RequestAsync` of `net/coro_httpclient.cpp`, with
what `cinatra/coro_http_client.hpp` keeps in a client. Requests of any number of threads take their
steps in any order. The pool is changed under its lock; everything else is done without one. The
network is an input.
-/

namespace TapSdk.Net

open Library

/-- One call of `add_str_part` or `add_header`. -/
inductive Addition where
  | part (pair : Bytes × Bytes)
  | header (pair : Bytes × Bytes)
  deriving DecidableEq

def Addition.apply (coro : CoroClient) : Addition → CoroClient
  | part pair => coro.addStrPart pair
  | header pair => coro.addHeader pair

/-- The loops of `AcquireClient`, and the one of `RequestAsync`. -/
def CoroHttpClient.additions (client : CoroHttpClient) (request : Request) : List Addition :=
  client.commonParams.map .part ++ client.commonHeaders.map .header ++ request.headers.map .header

/-- Where the body of a response is kept: `body_` or `resp_chunk_str_`. -/
inductive Place where
  | body
  | chunks
  deriving DecidableEq

/-- What `async_request` returns. The content is a view of the memory in which it is kept. -/
structure Response where
  status : Int
  place : Place
  content : Bytes
  -- A body has been begun and not ended.
  torn : Bool
  deriving DecidableEq

/-- An error before anything has been received. -/
def Response.failed : Response := ⟨404, .body, [], false⟩

/-- The two forms of `RequestAsync`. -/
inductive Form where
  | callback
  | coroutine
  deriving DecidableEq

/-- A client: what it keeps for its request, and whose response is in its memory. `user` is the
request that has acquired it last; it is not in the program. -/
structure PooledClient where
  coro : CoroClient
  kept : Place → Option (Nat × Bytes)
  user : Nat

inductive Stage where
  | adding (client : Nat) (rest : List Addition)
  | waiting (client : Nat)
  | answered (client : Nat) (response : Response)
  -- The coroutine gives its client back before it looks at the response.
  | recycled (client : Nat) (response : Response)
  -- The callback gives it back after that.
  | looked (client : Nat) (response : Response) (seen : Option Bytes)
  | done (response : Response) (seen : Option Bytes)
  deriving DecidableEq

/-- A call of `RequestAsync`, with what it has written to the socket. -/
structure Flight where
  form : Form
  request : Request
  stage : Stage
  written : Option Bytes

structure ClientPool where
  idle : List Nat
  clients : List PooledClient
  flights : List Flight

namespace PooledClient

def new (user : Nat) : PooledClient := ⟨CoroClient.empty, fun _ => none, user⟩

/-- `reset`, by its next user. -/
def reset (client : PooledClient) (user : Nat) : PooledClient :=
  { client with coro := CoroClient.empty, user := user }

/-- What is in the memory from now on. -/
def keep (client : PooledClient) (place : Place) (content : Option (Nat × Bytes)) : PooledClient :=
  { client with kept := fun other => if other = place then content else client.kept other }

/-- `async_request` up to the response. -/
def send (client : PooledClient) (request : Request) : PooledClient :=
  { client.keep .chunks none with coro := client.coro.setContentType request.contentType }

/-- The end of `async_request`, after which no header is left. -/
def finish (client : PooledClient) : PooledClient :=
  { client with coro := { client.coro with reqHeaders := [] } }

def receive (client : PooledClient) (flight : Nat) (response : Response) : PooledClient :=
  let client := if response.torn then client.keep .body none else client
  if response.content = [] then client.finish
  else (client.keep response.place (some (flight, response.content))).finish

/-- What is found behind the view; nothing when its memory has been given to another response. -/
def look (client : PooledClient) (flight : Nat) (response : Response) : Option Bytes :=
  if response.content = [] then some []
  else match client.kept response.place with
    | some (owner, content) => if owner = flight then some content else none
    | none => none

end PooledClient

namespace ClientPool

def maxPoolSize : Nat := 10

def empty : ClientPool := ⟨[], [], []⟩

def setClient (pool : ClientPool) (number : Nat) (client : PooledClient) : ClientPool :=
  { pool with clients := pool.clients.set number client }

def setFlight (pool : ClientPool) (number : Nat) (flight : Flight) : ClientPool :=
  { pool with flights := pool.flights.set number flight }

/-- `RecycleClient`. -/
def recycle (pool : ClientPool) (client : Nat) : ClientPool :=
  if pool.idle.length < maxPoolSize then { pool with idle := pool.idle ++ [client] } else pool

inductive Op where
  | call (form : Form) (request : Request)
  | add (flight : Nat)
  | send (flight : Nat) (connected : Bool)
  | respond (flight : Nat) (response : Response)
  | look (flight : Nat)
  | recycle (flight : Nat)
  deriving DecidableEq

variable (config : CoroHttpClient) (order : Pairs → Pairs) (pool : ClientPool)

/-- `AcquireClient` up to its loops. -/
def acquire (form : Form) (request : Request) : Option ClientPool :=
  let user := pool.flights.length
  let additions := config.additions request
  match pool.idle with
  | [] => some
      { pool with
        clients := pool.clients ++ [PooledClient.new user]
        flights := pool.flights ++ [⟨form, request, .adding pool.clients.length additions, none⟩] }
  | first :: rest => (pool.clients[first]?).map fun client =>
      { idle := rest
        clients := pool.clients.set first (client.reset user)
        flights := pool.flights ++ [⟨form, request, .adding first additions, none⟩] }

/-- A step of a request that is at this stage with this client. -/
def advance (number : Nat) (flight : Flight) (index : Nat) (client : PooledClient) :
    Op → Option ClientPool
  | .add _ =>
      match flight.stage with
      | .adding _ (addition :: rest) => some
          ((pool.setClient index { client with
            coro := addition.apply client.coro }).setFlight number
            { flight with stage := .adding index rest })
      | _ => none
  | .send _ connected =>
      match flight.stage with
      | .adding _ [] =>
          match config.sendText order flight.request client.coro, connected with
          | some text, true => some
              ((pool.setClient index (client.send flight.request)).setFlight number
                { flight with stage := .waiting index, written := some text })
          | _, _ => some
              ((pool.setClient index (client.keep .chunks none).finish).setFlight number
                { flight with stage := .answered index Response.failed })
      | _ => none
  | .respond _ response =>
      match flight.stage with
      | .waiting _ => some
          ((pool.setClient index (client.receive number response)).setFlight number
            { flight with stage := .answered index response })
      | _ => none
  | .look _ =>
      match flight.form, flight.stage with
      | .callback, .answered _ response => some
          (pool.setFlight number { flight with
            stage := .looked index response (client.look number response) })
      | .coroutine, .recycled _ response => some
          (pool.setFlight number { flight with
            stage := .done response (client.look number response) })
      | _, _ => none
  | .recycle _ =>
      match flight.form, flight.stage with
      | .coroutine, .answered _ response => some
          ((pool.setFlight number { flight with stage := .recycled index response }).recycle index)
      | .callback, .looked _ response seen => some
          ((pool.setFlight number { flight with stage := .done response seen }).recycle index)
      | _, _ => none
  | .call _ _ => none

def Op.flight : Op → Nat
  | .call _ _ => 0
  | .add flight | .send flight _ | .respond flight _ | .look flight | .recycle flight => flight

end ClientPool

/-- The client of a request. -/
def Stage.client : Stage → Option Nat
  | .adding client _ | .waiting client | .answered client _ | .recycled client _
  | .looked client _ _ => some client
  | .done _ _ => none

/-- Its client, as long as it has not given it back. -/
def Stage.holds : Stage → Option Nat
  | .adding client _ | .waiting client | .answered client _ | .looked client _ _ => some client
  | .recycled _ _ | .done _ _ => none

namespace ClientPool

variable (config : CoroHttpClient) (order : Pairs → Pairs) (pool : ClientPool)

def step (op : Op) : Option ClientPool :=
  match op with
  | .call form request => pool.acquire config form request
  | op => do
      let flight ← pool.flights[op.flight]?
      let index ← flight.stage.client
      let client ← pool.clients[index]?
      pool.advance config order op.flight flight index client op

def system : System ClientPool Op where
  init pool := pool = empty
  step := step config order

end ClientPool

end TapSdk.Net
