import TapSdk.Library.Http
import TapSdk.Library.Segments
import TapSdk.Login.Unwrap

/-!
# Reading a response

`async_request` of `cinatra/coro_http_client.hpp` after the request has been written: `handle_read`,
`handle_chunked` and `handle_result`, with the parser of `cinatra/http_parser.hpp` and
`cinatra/picohttpparser.h`. The pieces in which the network delivers the response are an input, and
so is how much memory there is.
-/

namespace TapSdk.Net

open Library

/-! ### Numbers -/

def isSpace (c : UInt8) : Bool := c = 0x20 || (0x09 ≤ c && c ≤ 0x0D)

def digitValue (c : UInt8) : Nat :=
  if isDigit c then c.toNat - 48
  else if 0x61 ≤ c ∧ c ≤ 0x7A then c.toNat - 87
  else if 0x41 ≤ c ∧ c ≤ 0x5A then c.toNat - 55
  else 255

/-- The digits at the beginning. -/
def magnitude (radix number : Nat) : Bytes → Nat
  | [] => number
  | c :: rest =>
      if digitValue c < radix then magnitude radix (radix * number + digitValue c) rest else number

/-- `0x` before a digit. -/
def unprefixed (text : Bytes) : Bytes :=
  if text.head? = some 0x30 ∧ (text.drop 1).head?.any (fun c => c = 0x78 || c = 0x58)
      ∧ (text.drop 2).head?.any (digitValue · < 16) then text.drop 2
  else text

/-- `strtoll`, and `strtol` where a `long` has 64 bits. -/
def strtoll (radix : Nat) (text : Bytes) : Int :=
  let text := text.dropWhile isSpace
  let negative := text.head? = some 0x2D
  let text := if negative ∨ text.head? = some 0x2B then text.drop 1 else text
  let text := if radix = 16 then unprefixed text else text
  let number : Int := magnitude radix 0 text
  max (-9223372036854775808) (min 9223372036854775807 (if negative then -number else number))

/-- `atoi`; a number that is out of range is cut to its low bits. -/
def atoi (text : Bytes) : Int := Login.Net.castInteger (strtoll 10 text)

/-- `hex_to_int` of a line, which is read as a C string: the text goes on behind the line. -/
def hexToInt (line text : Bytes) : Int :=
  if line = [] then -1
  else if strtoll 16 text = 0 ∧ line.head? ≠ some 0x30 then -1
  else strtoll 16 text

/-! ### The parser -/

/-- A header, or a line that continues the one before. -/
structure PhrHeader where
  name : Option Bytes
  value : Bytes
  deriving DecidableEq

structure Head where
  status : Nat
  headers : List PhrHeader
  deriving DecidableEq

def maxHeaders : Nat := 100

def isControl (c : UInt8) : Bool := (c < 0x20 && c != 0x09) || c = 0x7F

/-- The end of a line, if the text begins with one. -/
def skipEol (text : Bytes) : Option Bytes :=
  if text.head? = some 0x0D then
    if (text.drop 1).head? = some 0x0A then some (text.drop 2) else none
  else if text.head? = some 0x0A then some (text.drop 1)
  else none

def getTokenToEol (text : Bytes) : Option (Bytes × Bytes) :=
  (skipEol (text.dropWhile (!isControl ·))).map fun rest => (text.takeWhile (!isControl ·), rest)

def parseHttpVersion (text : Bytes) : Option Bytes :=
  if 9 ≤ text.length ∧ (ascii "HTTP/1.").isPrefixOf text ∧ (text.drop 7).head?.any isDigit then
    some (text.drop 8)
  else none

def skipSpace (text : Bytes) : Option Bytes :=
  if text.head? = some 0x20 then some (text.drop 1) else none

/-- `PARSE_INT_3`. -/
def parseStatus (text : Bytes) : Option (Nat × Bytes) :=
  if 4 ≤ text.length ∧ (text.take 3).all isDigit then
    some (Decimal.value (text.take 3), text.drop 3)
  else none

/-- The characters with a 1 in `token_char_map`. -/
def tokenCharMap (c : UInt8) : Bool := Http.isToken c

/-- The name of a header and its colon; a line after the first that begins with a blank has none. -/
def parseName (isFirst : Bool) (text : Bytes) : Option (Option Bytes × Bytes) :=
  if !isFirst ∧ text.head?.any Http.isBlank then some (none, text)
  else if text.takeWhile tokenCharMap ≠ [] ∧ (text.dropWhile tokenCharMap).head? = some 0x3A then
    some (some (text.takeWhile tokenCharMap),
      ((text.dropWhile tokenCharMap).drop 1).dropWhile Http.isBlank)
  else none

/-- `parse_headers`, with how many headers there is room for. -/
def parseHeaders : Nat → Bool → Bytes → Option (List PhrHeader)
  | 0, _, text => (skipEol text).map fun _ => []
  | room + 1, isFirst, text =>
      if (skipEol text).isSome then some []
      else do
        let (name, text) ← parseName isFirst text
        let (value, text) ← getTokenToEol text
        (parseHeaders room false text).map (⟨name, value⟩ :: ·)

/-- `parse_response`. -/
def parseResponse (text : Bytes) : Option Head := do
  let text ← parseHttpVersion text
  let text ← skipSpace text
  let (status, text) ← parseStatus text
  let text ← skipSpace text
  let (_, text) ← getTokenToEol text
  (parseHeaders maxHeaders true text).map (⟨status, ·⟩)

namespace Head

/-- `get_header_value`, which ignores case. -/
def getHeaderValue (head : Head) (key : Bytes) : Bytes :=
  ((head.headers.find? fun header =>
    header.name.any fun name => Http.lower name = Http.lower key).map PhrHeader.value).getD []

def bodyLen (head : Head) : Int :=
  let value := head.getHeaderValue (ascii "content-length")
  if value = [] then 0 else atoi value

def isChunked (head : Head) : Bool :=
  head.getHeaderValue (ascii "transfer-encoding") = ascii "chunked"

def getHeaders (head : Head) : List (Bytes × Bytes) :=
  head.headers.map fun header => (header.name.getD [], header.value)

end Head

/-! ### Memory -/

def wordSize : Nat := 18446744073709551616

structure SimpleBuffer where
  size : Nat
  allocSize : Nat
  deriving DecidableEq

namespace SimpleBuffer

def new : SimpleBuffer := ⟨0, 4096⟩

/-- The loop of `init`. -/
def enlarge (needed nsize : Nat) : Nat :=
  if nsize < needed then
    if nsize * 2 % wordSize ≤ nsize then needed else enlarge needed (nsize * 2 % wordSize)
  else nsize
termination_by needed - nsize

/-- The size that `init` asks for. -/
def nsize (buffer : SimpleBuffer) (len : Nat) : Nat :=
  enlarge ((buffer.size + len) % wordSize)
    (if 0 < buffer.allocSize then buffer.allocSize * 2 % wordSize else 4096)

/-- `init`; nothing when there is not so much memory. -/
def init (realloc : Nat → Bool) (buffer : SimpleBuffer) (len : Nat) : Option SimpleBuffer :=
  if len ≤ buffer.allocSize - buffer.size then some { buffer with size := len }
  else if realloc (buffer.nsize len) then some ⟨buffer.nsize len, buffer.nsize len⟩
  else none

end SimpleBuffer

/-! ### Reading -/

inductive NetErr where
  -- What the socket reports when no more can be read.
  | network
  | protocolError
  | invalidArgument
  | timedOut
  deriving DecidableEq

structure RespData where
  netErr : Option NetErr
  status : Int
  respBody : Bytes
  respHeaders : List (Bytes × Bytes)
  eof : Bool
  deriving DecidableEq

def RespData.empty : RespData := ⟨none, 0, [], [], false⟩

/-- A turn of the loop of `handle_chunked`. -/
inductive ChunkTurn where
  | failed (error : NetErr) (left : Inflow)
  | finished (left : Inflow)
  | chunk (data : Bytes) (left : Inflow)

def readChunk (inflow : Inflow) : ChunkTurn :=
  match inflow.readUntil Http.crlf with
  | (none, left) => .failed .network left
  | (some size, left) =>
      let chunkSize := hexToInt (left.buffer.take (size - 2)) left.buffer
      let left := left.consume size
      if chunkSize < 0 then .failed .invalidArgument left
      else if chunkSize = 0 then .finished (left.consume 2)
      else
        match left.readMore (chunkSize.toNat + 2 - left.buffer.length) with
        | (true, left) =>
            .chunk (left.buffer.take chunkSize.toNat) (left.consume (chunkSize.toNat + 2))
        | (false, left) => .failed .network left

theorem length_readChunk {inflow left : Inflow} {data : Bytes}
    (h : readChunk inflow = .chunk data left) :
    left.all.length < inflow.all.length := by
  unfold readChunk at h
  cases hmark : markEnd Http.crlf inflow.all with
  | none =>
      rw [Inflow.readUntil_none hmark] at h
      cases h
  | some size =>
      obtain ⟨found, hfound, hall, hsize⟩ := Inflow.readUntil_some hmark
      have hmark : 2 ≤ size := (markEnd_bounds hmark).1
      have hconsumed := Inflow.all_consume hsize
      simp only [hfound] at h
      split at h
      · cases h
      · split at h
        · cases h
        · split at h
          · next more hmore =>
              cases h
              have hless := Inflow.length_consume_le more
                ((hexToInt (found.buffer.take (size - 2)) found.buffer).toNat + 2)
              have hsame := Inflow.all_readMore (found.consume size)
                ((hexToInt (found.buffer.take (size - 2)) found.buffer).toNat + 2
                  - (found.consume size).buffer.length)
              rw [hmore, hconsumed, hall] at hsame
              rw [hsame, List.length_drop] at hless
              have hlong : size ≤ inflow.all.length := by
                rw [← hall, Inflow.all, List.length_append]
                omega
              omega
          · cases h

/-- `handle_chunked`: its error, the response with what it says, and `resp_chunk_str_`. -/
def handleChunked (data : RespData) (chunkStr : Bytes) (inflow : Inflow) :
    Option NetErr × RespData × Bytes × Inflow :=
  match _h : readChunk inflow with
  | .failed error left => (some error, data, chunkStr, left)
  | .finished left => (none, { data with status := 200, eof := true }, chunkStr, left)
  | .chunk more left => handleChunked data (chunkStr ++ more) left
termination_by inflow.all.length
decreasing_by exact length_readChunk ‹_›

/-- `handle_entire_content`: the content is taken from the buffer if there is still something in
it. -/
def handleEntireContent (data : RespData) (contentLen : Nat) (body readBuf : Bytes) :
    RespData × Bytes :=
  if 0 < contentLen then
    let source := if readBuf = [] then body else readBuf
    ({ data with respBody := source.take contentLen, eof := readBuf.drop contentLen = [] },
      readBuf.drop contentLen)
  else ({ data with eof := readBuf = [] }, readBuf)

/-- How a request may end without a response: an exception, or a write beyond the end of `body_`. -/
inductive Fatal where
  | badAlloc
  | overflow
  deriving DecidableEq

/-- What a client keeps from one request to the next. -/
structure Reader where
  readBuf : Bytes
  body : SimpleBuffer
  deriving DecidableEq

variable (realloc : Nat → Bool)

/-- The part of `handle_read` for a response that is not in chunks. -/
def readContent (data : RespData) (contentLen : Nat) (body : SimpleBuffer) (inflow : Inflow) :
    Except Fatal (RespData × Option NetErr) × Reader :=
  if contentLen = 0 then
    let (data, readBuf) := handleEntireContent data 0 [] inflow.buffer
    (.ok (data, none), ⟨readBuf, body⟩)
  else
    match body.init realloc contentLen with
    | none => (.error .badAlloc, ⟨inflow.buffer, body⟩)
    | some body =>
        -- Of what the buffer has beyond the content nothing is kept.
        let (complete, left) := (inflow.readMore (contentLen - inflow.buffer.length))
        let written := left.buffer.take contentLen
        if body.allocSize < written.length then (.error .overflow, ⟨[], body⟩)
        else if complete then
          let (data, readBuf) := handleEntireContent data contentLen written []
          (.ok (data, none), ⟨readBuf, body⟩)
        else (.ok (data, some .network), ⟨[], body⟩)

/-- `size_t` of an `int`. -/
def toSize (value : Int) : Nat := (value % wordSize).toNat

/-- What the head says. -/
def RespData.ofHead (head : Head) : RespData := ⟨none, head.status, [], head.getHeaders, false⟩

/-- `handle_read` after the head. -/
def readBody (head : Head) (body : SimpleBuffer) (inflow : Inflow) :
    Except Fatal (RespData × Option NetErr) × Reader :=
  if head.isChunked then
    let (error, data, chunkStr, left) := handleChunked (RespData.ofHead head) [] inflow
    (.ok (if chunkStr = [] then data else { data with respBody := chunkStr }, error),
      ⟨left.buffer, body⟩)
  else readContent realloc (RespData.ofHead head) (toSize head.bodyLen) body inflow

/-- `handle_read`. -/
def handleRead (body : SimpleBuffer) (inflow : Inflow) :
    Except Fatal (RespData × Option NetErr) × Reader :=
  match inflow.readUntil (Http.crlf ++ Http.crlf) with
  | (none, left) => (.ok (RespData.empty, some .network), ⟨left.buffer, body⟩)
  | (some size, left) =>
      match parseResponse (left.buffer.take size) with
      | none => (.ok (RespData.empty, some .protocolError), ⟨left.buffer, body⟩)
      | some head => readBody realloc head body (left.consume size)

/-- `handle_result`. -/
def handleResult (data : RespData) : Option NetErr → RespData
  | some error => { data with netErr := some error, status := 404 }
  | none => data

/-- A response, from what a client still has and what the network delivers; the timer may have
expired. -/
def Reader.receive (reader : Reader) (timeout : Bool) (pieces : List Bytes) :
    Except Fatal RespData × Reader :=
  match handleRead realloc reader.body ⟨reader.readBuf, pieces⟩ with
  | (.ok (data, error), reader) =>
      (.ok (handleResult data (if timeout then some .timedOut else error)), reader)
  | (.error fatal, reader) => (.error fatal, reader)

/-- One response after the other, each on a connection of its own: `reset` keeps what is in the
buffers. -/
def Reader.receiveAll (reader : Reader) :
    List (Bool × List Bytes) → List (Except Fatal RespData) × Reader
  | [] => ([], reader)
  | (timeout, pieces) :: rest =>
      let (outcome, after) := reader.receive realloc timeout pieces
      let (outcomes, last) := after.receiveAll rest
      (outcome :: outcomes, last)

def Reader.new : Reader := ⟨[], SimpleBuffer.new⟩

/-- What `RequestAsync` is given of a response, with the numbers and the texts of the errors. -/
def RespData.seen (value : NetErr → Int) (message : Option NetErr → Bytes) (data : RespData) :
    Login.Net.RespData :=
  ⟨data.status, data.netErr.elim 0 value, message data.netErr, data.respBody⟩

end TapSdk.Net
