import TapSdk.Library.Base64
import TapSdk.Library.Hmac
import TapSdk.Library.Md5
import TapSdk.Tracker.Upload

/-!
# The server of the logs

What the uploads are for: a server that reads requests from a connection, knows the secret of every
access key, takes a body only if its digest and its signature are right, and decodes the logs in it.
It is not part of the repository. LZ4 and the log groups are decoded by functions that undo those of
the SDK.
-/

namespace TapSdk.Tracker

open Library

structure LogServer where
  secret : Str → Option Str
  decompress : Nat → List UInt8 → Option (List UInt8)
  parseGroup : List UInt8 → Option LogGroup

/-- The decoders undo the encoders; LZ4 returns its size as an `int`. -/
structure LogServer.Decodes (server : LogServer) (ext : Externals) : Prop where
  group : ∀ group, server.parseGroup (ext.group group) = some group
  lz4 : ∀ bytes, ext.lz4Compress bytes ≠ [] →
    server.decompress bytes.length (ext.lz4Compress bytes) = some bytes
  lz4_int : ∀ bytes, (ext.lz4Compress bytes).length ≤ 2147483647

namespace LogServer

/-- The headers that are signed, in their order. -/
def signedHeaders : List Str :=
  [ascii "x-log-apiversion", ascii "x-log-bodyrawsize", ascii "x-log-compresstype",
    ascii "x-log-signaturemethod", ascii "x-log-timestamp"]

/-- What is signed of a request. -/
def signedText (request : Http.Request) : Option Str := do
  let md5 ← Http.field (ascii "Content-MD5") request.headers
  let type ← Http.field (ascii "Content-Type") request.headers
  let lines ← signedHeaders.mapM fun name =>
    (Http.field name request.headers).map fun value => name ++ ascii ":" ++ value ++ ascii "\n"
  some (request.method ++ ascii "\n" ++ md5 ++ ascii "\n" ++ type ++ ascii "\n" ++ lines.flatten
    ++ request.target)

/-- The access key and the signature: what is before the last colon, and what is after it. -/
def readAuthorization (text : Str) : Option (Str × Str) :=
  if (ascii "LOG ").isPrefixOf text then
    (Http.cut Http.colon (text.drop 4).reverse).map fun (signature, key) =>
      (key.reverse, signature.reverse)
  else none

variable (server : LogServer)

def accept (request : Http.Request) : Option LogGroup := do
  let md5 ← Http.field (ascii "Content-MD5") request.headers
  let authorization ← Http.field (ascii "Authorization") request.headers
  let (key, signature) ← readAuthorization authorization
  let secret ← server.secret key
  let signed ← signedText request
  let size ← (Http.field (ascii "x-log-bodyrawsize") request.headers).bind Decimal.read
  if md5 = toUpper (Base64.toHex (Md5.hash request.body))
      ∧ signature = Base64.encode (Hmac.hmac Sha1.hash signed secret) then do
    let bytes ← server.decompress size request.body
    server.parseGroup bytes
  else none

/-- What is left on the connection is for the next request. -/
def receive (bytes : List UInt8) : Option (LogGroup × List UInt8) := do
  let (request, rest) ← Http.read bytes
  let group ← server.accept request
  some (group, rest)

end LogServer

end TapSdk.Tracker
