import TapSdk.Base.Hmac
import TapSdk.Base.Md5
import TapSdk.Net.Request
import TapSdk.Tracker.TrackerCache

/-!
# The upload of a topic

`UploadTopicTrackers` of `tracker/tracker_impl.cpp` up to its request, with the signature of the
request. Memory that nothing has been written to is a parameter.
-/

namespace TapSdk.Tracker

open Library

/-- `std::time_t` in `fmt::format`. -/
def timeText (time : Int) : Str :=
  if time < 0 then ascii "-" ++ Json.digits time.natAbs else Json.digits time.natAbs

/-- `header_fmt`. -/
def headerFmt (md5 : Str) (size : Nat) (timeStamp : Int) (project logStore : Str) : Str :=
  ascii "POST\n" ++ md5 ++ ascii "\n"
    ++ ascii "application/x-protobuf\n"
    ++ ascii "x-log-apiversion:0.6.0\n"
    ++ ascii "x-log-bodyrawsize:" ++ Json.digits size ++ ascii "\n"
    ++ ascii "x-log-compresstype:lz4\n"
    ++ ascii "x-log-signaturemethod:hmac-sha1\n"
    ++ ascii "x-log-timestamp:" ++ timeText timeStamp ++ ascii "\n"
    ++ ascii "/putrecords/" ++ project ++ ascii "/" ++ logStore

def toUpper (text : Str) : Str := text.map fun c => if 0x61 ≤ c ∧ c ≤ 0x7A then c - 0x20 else c

/-- What an upload does first: the failure it ends with, or its request. -/
inductive UploadStart where
  | failed (error : Login.Net.Error)
  | posted (request : Net.Request)

/-- The client that the constructor of a cache creates. -/
def uploadClient (strings : TrackDiskCacheConfig) : Net.CoroHttpClient :=
  ⟨strings.endpoint.takeWhile (· ≠ 0), true, [], []⟩

def TrackerCache.httpClient (cache : TrackerCache) : Net.CoroHttpClient :=
  uploadClient cache.config.strings

def uploadPath (strings : TrackDiskCacheConfig) : Str :=
  Net.webPath (Net.webPath (ascii "putrecords") strings.project) strings.logStore

/-- The client accepts the address of an upload; otherwise the request ends before it suspends. -/
def TrackDiskCacheConfig.addressed (strings : TrackDiskCacheConfig) : Bool :=
  ((uploadClient strings).handleUri (uploadPath strings)).isSome

section Request

variable (ext : Externals) (memory : Memory) (digest : Bytes) (stack : Nat → Memory)

/-- The request for this buffer; nothing when a counter of the digest code comes round. -/
def uploadRequest (strings : TrackDiskCacheConfig) (buffer : Str) (timeStamp : Int) :
    Option Net.Request := do
  let compressed := ext.lz4Compress buffer
  let bufferMd5 ← MD5.new memory digest compressed
  let (md5String, _) ← bufferMd5.toStr
  let md5 := toUpper md5String
  let headerSig := headerFmt md5 buffer.length timeStamp strings.project strings.logStore
  let signature ← hashHmacSha1 stack headerSig strings.accessKeySecret
  let headerSigFmt := ascii "LOG " ++ strings.accessKeyid ++ ascii ":" ++ signature
  some
    { type := .post
      path := uploadPath strings
      headers :=
        [(ascii "x-log-timestamp", timeText timeStamp),
          (ascii "Content-MD5", md5),
          (ascii "Content-Length", Json.digits compressed.length),
          (ascii "x-log-bodyrawsize", Json.digits buffer.length),
          (ascii "Authorization", headerSigFmt),
          (ascii "Content-Type", ascii "application/x-protobuf"),
          (ascii "x-log-apiversion", ascii "0.6.0"),
          (ascii "x-log-compresstype", ascii "lz4"),
          (ascii "x-log-signaturemethod", ascii "hmac-sha1"),
          (ascii "Host", strings.endpoint),
          (ascii "accept", ascii "*/*"),
          (ascii "Accept-Encoding", ascii "identity")]
      params := []
      content := compressed
      contentType := .none }

/-- `UploadTopicTrackers`, when its cache is loaded with this clock and uploaded at this time. -/
def uploadTopicTrackers (cache : TrackerCache) (disk : FileData) (clock : Nat → UInt32)
    (timeStamp : Int) :
    Option UploadStart :=
  let serializeBuffer := (cache.opened disk).serializeToUpload ext cache.config clock
  if serializeBuffer = [] then some (.failed ⟨-1, -1, ascii "No buffer!"⟩)
  else if ext.lz4Compress serializeBuffer = [] then
    some (.failed ⟨-1, -1, ascii "lz4 compress error!"⟩)
  else
    (uploadRequest ext memory digest stack cache.config.strings serializeBuffer timeStamp).map
      .posted

end Request

end TapSdk.Tracker
