import TapSdk.Base.Proof.Hmac
import TapSdk.Base.Proof.Md5
import TapSdk.Net.Proof.Request
import TapSdk.Tracker.Proof.SelfDeadlock
import TapSdk.Tracker.Proof.UploadTime
import TapSdk.Tracker.WireServer

/-!
# Uploads are accepted

The digest and the signature of an upload are the ones that its server computes from what it has
read.
-/

namespace TapSdk.Tracker

open Library

/-! ### The request -/

/-- The digest of a body in its header. -/
def md5Text (body : Str) : Str := toUpper (Base64.toHex (Md5.hash body))

def signatureText (strings : TrackDiskCacheConfig) (body : Str) (size : Nat)
    (timeStamp : Int) : Str :=
  Library.Base64.encode (Hmac.hmac Sha1.hash
    (headerFmt (md5Text body) size timeStamp strings.project strings.logStore)
      strings.accessKeySecret)

def authorization (strings : TrackDiskCacheConfig) (body : Str) (size : Nat)
    (timeStamp : Int) : Str :=
  ascii "LOG " ++ strings.accessKeyid ++ ascii ":" ++ signatureText strings body size timeStamp

def uploadHeaders (strings : TrackDiskCacheConfig) (body : Str) (size : Nat)
    (timeStamp : Int) : Net.Pairs :=
  [(ascii "x-log-timestamp", timeText timeStamp),
    (ascii "Content-MD5", md5Text body),
    (ascii "Content-Length", Json.digits body.length),
    (ascii "x-log-bodyrawsize", Json.digits size),
    (ascii "Authorization", authorization strings body size timeStamp),
    (ascii "Content-Type", ascii "application/x-protobuf"),
    (ascii "x-log-apiversion", ascii "0.6.0"),
    (ascii "x-log-compresstype", ascii "lz4"),
    (ascii "x-log-signaturemethod", ascii "hmac-sha1"),
    (ascii "Host", strings.endpoint),
    (ascii "accept", ascii "*/*"),
    (ascii "Accept-Encoding", ascii "identity")]

theorem uploadRequest_eq {ext : Externals} (memory : Memory) (digest : Bytes) (stack : Nat → Memory)
    (strings : TrackDiskCacheConfig) {buffer : Str} (timeStamp : Int)
    (hint : (ext.lz4Compress buffer).length ≤ 2147483647) :
    uploadRequest ext memory digest stack strings buffer timeStamp
      = some ⟨.post, uploadPath strings,
          uploadHeaders strings (ext.lz4Compress buffer) buffer.length timeStamp, [],
          ext.lz4Compress buffer, .none⟩ := by
  obtain ⟨md5, next, hnew, hstr⟩ := MD5.toStr_new memory digest
    (Nat.le_trans hint (show 2147483647 ≤ MD5.maxLength by decide))
  unfold uploadRequest
  simp only [hnew, hashHmacSha1_eq]
  change (md5.toStr).bind _ = _
  rw [hstr]
  rfl

/-! ### The headers -/

theorem visible_timeText (time : Int) : Http.Visible (timeText time) := by
  unfold timeText
  split
  · exact Http.Visible.append (by decide) (Http.visible_digits _)
  · exact Http.visible_digits _

theorem visible_md5Text (body : Str) : Http.Visible (md5Text body) := by
  intro c hc
  obtain ⟨digit, hdigit, rfl⟩ := List.mem_map.mp hc
  obtain ⟨byte, -, hbyte⟩ := List.mem_flatMap.mp hdigit
  have hall : ∀ nibble < 16,
      Http.isBlank (if 0x61 ≤ Base64.dec2hex nibble ∧ Base64.dec2hex nibble ≤ 0x7A then
      Base64.dec2hex nibble - 0x20 else Base64.dec2hex nibble) = false
      ∧ (if 0x61 ≤ Base64.dec2hex nibble ∧ Base64.dec2hex nibble ≤ 0x7A then
      Base64.dec2hex nibble - 0x20 else Base64.dec2hex nibble) ≠ 0x0D := by decide
  have hlt := byte.toNat_lt
  rcases List.mem_cons.mp hbyte with rfl | hbyte
  · exact hall _ (by omega)
  · rw [List.mem_singleton.mp hbyte]
    exact hall _ (by omega)

theorem encode_cases (bytes : Str) : ∀ c ∈ Library.Base64.encode bytes,
    (Http.isBlank c = false ∧ c ≠ 0x0D) ∧ c ≠ Http.colon := by
  have hsymbol : ∀ sextet < 64, (Http.isBlank (Library.Base64.symbol sextet) = false
      ∧ Library.Base64.symbol sextet ≠ 0x0D) ∧ Library.Base64.symbol sextet ≠ Http.colon := by
    decide +kernel
  intro c hc
  rw [Library.Base64.encode_eq] at hc
  rcases List.mem_append.mp hc with hc | hc
  · obtain ⟨sextet, hsextet, rfl⟩ := List.mem_map.mp hc
    exact hsymbol sextet (Library.Base64.sextets_lt sextet hsextet)
  · rw [List.eq_of_mem_replicate hc]
    decide

theorem visible_signatureText (strings : TrackDiskCacheConfig) (body : Str) (size : Nat)
    (timeStamp : Int) :
    Http.Visible (signatureText strings body size timeStamp) :=
  fun c hc => (encode_cases _ c hc).1

/-- The strings of a configuration can stand in a request: the host and the path have only
characters they may have, and the access key is one line. -/
structure Uploadable (strings : TrackDiskCacheConfig) : Prop where
  endpoint : ∃ endpoint : Net.Endpoint, strings.endpoint = endpoint.text
  accessKeyid : 0x0D ∉ strings.accessKeyid
  project : ∀ c ∈ strings.project, Net.Uri.isPathCharacter c = true
  logStore : ∀ c ∈ strings.logStore, Net.Uri.isPathCharacter c = true

theorem sendable_visible {content name value : Str} (hname : Net.isOrdinary name = true)
    (hvisible : Http.Visible value) : Net.Sendable content (name, value) :=
  Net.sendable_of_ordinary hname hvisible.line hvisible.trimmed

theorem sendable_authorization {strings : TrackDiskCacheConfig} (h : 0x0D ∉ strings.accessKeyid)
    (body : Str) (size : Nat) (timeStamp : Int) :
    Net.Sendable body (ascii "Authorization", authorization strings body size timeStamp) := by
  have hsignature := visible_signatureText strings body size timeStamp
  have hlast : Http.Visible (ascii ":" ++ signatureText strings body size timeStamp) :=
    Http.Visible.append (by decide) hsignature
  have htrimmed : Http.Trimmed (authorization strings body size timeStamp) := by
    have hbetween := Http.trimmed_between (show Http.isBlank 0x4C = false by decide) hlast
      (List.append_ne_nil_of_left_ne_nil (by decide) _) (ascii "OG " ++ strings.accessKeyid)
    rw [authorization, List.append_assoc]
    exact hbetween
  have hline : 0x0D ∉ authorization strings body size timeStamp := by
    unfold authorization
    simp only [List.mem_append, not_or]
    exact ⟨⟨⟨by decide, h⟩, by decide⟩, hsignature.line⟩
  have hname : Net.isOrdinary (ascii "Authorization") = true := by decide
  exact Net.sendable_of_ordinary hname hline htrimmed

section Accepted

variable {strings : TrackDiskCacheConfig} {ext : Externals} {server : LogServer}
    {body : Str} {size : Nat}
  {timeStamp : Int}

/-- The request of an upload. -/
def uploadOf (strings : TrackDiskCacheConfig) (body : Str) (size : Nat) (timeStamp : Int) :
    Net.Request :=
  ⟨.post, uploadPath strings, uploadHeaders strings body size timeStamp, [], body, .none⟩

theorem uploadPath_legal (h : Uploadable strings) :
    ∀ c ∈ uploadPath strings, Net.Uri.isPathCharacter c = true := by
  have hslash : ∀ c ∈ ascii "/", Net.Uri.isPathCharacter c = true := List.all_eq_true.mp rfl
  have hrecords : ∀ c ∈ ascii "putrecords", Net.Uri.isPathCharacter c = true :=
    List.all_eq_true.mp rfl
  unfold uploadPath Net.webPath
  simp only [List.mem_append]
  rintro c ((((hc | hc) | hc) | hc) | hc)
  · exact hrecords c hc
  · exact hslash c hc
  · exact h.project c hc
  · exact hslash c hc
  · exact h.logStore c hc

theorem sendable_uploadHeaders (h : Uploadable strings) :
    ∀ header ∈ uploadHeaders strings body size timeStamp,
      Net.isTaken header = true → Net.Sendable body header := by
  simp only [uploadHeaders, List.forall_mem_cons]
  refine ⟨fun _ => ?_, fun _ => ?_, fun _ => Net.sendable_digits body, fun _ => ?_,
    fun _ => sendable_authorization h.accessKeyid body size timeStamp, fun _ => ?_,
    fun _ => ?_, fun _ => ?_, fun _ => ?_, fun htaken => absurd htaken (by simp [Net.isTaken]),
    fun _ => ?_, fun _ => ?_, nofun⟩
  · exact sendable_visible (by decide) (visible_timeText timeStamp)
  · exact sendable_visible (by decide) (visible_md5Text body)
  · exact sendable_visible (by decide) (Http.visible_digits size)
  all_goals exact sendable_visible (by decide) (by decide)

def uploadNames : List Str :=
  [ascii "x-log-timestamp", ascii "Content-MD5", ascii "Content-Length", ascii "x-log-bodyrawsize",
    ascii "Authorization", ascii "Content-Type", ascii "x-log-apiversion",
    ascii "x-log-compresstype", ascii "x-log-signaturemethod", ascii "Host", ascii "accept",
    ascii "Accept-Encoding"]

theorem uploadHeaders_names :
    (uploadHeaders strings body size timeStamp).map Prod.fst = uploadNames := rfl

/-- Every header of an upload but the host is found in what is read. -/
theorem field_upload {client : Net.CoroHttpClient} {endpoint : Net.Endpoint} {headers : Net.Pairs}
    (hcommon : client.commonHeaders = [])
    (hmem : ∀ name value, (name, value) ∈ headers
      ↔ Net.HeaderSent endpoint client (uploadOf strings body size timeStamp) name value)
    {name value : Str} (hheader : (name, value) ∈ uploadHeaders strings body size timeStamp)
    (hhost : name ≠ ascii "Host") : Http.field name headers = some value := by
  have hnodup : uploadNames.Nodup := by decide
  have hnames : ∀ first ∈ uploadNames ++ Net.addedNames, ∀ second ∈ uploadNames ++ Net.addedNames,
      Http.lower first = Http.lower second → first = second := by decide
  have hname : name ∈ uploadNames := by
    rw [← @uploadHeaders_names strings body size timeStamp]
    exact List.mem_map_of_mem hheader
  have hne : name ≠ [] := by
    rintro rfl
    exact absurd hname (by decide)
  have hgiven : (name, value) ∈ Net.given client (uploadOf strings body size timeStamp) := by
    refine List.mem_append_left _ (List.mem_filter.mpr ⟨List.mem_append_right _ hheader, ?_⟩)
    simpa [Net.isTaken] using ⟨hne, hhost⟩
  have hnodupGiven :
    ((Net.given client (uploadOf strings body size timeStamp)).map Prod.fst).Nodup := by
    have htype : Net.contentTypeStr (uploadOf strings body size timeStamp).contentType = [] := rfl
    rw [Net.given, hcommon, List.nil_append, if_pos htype, List.append_nil]
    refine List.Nodup.sublist (List.Sublist.map _ List.filter_sublist) ?_
    exact (@uploadHeaders_names strings body size timeStamp).symm ▸ hnodup
  refine Net.field_of_sent hmem ?_ hnames ?_
  · rw [hcommon, List.nil_append]
    intro header hheader
    rw [← @uploadHeaders_names strings body size timeStamp]
    exact List.mem_map_of_mem hheader
  · rw [Net.HeaderSent, if_neg hhost, Net.lastValue_of_mem hnodupGiven hgiven]

/-! ### What the server makes of it -/

theorem readAuthorization_eq :
    LogServer.readAuthorization (authorization strings body size timeStamp)
      = some (strings.accessKeyid, signatureText strings body size timeStamp) := by
  have hcolon : Http.colon ∉ (signatureText strings body size timeStamp).reverse := fun hmem =>
    (encode_cases _ _ (List.mem_reverse.mp hmem)).2 rfl
  have hprefix : (ascii "LOG ").isPrefixOf (authorization strings body size timeStamp) = true := rfl
  have hreverse : ((authorization strings body size timeStamp).drop 4).reverse
      = (signatureText strings body size timeStamp).reverse
        ++ Http.colon :: strings.accessKeyid.reverse := by
    show (strings.accessKeyid ++ ascii ":" ++ signatureText strings body size timeStamp).reverse = _
    rw [List.reverse_append, List.reverse_append]
    rfl
  rw [LogServer.readAuthorization, if_pos hprefix, hreverse, Http.cut_append hcolon,
    Option.map_some]
  simp only [List.reverse_reverse]

/-- The server signs the text that the client has signed. -/
theorem signedText_eq {headers : Net.Pairs}
    (hfield : ∀ name value, (name, value) ∈ uploadHeaders strings body size timeStamp →
      name ≠ ascii "Host" →
      Http.field name headers = some value) :
    LogServer.signedText
        ⟨Net.methodName .post, Net.target (uploadOf strings body size timeStamp), headers, body⟩
      = some (headerFmt (md5Text body) size timeStamp strings.project strings.logStore) := by
  have hmd5 := hfield (ascii "Content-MD5") _ (.tail _ (.head _)) (by decide)
  have htype := hfield (ascii "Content-Type") (ascii "application/x-protobuf")
    (by simp [uploadHeaders]) (by decide)
  have hversion :=
    hfield (ascii "x-log-apiversion") (ascii "0.6.0") (by simp [uploadHeaders]) (by decide)
  have hraw :=
    hfield (ascii "x-log-bodyrawsize") _ (.tail _ (.tail _ (.tail _ (.head _)))) (by decide)
  have hcompress :=
    hfield (ascii "x-log-compresstype") (ascii "lz4") (by simp [uploadHeaders]) (by decide)
  have hmethod :=
    hfield (ascii "x-log-signaturemethod") (ascii "hmac-sha1") (by simp [uploadHeaders])
      (by decide)
  have htime := hfield (ascii "x-log-timestamp") _ (.head _) (by decide)
  unfold LogServer.signedText LogServer.signedHeaders
  simp only [hmd5, htype, List.mapM_cons, List.mapM_nil, hversion, hraw, hcompress, hmethod, htime]
  simp only [Option.map_some, Option.pure_def, Option.bind_eq_bind, Option.bind_some,
    Option.some.injEq]
  have htarget : Net.target (uploadOf strings body size timeStamp)
      = ascii "/putrecords/" ++ (strings.project ++ (ascii "/" ++ strings.logStore)) := by
    simp only [Net.target, uploadOf, uploadPath, Net.webPath, List.append_assoc]
    rfl
  have hliterals : ascii "POST\n" = ascii "POST" ++ ascii "\n"
      ∧ ascii "application/x-protobuf\n" = ascii "application/x-protobuf" ++ ascii "\n"
      ∧ ascii "x-log-apiversion:0.6.0\n"
        = ascii "x-log-apiversion" ++ ascii ":" ++ ascii "0.6.0" ++ ascii "\n"
      ∧ ascii "x-log-bodyrawsize:" = ascii "x-log-bodyrawsize" ++ ascii ":"
      ∧ ascii "x-log-compresstype:lz4\n"
        = ascii "x-log-compresstype" ++ ascii ":" ++ ascii "lz4" ++ ascii "\n"
      ∧ ascii "x-log-signaturemethod:hmac-sha1\n"
        = ascii "x-log-signaturemethod" ++ ascii ":" ++ ascii "hmac-sha1" ++ ascii "\n"
      ∧ ascii "x-log-timestamp:" = ascii "x-log-timestamp" ++ ascii ":" := by decide
  obtain ⟨hpost, hprotobuf, hversionLine, hrawLine, hcompressLine, hmethodLine, htimeLine⟩ :=
    hliterals
  rw [headerFmt, htarget, hpost, hprotobuf, hversionLine, hrawLine, hcompressLine,
    hmethodLine, htimeLine]
  simp only [Net.methodName, List.flatten_cons, List.flatten_nil, List.append_nil,
    List.append_assoc]

/-- An upload that has been read is accepted. -/
theorem accept_eq {headers : Net.Pairs}
    (hfield : ∀ name value, (name, value) ∈ uploadHeaders strings body size timeStamp →
      name ≠ ascii "Host" →
      Http.field name headers = some value)
    (hsecret : server.secret strings.accessKeyid = some strings.accessKeySecret)
    {bytes : Str} (hbytes : server.decompress size body = some bytes) :
    server.accept
        ⟨Net.methodName .post, Net.target (uploadOf strings body size timeStamp), headers, body⟩
      = server.parseGroup bytes := by
  have hmd5 := hfield (ascii "Content-MD5") _ (.tail _ (.head _)) (by decide)
  have hraw :=
    hfield (ascii "x-log-bodyrawsize") _ (.tail _ (.tail _ (.tail _ (.head _)))) (by decide)
  have hauthorization := hfield (ascii "Authorization") _
    (.tail _ (.tail _ (.tail _ (.tail _ (.head _))))) (by decide)
  unfold LogServer.accept
  simp only [hmd5, hraw, hauthorization, signedText_eq hfield]
  simp only [Option.bind_eq_bind, Option.bind_some, readAuthorization_eq, hsecret,
    Decimal.read_digits]
  rw [if_pos ⟨rfl, rfl⟩, hbytes, Option.bind_some]

/-! ### From the file to the server -/

theorem Endpoint.takeWhile_text (endpoint : Net.Endpoint) :
    endpoint.text.takeWhile (· ≠ 0) = endpoint.text := by
  rw [List.takeWhile_eq_self_iff]
  intro c hc
  apply decide_eq_true
  rcases List.mem_append.mp hc with hc | hc
  · exact (Net.Uri.hostCharacter_cases (endpoint.name_legal c hc)).2.2.2.2
  · exact (Net.Uri.portText_cases endpoint.port_digits hc).2.2

variable {order : Net.Pairs → Net.Pairs}

/-- A request that has been posted is written to the socket exactly when its address is accepted. -/
theorem requestText_isSome (strings : TrackDiskCacheConfig) (body : Str) (size : Nat)
    (timeStamp : Int) :
    ((uploadClient strings).requestText order (uploadOf strings body size timeStamp)).isSome
      = strings.addressed := by
  have huri : (uploadClient strings).handleUri (uploadOf strings body size timeStamp).path
      = (uploadClient strings).handleUri (uploadPath strings) := rfl
  unfold Net.CoroHttpClient.requestText Net.CoroHttpClient.sendText TrackDiskCacheConfig.addressed
  rw [huri, Option.bind_eq_bind]
  cases (uploadClient strings).handleUri (uploadPath strings) with
  | none => rw [Option.bind_none, Option.isSome_none, Option.isSome_none]
  | some uri => rw [Option.bind_some, Option.isSome_some, Option.isSome_some]

/-- The request of an upload is received, whatever follows it on the connection. -/
theorem receive_uploadOf (h : Uploadable strings) (horder : ∀ map, (order map).Perm map)
    (hsecret : server.secret strings.accessKeyid = some strings.accessKeySecret)
    {bytes : Str} (hbytes : server.decompress size body = some bytes)
    {group : LogGroup} (hgroup : server.parseGroup bytes = some group) (timeStamp : Int) :
    ∃ text, (uploadClient strings).requestText order (uploadOf strings body size timeStamp)
      = some text
      ∧ ∀ rest, server.receive (text ++ rest) = some (group, rest) := by
  obtain ⟨endpoint, hendpoint⟩ := h.endpoint
  have hhost : (uploadClient strings).host = endpoint.text := by
    rw [uploadClient, hendpoint, Endpoint.takeWhile_text]
  have hsendable : Net.AllSendable (uploadClient strings) (uploadOf strings body size timeStamp) :=
    fun header hmem => sendable_uploadHeaders h header hmem
  have hcommon : (uploadClient strings).commonHeaders = [] := rfl
  have hmem :=
    @Net.mem_headers_iff (uploadClient strings) (uploadOf strings body size timeStamp) order
    horder endpoint
  have hreads := Net.read_requestText endpoint hhost horder (uploadPath_legal h) hsendable
  obtain ⟨text, htext, -⟩ := hreads []
  have haccept := accept_eq (fun name value hheader hne => field_upload hcommon hmem hheader hne)
    hsecret hbytes
  have hparams : (uploadOf strings body size timeStamp).params = [] := rfl
  refine ⟨text, htext, fun rest => ?_⟩
  obtain ⟨same, hsame, hread⟩ := hreads rest
  obtain rfl := Option.some.inj (htext.symm.trans hsame)
  rw [if_pos hparams] at hread
  unfold LogServer.receive
  rw [hread]
  change (server.accept _).bind _ = _
  rw [show (uploadOf strings body size timeStamp).content = body from rfl,
    show (uploadOf strings body size timeStamp).type = .post from rfl, haccept, hgroup]
  rfl

end Accepted

section Histories

variable {ext : Externals} {config : TrackerConfig} {server : LogServer}

/-- What is left of an upload when its buffer is known. -/
theorem uploadTopicTrackers_eq {cache : TrackerCache} {disk : FileData} {clock : Nat → UInt32}
    {buffer : Str} (memory : Memory) (digest : Bytes) (stack : Nat → Memory) (timeStamp : Int)
    (hint : ∀ bytes, (ext.lz4Compress bytes).length ≤ 2147483647)
    (hbuffer : (cache.opened disk).serializeToUpload ext cache.config clock = buffer) :
    uploadTopicTrackers ext memory digest stack cache disk clock timeStamp
      = some (if buffer = [] then .failed ⟨-1, -1, ascii "No buffer!"⟩
          else if ext.lz4Compress buffer = [] then .failed ⟨-1, -1, ascii "lz4 compress error!"⟩
          else .posted
            (uploadOf cache.config.strings (ext.lz4Compress buffer) buffer.length timeStamp)) := by
  unfold uploadTopicTrackers
  simp only [hbuffer, uploadRequest_eq memory digest stack cache.config.strings timeStamp
    (hint buffer)]
  split
  · rfl
  · split <;> rfl

/-- The cache of a topic whose file has this history. -/
def History.topicCache (history : History) (config : TrackerConfig) (address : Nat) :
    TrackerCache :=
  ⟨history.cache.object, config, address⟩

theorem length_restamp (config : Option TrackerConfig) (clock : Nat → UInt32) (i : Nat)
    (messages : List TrackMessageImpl) :
    (restamp config clock i messages).length = messages.length := by
  induction messages generalizing i with
  | nil => rfl
  | cons message messages ih => rw [restamp, List.length_cons, List.length_cons, ih]

/-- What is serialized for an upload. -/
theorem History.Sound.serializeToUpload_eq {history : History} (hsound : history.Sound ext config)
    (hlossless : ext.Lossless) (given : TrackerConfig) (clock : Nat → UInt32) :
    history.cache.serializeToUpload ext given clock
      = if history.accepted = [] then []
        else ext.group
          ⟨(restamp history.cache.object.config clock 0 history.accepted).map (·.toLog),
            given.strings.topic⟩ := by
  rw [OpenCache.serializeToUpload, OpenCache.logGroup, hsound.load hlossless clock]
  cases history.accepted with
  | nil => rfl
  | cons message messages => rfl

/-- **What has been pushed is received.** After any sequence of pushes, clears and reopenings,
whatever was in the memory of the digests and in whatever order the headers are written, an upload
fails before its request exactly when nothing has been accepted since the last clear or there is too
much for LZ4; else the server gets a log for every accepted message, with its contents and the time
at which it was loaded, under the topic. -/
theorem History.upload_received (hlossless : ext.Lossless) (hcompresses : ext.Compresses)
    (hfits : (ext.config.serialize config.strings).length ≤ 65536 - 28)
    (huploadable : Uploadable config.strings) (hdecodes : server.Decodes ext)
    (hsecret : server.secret config.strings.accessKeyid = some config.strings.accessKeySecret)
    {order : Net.Pairs → Net.Pairs} (horder : ∀ map, (order map).Perm map)
    (path : Str) (env : InitEnv) (henv : env.Succeeds) (ops : List CacheOp)
    (hops : ∀ op ∈ ops, op.Regular config ∧ op.Small ext) :
    ∃ history given, run ext config path env ops = some history
      ∧ history.cache.object.config = some given
      ∧ ∀ address memory digest stack clock timeStamp,
        ∃ start, uploadTopicTrackers ext memory digest stack (history.topicCache given address)
            history.cache.disk clock timeStamp = some start
          ∧ if history.accepted = []
              ∨ (history.cache.serializeToUpload ext given clock).length > lz4MaxInputSize then
            ∃ error, start = .failed error
          else
            ∃ request text group, start = .posted request
              ∧ (history.topicCache given address).httpClient.requestText order request = some text
              ∧ group.topic = config.strings.topic ∧ group.logs.length = history.accepted.length
              ∧ (∀ (k : Nat) message, history.accepted[k]? = some message →
                group.logs[k]? = some ⟨clock k, message.proto.logged⟩)
              ∧ ∀ rest, server.receive (text ++ rest) = some (group, rest) := by
  obtain ⟨first, hstart, hfirst⟩ := start_sound hfits henv path
  obtain ⟨history, hrun, hsound⟩ := run_sound hlossless hfits hops hfirst
  obtain ⟨given, hgiven, hstrings⟩ := hsound.config
  refine ⟨history, given, ?_, hgiven, fun address memory digest stack clock timeStamp => ?_⟩
  · rw [run, hstart]
    exact hrun
  have hbuffer : ((history.topicCache given address).opened history.cache.disk).serializeToUpload
      ext given clock
      = history.cache.serializeToUpload ext given clock := rfl
  refine ⟨_, uploadTopicTrackers_eq memory digest stack timeStamp hdecodes.lz4_int hbuffer, ?_⟩
  have hgroup := hsound.serializeToUpload_eq hlossless given clock
  by_cases hnil : history.accepted = []
  · rw [if_pos hnil] at hgroup
    rw [if_pos (Or.inl hnil), if_pos hgroup]
    exact ⟨_, rfl⟩
  rw [if_neg hnil] at hgroup
  generalize hlogs :
    (restamp history.cache.object.config clock 0 history.accepted).map (·.toLog) = logs at hgroup
  have hlength : logs.length = history.accepted.length := by
    rw [← hlogs, List.length_map, length_restamp]
  have hserialized : history.cache.serializeToUpload ext given clock ≠ [] := by
    rw [hgroup]
    apply hcompresses.group_ne_nil
    rintro rfl
    exact hnil (List.length_eq_zero_iff.mp hlength.symm)
  have hlz4 := hcompresses.lz4_ne_nil_iff _ hserialized
  rw [if_neg hserialized]
  by_cases hlarge : (history.cache.serializeToUpload ext given clock).length > lz4MaxInputSize
  · rw [if_pos (Or.inr hlarge), if_pos (by_contra fun hne => Nat.not_le.mpr hlarge (hlz4.mp hne))]
    exact ⟨_, rfl⟩
  · have hcompressed := hlz4.mpr (Nat.not_lt.mp hlarge)
    have hbytes := hdecodes.lz4 _ hcompressed
    have hparse := hdecodes.group ⟨logs, given.strings.topic⟩
    rw [← hgroup] at hparse
    rw [← hstrings] at huploadable hsecret
    obtain ⟨text, htext, hreceive⟩ :=
      receive_uploadOf huploadable horder hsecret hbytes hparse timeStamp
    rw [if_neg (not_or.mpr ⟨hnil, hlarge⟩), if_neg hcompressed]
    refine ⟨_, text, _, rfl, htext, ?_, hlength, fun k message hmessage => ?_, hreceive⟩
    · rw [hstrings]
    · rw [← hlogs, List.getElem?_map, restamp_getElem?, hmessage, Option.map_some, Option.map_some,
        Nat.zero_add]
      rfl

def exampleStrings : TrackDiskCacheConfig :=
  ⟨ascii "topic", ascii "logs.example", ascii "key", ascii "secret", ascii "project", ascii "store"⟩

theorem exampleStrings_uploadable : Uploadable exampleStrings :=
  ⟨⟨⟨ascii "logs.example", [], List.all_eq_true.mp rfl, List.all_eq_true.mp rfl⟩, rfl⟩, by decide,
    List.all_eq_true.mp rfl, List.all_eq_true.mp rfl⟩

/-- The secret of the only key. -/
def exampleServer : LogServer :=
  wireServer fun key => if key = ascii "key" then some (ascii "secret") else none

theorem History.upload_received_example :
    ∃ history given request text group, run wireFormat exampleStrings.toConfig [] InitEnv.ideal
        [.push PushEnv.ideal (plainMessage [118])] = some history
      ∧ history.cache.object.config = some given
      ∧ uploadTopicTrackers wireFormat (fun _ => 0) [] (fun _ _ => 0) (history.topicCache given 0)
          history.cache.disk (fun _ => 9) 7 = some (.posted request)
      ∧ (history.topicCache given 0).httpClient.requestText id request = some text
      ∧ group = ⟨[⟨9, [⟨[107], [118]⟩]⟩], ascii "topic"⟩
      ∧ exampleServer.receive (text ++ [0x21]) = some (group, [0x21]) := by
  let pushed := run wireFormat exampleStrings.toConfig [] InitEnv.ideal
    [.push PushEnv.ideal (plainMessage [118])]
  have hops : ∀ op ∈ [CacheOp.push PushEnv.ideal (plainMessage [118])],
      op.Regular exampleStrings.toConfig ∧ op.Small wireFormat := by
    intro op hop
    rw [List.mem_singleton.mp hop]
    exact ⟨PushEnv.ideal_succeeds, by simp only [CacheOp.Small]; decide⟩
  obtain ⟨history, given, hrun, hgiven, hupload⟩ := History.upload_received wireFormat_lossless
    wireFormat_compresses (by decide) exampleStrings_uploadable
    (show exampleServer.Decodes wireFormat from wireServer_decodes _) rfl
    (fun map => List.Perm.refl map) [] InitEnv.ideal InitEnv.ideal_succeeds _ hops
  obtain ⟨start, hstart, hreceived⟩ := hupload 0 (fun _ => 0) [] (fun _ _ => 0) (fun _ => 9) 7
  have haccepted : history.accepted = [plainMessage [118]] := by
    have hpushed : pushed.map (·.accepted) = some [plainMessage [118]] := by decide +kernel
    rw [show pushed = some history from hrun] at hpushed
    exact Option.some.inj hpushed
  have hsmall : (history.cache.serializeToUpload wireFormat given fun _ => 9).length
      ≤ lz4MaxInputSize := by
    have hpushed : pushed.all (fun history => history.cache.object.config.all fun given =>
        (history.cache.serializeToUpload wireFormat given fun _ => 9).length ≤ lz4MaxInputSize)
          = true := by decide +kernel
    rw [show pushed = some history from hrun, Option.all_some, hgiven] at hpushed
    exact of_decide_eq_true hpushed
  rw [if_neg (by simp [haccepted, hsmall])] at hreceived
  obtain ⟨request, text, group, rfl, htext, htopic, hlength, hlogs, hread⟩ := hreceived
  rw [haccepted] at hlength hlogs
  obtain ⟨log, hlog⟩ := List.length_eq_one_iff.mp hlength
  have hfirst := hlogs 0 _ rfl
  rw [hlog] at hfirst
  obtain rfl := Option.some.inj hfirst
  refine ⟨history, given, request, text, group, hrun, hgiven, hstart, htext, ?_, hread [0x21]⟩
  exact congrArg₂ LogGroup.mk hlog htopic

end Histories

end TapSdk.Tracker
