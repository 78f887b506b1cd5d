import Mathlib.Data.List.Forall2
import Mathlib.Data.List.Nodup
import TapSdk.Login.Proof.Form
import TapSdk.Net.Proof.Uri
import TapSdk.Net.Request

/-!
# What a server reads of a request

The text of a request is read back, with the headers that were set last. Parameters are written
between the headers and not into the address: with any of them, no request can be read.
-/

namespace TapSdk.Net

open Library

/-! ### Headers that are set -/

/-- The value that is set last. -/
def lastValue (name : Bytes) (headers : Pairs) : Option Bytes :=
  (headers.reverse.find? fun header => header.1 = name).map Prod.snd

/-- A map: every key once, with the value it has been given last. -/
structure Holds (map headers : Pairs) : Prop where
  nodup : (map.map Prod.fst).Nodup
  mem_iff : ∀ name value, (name, value) ∈ map ↔ lastValue name headers = some value

theorem lastValue_append_singleton (name : Bytes) (headers : Pairs) (header : Bytes × Bytes) :
    lastValue name (headers ++ [header])
      = if header.1 = name then some header.2 else lastValue name headers := by
  unfold lastValue
  rw [List.reverse_append, List.reverse_singleton, List.singleton_append, List.find?_cons]
  split <;> simp_all

theorem map_fst_assign (key value : Bytes) (map : Pairs) :
    (assign key value map).map Prod.fst
      = if key ∈ map.map Prod.fst then map.map Prod.fst else map.map Prod.fst ++ [key] := by
  induction map with
  | nil => rfl
  | cons pair map ih =>
      rw [assign]
      split
      · next heq =>
          rw [List.map_cons, List.map_cons, heq, if_pos List.mem_cons_self]
      · next hne =>
          simp only [List.map_cons, ih, List.mem_cons, Ne.symm hne, false_or]
          split <;> rfl

theorem mem_assign {key value : Bytes} {map : Pairs} (hnodup : (map.map Prod.fst).Nodup)
    (pair : Bytes × Bytes) :
    pair ∈ assign key value map ↔ pair = (key, value) ∨ (pair.1 ≠ key ∧ pair ∈ map) := by
  induction map with
  | nil => simp [assign]
  | cons first map ih =>
      rw [List.map_cons, List.nodup_cons] at hnodup
      rw [assign]
      split
      · next heq =>
          have hother : pair ∈ map → pair.1 ≠ key := by
            rintro hmem rfl
            exact hnodup.1 (heq ▸ List.mem_map_of_mem hmem)
          grind
      · next hne =>
          rw [List.mem_cons, ih hnodup.2]
          grind

theorem Holds.assign {map headers : Pairs} (h : Holds map headers) (key value : Bytes) :
    Holds (assign key value map) (headers ++ [(key, value)]) := by
  constructor
  · rw [map_fst_assign]
    split
    · exact h.nodup
    · next hnew =>
        exact (List.perm_append_singleton key _).nodup_iff.mpr (List.nodup_cons.mpr ⟨hnew, h.nodup⟩)
  · intro name other
    rw [mem_assign h.nodup, lastValue_append_singleton, h.mem_iff]
    grind

/-- A header that `add_header` takes. -/
def isTaken (header : Bytes × Bytes) : Bool := header.1 ≠ [] && header.1 ≠ ascii "Host"

theorem foldl_addHeader {coro : CoroClient} {headers : Pairs} (h : Holds coro.reqHeaders headers)
    (added : Pairs) :
    Holds (added.foldl CoroClient.addHeader coro).reqHeaders (headers ++ added.filter isTaken) := by
  induction added generalizing coro headers with
  | nil =>
      rw [List.filter_nil, List.append_nil]
      exact h
  | cons header added ih =>
      rw [List.foldl_cons]
      by_cases htaken : isTaken header = true
      · have hnext : Holds (coro.addHeader header).reqHeaders (headers ++ [header]) := by
          have hnames : header.1 ≠ [] ∧ header.1 ≠ ascii "Host" := by simpa [isTaken] using htaken
          rw [CoroClient.addHeader, if_neg hnames.1, if_neg hnames.2]
          exact h.assign header.1 header.2
        rw [List.filter_cons_of_pos htaken, List.append_cons]
        exact ih hnext
      · have hkept : coro.addHeader header = coro := by
          unfold CoroClient.addHeader
          simp only [isTaken, Bool.and_eq_true, decide_eq_true_eq, not_and, not_not] at htaken
          split
          · rfl
          · next hne => rw [if_pos (htaken hne)]
        rw [hkept, List.filter_cons_of_neg htaken]
        exact ih h

theorem foldl_addStrPart_reqHeaders (coro : CoroClient) (parts : Pairs) :
    (parts.foldl CoroClient.addStrPart coro).reqHeaders = coro.reqHeaders := by
  induction parts generalizing coro with
  | nil => rfl
  | cons part parts ih =>
      rw [List.foldl_cons, ih, CoroClient.addStrPart]
      split <;> rfl

/-- The headers that are set for a request, in order. -/
def given (client : CoroHttpClient) (request : Request) : Pairs :=
  (client.commonHeaders ++ request.headers).filter isTaken
    ++ if contentTypeStr request.contentType = [] then []
      else [(ascii "Content-Type", contentTypeStr request.contentType)]

/-- The map of headers from which the text is made. -/
def headerMap (client : CoroHttpClient) (request : Request) : Pairs :=
  ((request.headers.foldl CoroClient.addHeader (client.prepare CoroClient.empty)).setContentType
    request.contentType).reqHeaders

theorem headerMap_holds (client : CoroHttpClient) (request : Request) :
    Holds (headerMap client request) (given client request) := by
  have hempty :
    Holds (client.commonParams.foldl CoroClient.addStrPart CoroClient.empty).reqHeaders [] := by
    rw [foldl_addStrPart_reqHeaders]
    exact ⟨List.nodup_nil, fun name value => ⟨nofun, nofun⟩⟩
  have hadded := foldl_addHeader (foldl_addHeader hempty client.commonHeaders) request.headers
  rw [List.nil_append, ← List.filter_append] at hadded
  unfold headerMap given CoroClient.setContentType
  split
  · rw [List.append_nil]
    exact hadded
  · exact hadded.assign _ _

/-! ### Requests that can be read -/

/-- The host of a client, with a port or without. -/
structure Endpoint where
  name : Bytes
  port : Bytes
  name_legal : ∀ c ∈ name, Uri.isHostCharacter c = true
  port_digits : ∀ c ∈ port, isDigit c = true

def Endpoint.text (endpoint : Endpoint) : Bytes := endpoint.name ++ Uri.portText endpoint.port

/-- A header that does not break the text up: it is read as it is written, and if it gives the
length of the content it gives the right one. -/
structure Sendable (content : Bytes) (header : Bytes × Bytes) : Prop where
  plain : Http.Plain header
  length : Http.lower header.1 = Http.lower (ascii "Content-Length") →
    header = (ascii "Content-Length", Json.digits content.length)
  whole : Http.lower header.1 ≠ Http.lower (ascii "Transfer-Encoding")

def connectionHeaders (map : Pairs) : Pairs :=
  if (map.map Prod.fst).contains (ascii "Connection") then []
  else [(ascii "Connection", ascii "keep-alive")]

def lengthHeaders (map : Pairs) (request : Request) : Pairs :=
  if (0 < request.content.length ∨ request.type = .post)
      ∧ ¬(map.map Prod.fst).contains (ascii "Content-Length") then
    [(ascii "Content-Length", Json.digits request.content.length)]
  else []

/-- The fields of a request behind its host, as they are written. -/
def sentHeaders (order : Pairs → Pairs) (client : CoroHttpClient) (request : Request) : Pairs :=
  order (headerMap client request) ++ connectionHeaders (headerMap client request)

theorem parseFrom_address (client : CoroHttpClient) (endpoint : Endpoint)
    (h : client.host = endpoint.text) {path : Bytes}
    (hpath : ∀ c ∈ path, Uri.isPathCharacter c = true) :
    ∃ uri, Uri.parseFrom (if CoroHttpClient.hasSchema (client.address path) then client.address path
        else ascii "http://" ++ client.address path) = some uri
      ∧ uri.host = endpoint.name ∧ uri.path = 0x2F :: path ∧ uri.query = [] := by
  have haddress : ∃ schema, (schema = ascii "https" ∨ schema = ascii "http")
      ∧ CoroHttpClient.hasSchema (client.address path) = true
      ∧ client.address path = schema
        ++ (ascii "://" ++ (endpoint.name ++ Uri.portText endpoint.port ++ 0x2F :: path)) := by
    unfold CoroHttpClient.address webPath
    simp only [h, Endpoint.text, List.append_assoc]
    cases client.https with
    | false => exact ⟨ascii "http", Or.inr rfl, rfl, rfl⟩
    | true => exact ⟨ascii "https", Or.inl rfl, rfl, rfl⟩
  obtain ⟨schema, hschema, hhas, heq⟩ := haddress
  rw [if_pos hhas, heq,
    Uri.parseFrom_address hschema endpoint.name_legal endpoint.port_digits hpath]
  exact ⟨_, rfl, rfl, rfl, rfl⟩

/-- The line of a field. -/
def fieldLine (header : Bytes × Bytes) : Bytes := header.1 ++ Http.colon :: Http.space :: header.2

theorem readAs_host (endpoint : Endpoint) :
    Http.ReadAs (ascii "Host:" ++ endpoint.name) (ascii "Host", endpoint.name) := by
  have hvisible : Http.Visible endpoint.name := by
    intro c hc
    have hall :=
      forall_byte (p := fun c => !Uri.isHostCharacter c || (!Http.isBlank c && c != 0x0D))
      (by decide +kernel) c
    simpa [endpoint.name_legal c hc] using hall
  refine ⟨?_, nofun, ?_⟩
  · rw [List.mem_append, not_or]
    exact ⟨by decide, hvisible.line⟩
  · have hread : Http.readHeader (ascii "Host" ++ Http.colon :: endpoint.name)
        = some (ascii "Host", Http.trim endpoint.name) := Http.readHeader_eq (by decide) (by decide)
    rwa [Http.trim_eq hvisible.trimmed] at hread

/-- A text that begins with a question mark begins with no field. -/
theorem readHeaders_question (text : Bytes) : Http.readHeaders (0x3F :: text) = none := by
  apply Http.readHeaders_of_bad
  intro line rest hline
  have hmark : (0x3F : UInt8) ≠ 0x0D := by decide
  rw [Http.readLine, if_neg fun hend => hmark hend.1] at hline
  obtain ⟨⟨tail, left⟩, -, heq⟩ := Option.map_eq_some_iff.mp hline
  obtain ⟨rfl, rfl⟩ := Prod.mk.inj heq
  refine ⟨List.cons_ne_nil _ _, ?_⟩
  rw [Http.readHeader, Http.cut, if_neg (by decide)]
  cases Http.cut Http.colon tail with
  | none => rfl
  | some parts =>
      show (if 0x3F :: parts.1 ≠ [] ∧ (0x3F :: parts.1).all Http.isToken = true then
        some (0x3F :: parts.1, Http.trim parts.2) else none) = none
      exact if_neg fun htoken => Bool.false_ne_true htoken.2

theorem toParam_question {params : Pairs} (hne : params ≠ []) :
    ∃ text, Login.Net.toParam params = 0x3F :: text := by
  obtain ⟨param, rest, rfl⟩ := List.exists_cons_of_ne_nil hne
  rw [Login.Net.toParam_cons]
  exact ⟨_, rfl⟩

def target (request : Request) : Bytes := 0x2F :: request.path

def requestLine (request : Request) : Bytes :=
  methodName request.type ++ Http.space :: (target request ++ Http.space :: ascii "HTTP/1.1")

def lineTexts (lines : List Bytes) : Bytes := lines.flatMap (· ++ Http.crlf)

theorem flatMap_headerLine (headers : Pairs) :
    headers.flatMap CoroClient.headerLine = lineTexts (headers.map fieldLine) := by
  rw [lineTexts, List.flatMap_map]
  apply List.flatMap_congr
  intro header _
  simp only [CoroClient.headerLine, fieldLine, List.append_assoc]
  rfl

theorem connectionHeaders_text (map : Pairs) :
    (if (map.map Prod.fst).contains (ascii "Connection") = true then []
      else ascii "Connection: keep-alive" ++ Http.crlf)
        = lineTexts ((connectionHeaders map).map fieldLine) := by
  unfold connectionHeaders
  split <;> rfl

theorem lengthHeaders_text (map : Pairs) (request : Request) :
    (if (0 < request.content.length ∨ request.type = .post)
        ∧ ¬(map.map Prod.fst).contains (ascii "Content-Length") = true then
        ascii "Content-Length: " ++ Json.digits request.content.length ++ Http.crlf
      else []) = lineTexts ((lengthHeaders map request).map fieldLine) := by
  unfold lengthHeaders
  split
  · rw [List.map_singleton, lineTexts, List.flatMap_singleton]
    rfl
  · rfl

theorem requestText_eq (client : CoroHttpClient) (endpoint : Endpoint)
    (h : client.host = endpoint.text) (order : Pairs → Pairs) (request : Request)
    (hpath : ∀ c ∈ request.path, Uri.isPathCharacter c = true) :
    client.requestText order request = some (requestLine request ++ (Http.crlf
      ++ (lineTexts
        ((ascii "Host:" ++ endpoint.name) :: (sentHeaders order client request).map fieldLine)
        ++ (Login.Net.toParam request.params
          ++ (lineTexts ((lengthHeaders (headerMap client request) request).map fieldLine)
            ++ (Http.crlf ++ request.content)))))) := by
  obtain ⟨uri, hparse, hhost, huriPath, hquery⟩ := parseFrom_address client endpoint h hpath
  unfold CoroHttpClient.requestText CoroHttpClient.sendText CoroHttpClient.handleUri
  simp only [hparse]
  change some (CoroClient.buildRequestHeader _ _ _ _ _ _ _ ++ _) = some _
  unfold CoroClient.buildRequestHeader
  simp only [hhost, hquery, Uri.getPath, huriPath, reduceCtorEq, if_false, if_true,
    flatMap_headerLine]
  rw [connectionHeaders_text, lengthHeaders_text]
  simp only [requestLine, target, sentHeaders, lineTexts, List.map_append, List.flatMap_append,
    List.flatMap_cons, List.append_assoc, List.cons_append]
  rfl

/-! ### Reading a request -/

section Reading

variable {client : CoroHttpClient} {request : Request} {order : Pairs → Pairs}

/-- Every header that a request may have been given can be sent, or is not taken. -/
def AllSendable (client : CoroHttpClient) (request : Request) : Prop :=
  ∀ header ∈ client.commonHeaders ++ request.headers,
    isTaken header = true → Sendable request.content header

theorem sendable_digits (content : Bytes) :
    Sendable content (ascii "Content-Length", Json.digits content.length) := by
  have hvisible := Http.visible_digits content.length
  have hname : ascii "Content-Length" ≠ [] ∧ (ascii "Content-Length").all Http.isToken = true
      ∧ Http.lower (ascii "Content-Length") ≠ Http.lower (ascii "Transfer-Encoding") := by decide
  exact ⟨⟨hname.1, hname.2.1, hvisible.line, hvisible.trimmed⟩, fun _ => rfl, hname.2.2⟩

/-- A name that says nothing about the length of the content. -/
def isOrdinary (name : Bytes) : Bool :=
  name != [] && name.all Http.isToken && Http.lower name != Http.lower (ascii "Content-Length")
    && Http.lower name != Http.lower (ascii "Transfer-Encoding")

theorem sendable_of_ordinary {content : Bytes} {header : Bytes × Bytes}
    (hname : isOrdinary header.1 = true) (hline : 0x0D ∉ header.2)
    (htrimmed : Http.Trimmed header.2) : Sendable content header := by
  simp only [isOrdinary, Bool.and_eq_true, bne_iff_ne] at hname
  obtain ⟨⟨⟨hne, htoken⟩, hlength⟩, hwhole⟩ := hname
  exact ⟨⟨hne, htoken, hline, htrimmed⟩, fun heq => absurd heq hlength, hwhole⟩

theorem sendable_contentType (content : Bytes) (contentType : ContentType) :
    Sendable content (ascii "Content-Type", contentTypeStr contentType) := by
  cases contentType <;> exact sendable_of_ordinary (by decide) (by decide) (by decide)

theorem mem_of_lastValue {name value : Bytes} {headers : Pairs}
    (h : lastValue name headers = some value) : (name, value) ∈ headers := by
  obtain ⟨header, hfind, rfl⟩ := Option.map_eq_some_iff.mp h
  have hname := List.find?_some hfind
  rw [decide_eq_true_eq] at hname
  subst hname
  exact List.mem_reverse.mp (List.mem_of_find?_eq_some hfind)

theorem sendable_of_mem_headerMap (h : AllSendable client request) {header : Bytes × Bytes}
    (hmem : header ∈ headerMap client request) : Sendable request.content header := by
  obtain ⟨name, value⟩ := header
  have hgiven := mem_of_lastValue (((headerMap_holds client request).mem_iff _ _).mp hmem)
  rcases List.mem_append.mp hgiven with htaken | htype
  · obtain ⟨hall, htaken⟩ := List.mem_filter.mp htaken
    exact h _ hall htaken
  · split at htype
    · cases htype
    · rw [List.mem_singleton.mp htype]
      exact sendable_contentType request.content request.contentType

theorem sendable_of_mem (h : AllSendable client request) (horder : ∀ map, (order map).Perm map)
    {header : Bytes × Bytes}
    (hmem : header ∈ sentHeaders order client request
      ++ lengthHeaders (headerMap client request) request) :
    Sendable request.content header := by
  rcases List.mem_append.mp hmem with hsent | hlength
  · rcases List.mem_append.mp hsent with hmap | hconnection
    · exact sendable_of_mem_headerMap h ((horder _).mem_iff.mp hmap)
    · unfold connectionHeaders at hconnection
      split at hconnection
      · cases hconnection
      · rw [List.mem_singleton.mp hconnection]
        exact sendable_of_ordinary (by decide) (by decide) (by decide)
  · unfold lengthHeaders at hlength
    split at hlength
    · rw [List.mem_singleton.mp hlength]
      exact sendable_digits request.content
    · cases hlength

theorem field_eq {name value : Bytes} {headers : Pairs}
    (hall : ∀ header ∈ headers, Http.lower header.1 = Http.lower name → header.2 = value)
    (hsome : ∃ header ∈ headers, Http.lower header.1 = Http.lower name) :
    Http.field name headers = some value := by
  obtain ⟨found, hfound⟩ :
      ∃ found, headers.find? (fun header => Http.lower header.1 = Http.lower name)
        = some found := by
    apply Option.isSome_iff_exists.mp
    rw [List.find?_isSome]
    obtain ⟨header, hmem, heq⟩ := hsome
    exact ⟨header, hmem, decide_eq_true heq⟩
  have hname := List.find?_some hfound
  rw [decide_eq_true_eq] at hname
  rw [Http.field, hfound, Option.map_some, hall found (List.mem_of_find?_eq_some hfound) hname]

theorem field_eq_none {name : Bytes} {headers : Pairs}
    (hall : ∀ header ∈ headers, Http.lower header.1 ≠ Http.lower name) :
    Http.field name headers = none := by
  rw [Http.field, List.find?_eq_none.mpr fun header hmem => by simpa using hall header hmem]
  rfl

/-- A content that is not empty has its length given. -/
theorem exists_length (horder : ∀ map, (order map).Perm map) (hpos : 0 < request.content.length) :
    ∃ header ∈ sentHeaders order client request ++ lengthHeaders (headerMap client request) request,
      header.1 = ascii "Content-Length" := by
  by_cases hgiven :
      ((headerMap client request).map Prod.fst).contains (ascii "Content-Length") = true
  · obtain ⟨header, hmem, hname⟩ := List.mem_map.mp (List.contains_iff_mem.mp hgiven)
    exact ⟨header, List.mem_append_left _ (List.mem_append_left _ ((horder _).mem_iff.mpr hmem)),
      hname⟩
  · refine ⟨(ascii "Content-Length", Json.digits request.content.length), ?_, rfl⟩
    rw [lengthHeaders, if_pos ⟨Or.inl hpos, hgiven⟩]
    exact List.mem_append_right _ List.mem_cons_self

theorem bodyLength_eq (h : AllSendable client request) (horder : ∀ map, (order map).Perm map)
    (endpoint : Endpoint) :
    Http.bodyLength ((ascii "Host", endpoint.name) :: (sentHeaders order client request
      ++ lengthHeaders (headerMap client request) request)) = some request.content.length := by
  have hsendable := @sendable_of_mem client request order h horder
  have hwhole : Http.field (ascii "Transfer-Encoding") ((ascii "Host", endpoint.name)
      :: (sentHeaders order client request ++ lengthHeaders (headerMap client request) request))
        = none := by
    apply field_eq_none
    intro header hmem
    rcases List.mem_cons.mp hmem with rfl | hmem
    · show Http.lower (ascii "Host") ≠ _
      decide
    · exact (hsendable hmem).whole
  have hvalue : ∀ header ∈ (ascii "Host", endpoint.name)
      :: (sentHeaders order client request ++ lengthHeaders (headerMap client request) request),
      Http.lower header.1 = Http.lower (ascii "Content-Length") →
        header.2 = Json.digits request.content.length := by
    intro header hmem heq
    rcases List.mem_cons.mp hmem with rfl | hmem
    · revert heq
      show Http.lower (ascii "Host") = _ → _
      intro heq
      exact absurd heq (by decide)
    · rw [(hsendable hmem).length heq]
  rw [Http.bodyLength, hwhole]
  by_cases hlength : ∃ header ∈ (ascii "Host", endpoint.name)
      :: (sentHeaders order client request ++ lengthHeaders (headerMap client request) request),
      Http.lower header.1 = Http.lower (ascii "Content-Length")
  · rw [field_eq hvalue hlength]
    exact Decimal.read_digits _
  · have hempty : request.content.length = 0 := by
      by_contra hne
      apply hlength
      obtain ⟨header, hmem, hname⟩ := exists_length horder (Nat.pos_of_ne_zero hne)
      exact ⟨header, List.mem_cons_of_mem _ hmem, by rw [hname]⟩
    rw [field_eq_none fun header hmem heq => hlength ⟨header, hmem, heq⟩, hempty]

theorem forall_readAs {headers : Pairs} (h : ∀ header ∈ headers, Http.Plain header) :
    List.Forall₂ Http.ReadAs (headers.map fieldLine) headers := by
  rw [List.forall₂_map_left_iff, List.forall₂_same]
  exact fun header hmem => (h header hmem).readAs

theorem requestLine_plain (hpath : ∀ c ∈ request.path, Uri.isPathCharacter c = true) :
    Http.RequestLine (methodName request.type) (target request) := by
  have hmethod : methodName request.type ≠ []
      ∧ (methodName request.type).all Http.isToken = true := by
    cases request.type <;> decide
  have htarget {c : UInt8} (hc : c ∈ target request) : c ≠ 0x20 ∧ c ≠ 0x0D := by
    rcases List.mem_cons.mp hc with rfl | hc
    · decide
    · exact (Uri.pathCharacter_cases (hpath c hc)).2.2
  exact ⟨hmethod.1, hmethod.2, List.cons_ne_nil _ _, fun hmem => (htarget hmem).1 rfl,
    fun hmem => (htarget hmem).2 rfl⟩

/-- What a server reads of a request, and of what follows it: with parameters nothing. -/
theorem read_requestText (endpoint : Endpoint) (hhost : client.host = endpoint.text)
    (horder : ∀ map, (order map).Perm map)
    (hpath : ∀ c ∈ request.path, Uri.isPathCharacter c = true)
    (hheaders : AllSendable client request) (rest : Bytes) :
    ∃ text, client.requestText order request = some text
      ∧ Http.read (text ++ rest) = if request.params = [] then
          some (⟨methodName request.type, target request, (ascii "Host", endpoint.name)
            :: (sentHeaders order client request
              ++ lengthHeaders (headerMap client request) request),
            request.content⟩, rest)
        else none := by
  have hsendable := @sendable_of_mem client request order hheaders horder
  have hrequestLine := requestLine_plain hpath
  refine ⟨_, requestText_eq client endpoint hhost order request hpath, ?_⟩
  split
  · next hnil =>
      have hlines : List.Forall₂ Http.ReadAs ((ascii "Host:" ++ endpoint.name)
          :: (sentHeaders order client request
            ++ lengthHeaders (headerMap client request) request).map fieldLine)
          ((ascii "Host", endpoint.name) :: (sentHeaders order client request
            ++ lengthHeaders (headerMap client request) request)) :=
        .cons (readAs_host endpoint) (forall_readAs fun header hmem => (hsendable hmem).plain)
      have hread := hrequestLine.read_append hlines (bodyLength_eq hheaders horder endpoint) rest
      rw [← hread, hnil]
      simp only [requestLine, lineTexts, List.map_append, List.flatMap_append, List.flatMap_cons,
        List.append_assoc, List.cons_append]
      rfl
  · next hne =>
      have hlines : List.Forall₂ Http.ReadAs ((ascii "Host:" ++ endpoint.name)
          :: (sentHeaders order client request).map fieldLine)
          ((ascii "Host", endpoint.name) :: sentHeaders order client request) :=
        .cons (readAs_host endpoint) (forall_readAs fun header hmem =>
          (hsendable (List.mem_append_left _ hmem)).plain)
      obtain ⟨text, htext⟩ := toParam_question hne
      have hread := hrequestLine.read_eq (lineTexts ((ascii "Host:" ++ endpoint.name)
        :: (sentHeaders order client request).map fieldLine) ++ (Login.Net.toParam request.params
          ++ (lineTexts ((lengthHeaders (headerMap client request) request).map fieldLine)
            ++ (Http.crlf ++ (request.content ++ rest)))))
      rw [htext, lineTexts, List.cons_append,
        Http.readHeaders_eq_none hlines (readHeaders_question _)] at hread
      refine Eq.trans (congrArg Http.read ?_) hread
      simp only [requestLine, lineTexts, htext, List.append_assoc, List.cons_append]

theorem contains_headerMap (name : Bytes) :
    ((headerMap client request).map Prod.fst).contains name = true
      ↔ (lastValue name (given client request)).isSome = true := by
  rw [List.contains_iff_mem, List.mem_map, Option.isSome_iff_exists]
  constructor
  · rintro ⟨⟨name, value⟩, hmem, rfl⟩
    exact ⟨value, ((headerMap_holds client request).mem_iff _ _).mp hmem⟩
  · rintro ⟨value, hvalue⟩
    exact ⟨(name, value), ((headerMap_holds client request).mem_iff _ _).mpr hvalue, rfl⟩

theorem isTaken_of_mem_given {header : Bytes × Bytes} (h : header ∈ given client request) :
    isTaken header = true := by
  rcases List.mem_append.mp h with htaken | htype
  · exact (List.mem_filter.mp htaken).2
  · split at htype
    · cases htype
    · rw [List.mem_singleton.mp htype]
      rfl

theorem lastValue_host : lastValue (ascii "Host") (given client request) = none := by
  cases hvalue : lastValue (ascii "Host") (given client request) with
  | none => rfl
  | some value =>
      have htaken := isTaken_of_mem_given (mem_of_lastValue hvalue)
      simp [isTaken] at htaken

/-- The value of a field: the one that was set last, or one that the client adds. -/
def HeaderSent (endpoint : Endpoint) (client : CoroHttpClient) (request : Request)
    (name value : Bytes) : Prop :=
  if name = ascii "Host" then value = endpoint.name
  else match lastValue name (given client request) with
    | some last => value = last
    | none => (name = ascii "Connection" ∧ value = ascii "keep-alive")
        ∨ (name = ascii "Content-Length" ∧ value = Json.digits request.content.length
          ∧ (0 < request.content.length ∨ request.type = .post))

theorem mem_connectionHeaders (name value : Bytes) :
    (name, value) ∈ connectionHeaders (headerMap client request)
      ↔ name = ascii "Connection" ∧ value = ascii "keep-alive"
        ∧ lastValue name (given client request) = none := by
  have hcontains := @contains_headerMap client request (ascii "Connection")
  unfold connectionHeaders
  split
  · next hgiven =>
      refine iff_of_false List.not_mem_nil ?_
      rintro ⟨rfl, -, hnone⟩
      rw [hnone] at hcontains
      exact Bool.false_ne_true (hcontains.mp hgiven)
  · next hgiven =>
      rw [hcontains, Option.not_isSome_iff_eq_none] at hgiven
      rw [List.mem_singleton, Prod.mk.injEq]
      constructor
      · rintro ⟨rfl, rfl⟩
        exact ⟨rfl, rfl, hgiven⟩
      · exact fun h => ⟨h.1, h.2.1⟩

theorem mem_lengthHeaders (name value : Bytes) :
    (name, value) ∈ lengthHeaders (headerMap client request) request
      ↔ name = ascii "Content-Length" ∧ value = Json.digits request.content.length
        ∧ (0 < request.content.length ∨ request.type = .post)
        ∧ lastValue name (given client request) = none := by
  have hcontains := @contains_headerMap client request (ascii "Content-Length")
  unfold lengthHeaders
  split
  · next hadded =>
      rw [hcontains, Option.not_isSome_iff_eq_none] at hadded
      rw [List.mem_singleton, Prod.mk.injEq]
      constructor
      · rintro ⟨rfl, rfl⟩
        exact ⟨rfl, rfl, hadded⟩
      · exact fun h => ⟨h.1, h.2.1⟩
  · next hadded =>
      refine iff_of_false List.not_mem_nil ?_
      rintro ⟨rfl, -, hlength, hnone⟩
      rw [hcontains, hnone] at hadded
      exact hadded ⟨hlength, Bool.false_ne_true⟩

theorem mem_headers_iff (horder : ∀ map, (order map).Perm map) (endpoint : Endpoint)
    (name value : Bytes) :
    (name, value) ∈ (ascii "Host", endpoint.name) :: (sentHeaders order client request
        ++ lengthHeaders (headerMap client request) request)
      ↔ HeaderSent endpoint client request name value := by
  have hmap : (name, value) ∈ order (headerMap client request)
      ↔ lastValue name (given client request) = some value :=
    (horder _).mem_iff.trans ((headerMap_holds client request).mem_iff name value)
  rw [List.mem_cons, List.mem_append, sentHeaders, List.mem_append, hmap, mem_connectionHeaders,
    mem_lengthHeaders, Prod.mk.injEq, HeaderSent]
  by_cases hhost : name = ascii "Host"
  · have hother : ascii "Host" ≠ ascii "Connection" ∧ ascii "Host" ≠ ascii "Content-Length" := by
      decide
    rw [if_pos hhost, hhost, lastValue_host]
    simp only [hother.1, hother.2, true_and, false_and, or_false, reduceCtorEq]
  · rw [if_neg hhost]
    cases lastValue name (given client request) with
    | none => simp only [hhost, reduceCtorEq, false_and, false_or, and_true]
    | some last =>
        simp only [hhost, reduceCtorEq, false_and, false_or, and_false, or_false, Option.some.injEq]
        exact eq_comm

/-- A server reads a request that has no parameters as it was meant, with the headers that were set
last, and is left with what follows. Parameters are written between the headers: a request with any
cannot be read. -/
theorem request_read (endpoint : Endpoint) (hhost : client.host = endpoint.text)
    (horder : ∀ map, (order map).Perm map)
    (hpath : ∀ c ∈ request.path, Uri.isPathCharacter c = true)
    (hheaders : AllSendable client request) (rest : Bytes) :
    ∃ text, client.requestText order request = some text
      ∧ (request.params ≠ [] → Http.read (text ++ rest) = none)
      ∧ (request.params = [] → ∃ headers, Http.read (text ++ rest)
          = some (⟨methodName request.type, target request, headers, request.content⟩, rest)
        ∧ ∀ name value, (name, value) ∈ headers
          ↔ HeaderSent endpoint client request name value) := by
  obtain ⟨text, htext, hread⟩ := read_requestText endpoint hhost horder hpath hheaders rest
  refine ⟨text, htext, fun hne => ?_, fun hnil => ?_⟩
  · rw [hread, if_neg hne]
  · rw [if_pos hnil] at hread
    exact ⟨_, hread, mem_headers_iff horder endpoint⟩

theorem request_read_example :
    ∃ text, CoroHttpClient.requestText ⟨ascii "a.com:80", true, [(ascii "X", ascii "1")], []⟩ id
        ⟨.post, ascii "v1/login", [(ascii "X", ascii "2")], [], ascii "body", .json⟩ = some text
      ∧ ∃ headers, Http.read (text ++ [0x21])
          = some (⟨ascii "POST", ascii "/v1/login", headers, ascii "body"⟩, [0x21])
        ∧ ∀ value, (ascii "X", value) ∈ headers ↔ value = ascii "2" := by
  let client : CoroHttpClient := ⟨ascii "a.com:80", true, [(ascii "X", ascii "1")], []⟩
  let request : Request :=
    ⟨.post, ascii "v1/login", [(ascii "X", ascii "2")], [], ascii "body", .json⟩
  have hheaders : AllSendable client request := by
    intro header hmem _
    have hcases : header = (ascii "X", ascii "1") ∨ header = (ascii "X", ascii "2") := by
      simpa [client, request] using hmem
    rcases hcases with rfl | rfl <;>
      exact sendable_of_ordinary (by decide) (by decide) (by decide)
  obtain ⟨text, htext, -, hread⟩ := @request_read client request id
    ⟨ascii "a.com", ascii "80", List.all_eq_true.mp rfl, List.all_eq_true.mp rfl⟩ rfl
    (fun map => List.Perm.refl map) (List.all_eq_true.mp rfl) hheaders [0x21]
  obtain ⟨headers, hread, hheader⟩ := hread rfl
  have hlast : lastValue (ascii "X") (given client request) = some (ascii "2") := by decide
  refine ⟨text, htext, headers, hread, fun value => ?_⟩
  rw [hheader, HeaderSent, if_neg (by decide), hlast]

/-! ### Looking a field up -/

/-- The names that a request may have besides those it is given. -/
def addedNames : List Bytes :=
  [ascii "Host", ascii "Content-Type", ascii "Connection", ascii "Content-Length"]

theorem HeaderSent.mem_names {endpoint : Endpoint} {name value : Bytes} {names : List Bytes}
    (h : HeaderSent endpoint client request name value)
    (hgiven : ∀ header ∈ client.commonHeaders ++ request.headers, header.1 ∈ names) :
    name ∈ names ++ addedNames := by
  unfold HeaderSent at h
  split at h
  · next hhost =>
      rw [hhost]
      exact List.mem_append_right _ (by decide)
  · cases hlast : lastValue name (given client request) with
    | some last =>
        rcases List.mem_append.mp (mem_of_lastValue hlast) with htaken | htype
        · exact List.mem_append_left _ (hgiven _ (List.mem_filter.mp htaken).1)
        · split at htype
          · cases htype
          · rw [(Prod.mk.inj (List.mem_singleton.mp htype)).1]
            exact List.mem_append_right _ (by decide)
    | none =>
        rw [hlast] at h
        rcases h with ⟨rfl, -⟩ | ⟨rfl, -⟩ <;> exact List.mem_append_right _ (by decide)

theorem HeaderSent.unique {endpoint : Endpoint} {name value other : Bytes}
    (h : HeaderSent endpoint client request name value)
    (hother : HeaderSent endpoint client request name other) : value = other := by
  unfold HeaderSent at h hother
  split at h
  · next hhost =>
      rw [if_pos hhost] at hother
      rw [h, hother]
  · next hhost =>
      rw [if_neg hhost] at hother
      cases hlast : lastValue name (given client request) with
      | some last =>
          rw [hlast] at h hother
          rw [h, hother]
      | none =>
          rw [hlast] at h hother
          have hne : ascii "Connection" ≠ ascii "Content-Length" := by decide
          grind

theorem lastValue_of_mem {name value : Bytes} {headers : Pairs}
    (hnodup : (headers.map Prod.fst).Nodup) (hmem : (name, value) ∈ headers) :
    lastValue name headers = some value := by
  have hinj := List.inj_on_of_nodup_map hnodup
  cases hfind : headers.reverse.find? fun header => header.1 = name with
  | none =>
      have hnone := List.find?_eq_none.mp hfind (name, value) (List.mem_reverse.mpr hmem)
      exact absurd (decide_eq_true rfl) hnone
  | some found =>
      have hname := List.find?_some hfind
      rw [decide_eq_true_eq] at hname
      have heq := hinj (List.mem_reverse.mp (List.mem_of_find?_eq_some hfind)) hmem hname
      rw [lastValue, hfind, heq]
      rfl

/-- A field is found by its name, when no two names differ in their case only. -/
theorem field_of_sent {endpoint : Endpoint} {headers : Pairs} {names : List Bytes}
    {name value : Bytes}
    (hmem : ∀ name value, (name, value) ∈ headers ↔ HeaderSent endpoint client request name value)
    (hgiven : ∀ header ∈ client.commonHeaders ++ request.headers, header.1 ∈ names)
    (hnames : ∀ first ∈ names ++ addedNames, ∀ second ∈ names ++ addedNames,
      Http.lower first = Http.lower second → first = second)
    (hsent : HeaderSent endpoint client request name value) :
    Http.field name headers = some value := by
  refine field_eq (fun header hheader heq => ?_) ⟨(name, value), (hmem name value).mpr hsent, rfl⟩
  have hother := (hmem header.1 header.2).mp hheader
  have hname : header.1 = name := hnames _ (hother.mem_names hgiven) _ (hsent.mem_names hgiven) heq
  rw [hname] at hother
  exact hother.unique hsent

end Reading

end TapSdk.Net
