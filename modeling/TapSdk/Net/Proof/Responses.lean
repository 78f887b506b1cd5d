import TapSdk.Net.Proof.Response

/-!
# One client and many responses

The buffers of a client outlive its requests. Whole responses leave nothing behind, but the memory
of their contents may double every time; a head that cannot be parsed is found again by every later
request; and the length of a content is trusted when it is negative.
-/

namespace TapSdk.Net

open Library

variable {realloc : Nat → Bool} {reader : Reader} {pieces : List Bytes} {timeout : Bool}

theorem receiveAll_cons (exchange : Bool × List Bytes) (exchanges : List (Bool × List Bytes)) :
    reader.receiveAll realloc (exchange :: exchanges)
      = ((reader.receive realloc exchange.1 exchange.2).1
          :: ((reader.receive realloc exchange.1 exchange.2).2.receiveAll realloc exchanges).1,
        ((reader.receive realloc exchange.1 exchange.2).2.receiveAll realloc exchanges).2) := rfl

/-! ### Whole responses -/

/-- A response, and the pieces in which it comes. -/
structure Delivered (exchange : Http.Response × List Bytes) : Prop where
  readable : Readable exchange.1
  whole : exchange.2.flatten = exchange.1.text

def IsRead (exchange : Http.Response × List Bytes) (outcome : Except Fatal RespData) : Prop :=
  ∃ data, outcome = .ok data ∧ data.Says exchange.1

/-- In time. -/
def deliveries (exchanges : List (Http.Response × List Bytes)) : List (Bool × List Bytes) :=
  exchanges.map fun exchange => (false, exchange.2)

theorem valid_bodyAfter (hrealloc : SimpleBuffer.Allocator realloc) {body after : SimpleBuffer}
    (h : body.Valid) {response : Http.Response}
    (hafter : bodyAfter realloc body response = some after) : after.Valid := by
  unfold bodyAfter at hafter
  split at hafter
  · split at hafter
    · cases hafter
      exact h
    · exact h.init hrealloc hafter
  · cases hafter
    exact h

/-- The contents are read as long as there is memory for them, and no longer. -/
theorem receiveAll_delivered (hrealloc : SimpleBuffer.Allocator realloc) {body : SimpleBuffer}
    (hbody : body.Valid) {exchanges : List (Http.Response × List Bytes)}
    (h : ∀ exchange ∈ exchanges, Delivered exchange) :
    match exchanges.foldlM (fun body exchange => bodyAfter realloc body exchange.1) body with
    | none => .error .badAlloc ∈ (Reader.receiveAll realloc ⟨[], body⟩ (deliveries exchanges)).1
    | some after => ∃ outcomes, Reader.receiveAll realloc ⟨[], body⟩ (deliveries exchanges)
        = (outcomes, ⟨[], after⟩)
        ∧ List.Forall₂ IsRead exchanges outcomes := by
  induction exchanges generalizing body with
  | nil => exact ⟨[], rfl, .nil⟩
  | cons exchange exchanges ih =>
      rw [List.forall_mem_cons] at h
      have hpieces : ([] : Bytes) ++ exchange.2.flatten = exchange.1.text ++ [] := by
        rw [List.nil_append, List.append_nil, h.1.whole]
      have hfirst := @receive_response realloc ⟨[], body⟩ hbody _ h.1.readable _ _ hpieces
      rw [List.foldlM_cons]
      cases hafter : bodyAfter realloc body exchange.1 with
      | none =>
          rw [hafter] at hfirst
          obtain ⟨left, hleft⟩ := hfirst
          show Except.error Fatal.badAlloc
            ∈ (Reader.receiveAll realloc ⟨[], body⟩ (deliveries (exchange :: exchanges))).1
          rw [deliveries, List.map_cons, Reader.receiveAll, hleft]
          exact List.mem_cons_self
      | some after =>
          rw [hafter] at hfirst
          obtain ⟨data, left, hdata, hsays, hprefix⟩ := hfirst
          obtain rfl := List.prefix_nil.mp hprefix
          have hrest := ih (valid_bodyAfter hrealloc hbody hafter) h.2
          rw [Option.bind_eq_bind, Option.bind_some, deliveries, List.map_cons,
            Reader.receiveAll, hdata]
          cases hlast :
            exchanges.foldlM (fun body exchange => bodyAfter realloc body exchange.1) after with
          | none =>
              rw [hlast] at hrest
              exact List.mem_cons_of_mem _ hrest
          | some last =>
              rw [hlast] at hrest
              obtain ⟨outcomes, houtcomes, hall⟩ := hrest
              rw [deliveries] at houtcomes
              exact ⟨.ok data :: outcomes, by simp only [houtcomes], .cons ⟨data, rfl, hsays⟩ hall⟩

/-! ### The memory of contents -/

/-- The lengths of the contents for which `body_` is used. -/
def contentLens (exchanges : List (Http.Response × List Bytes)) : List Nat :=
  exchanges.filterMap fun exchange =>
    match exchange.1.framing with
    | .length content => if content = [] then none else some content.length
    | _ => none

theorem contentLens_pos {exchanges : List (Http.Response × List Bytes)} :
    ∀ len ∈ contentLens exchanges, 0 < len := by
  intro len hlen
  obtain ⟨exchange, -, hexchange⟩ := List.mem_filterMap.mp hlen
  split at hexchange
  · split at hexchange
    · cases hexchange
    · next hne =>
        cases hexchange
        exact List.length_pos_of_ne_nil hne
  · cases hexchange

theorem foldlM_bodyAfter (exchanges : List (Http.Response × List Bytes)) (body : SimpleBuffer) :
    exchanges.foldlM (fun body exchange => bodyAfter realloc body exchange.1) body
      = (contentLens exchanges).foldlM (SimpleBuffer.init realloc) body := by
  induction exchanges generalizing body with
  | nil => rfl
  | cons exchange exchanges ih =>
      rw [List.foldlM_cons, contentLens, List.filterMap_cons, bodyAfter]
      cases hframing : exchange.1.framing with
      | none => exact ih body
      | chunked chunks last => exact ih body
      | length content =>
          by_cases hnil : content = []
          · simp only [if_pos hnil]
            exact ih body
          · simp only [if_neg hnil, List.foldlM_cons]
            congr 1
            funext after
            exact ih after

/-- How often the memory is doubled: with every content from the first on that does not fit beside
the one before. -/
def doublings (previous : Nat) : List Nat → Nat
  | [] => 0
  | len :: rest => if previous + len ≤ 4096 then doublings len rest else rest.length + 1

def capacityAfter : Nat → Nat
  | 0 => 4096
  | count + 1 => 2 * capacityAfter count

/-- Memory that was asked for, all of it taken for used. -/
structure Grown (realloc : Nat → Bool) (body : SimpleBuffer) : Prop where
  valid : body.Valid
  full : body.size = body.allocSize
  given : realloc body.allocSize = true

theorem two_mul_le_nsize {body : SimpleBuffer} (h : body.Valid) (hpositive : 0 < body.allocSize)
    (len : Nat) :
    2 * body.allocSize ≤ body.nsize len := by
  have hsmall := h.allocSize_lt
  have hword : body.allocSize * 2 % wordSize = body.allocSize * 2 :=
    Nat.mod_eq_of_lt (by unfold wordSize; omega)
  rw [SimpleBuffer.nsize, if_pos hpositive, hword, Nat.mul_comm 2]
  exact SimpleBuffer.start_le_enlarge _ _

/-- A content for which there is no room beside the one before. -/
theorem grown_init (hrealloc : SimpleBuffer.Allocator realloc) {body after : SimpleBuffer}
    (h : body.Valid) (hpositive : 0 < body.allocSize) {len : Nat}
    (hlen : body.allocSize < body.size + len) (hinit : body.init realloc len = some after) :
    Grown realloc after ∧ 2 * body.allocSize ≤ after.allocSize := by
  have hsize := h.size_le
  rcases SimpleBuffer.init_cases hinit with ⟨hfits, -⟩ | ⟨-, hgiven, rfl⟩
  · omega
  · exact ⟨⟨h.init hrealloc hinit, rfl, hgiven⟩, two_mul_le_nsize h hpositive len⟩

theorem grown_run (hrealloc : SimpleBuffer.Allocator realloc) {lens : List Nat}
    (hlens : ∀ len ∈ lens, 0 < len) {body after : SimpleBuffer} (h : Grown realloc body)
    {count : Nat} (hcount : capacityAfter count ≤ body.allocSize) (hpositive : 0 < body.allocSize)
    (hrun : lens.foldlM (SimpleBuffer.init realloc) body = some after) :
    Grown realloc after ∧ capacityAfter (lens.length + count) ≤ after.allocSize := by
  induction lens generalizing body count with
  | nil =>
      cases hrun
      rw [List.length_nil, Nat.zero_add]
      exact ⟨h, hcount⟩
  | cons len lens ih =>
      rw [List.forall_mem_cons] at hlens
      rw [List.foldlM_cons] at hrun
      obtain ⟨next, hnext, hrest⟩ := Option.bind_eq_some_iff.mp hrun
      obtain ⟨hgrown, hdouble⟩ := grown_init hrealloc h.valid hpositive
        (by have hfull := h.full; have hlen := hlens.1; omega) hnext
      have hcapacity : capacityAfter (count + 1) ≤ next.allocSize := by
        rw [capacityAfter]
        omega
      rw [List.length_cons, Nat.succ_add_eq_add_succ]
      exact ih hlens.2 hgrown hcapacity (by omega) hrest

/-- The memory is doubled so often, or not at all. -/
theorem small_run (hrealloc : SimpleBuffer.Allocator realloc) {lens : List Nat}
    (hlens : ∀ len ∈ lens, 0 < len) {previous : Nat} (hprevious : previous ≤ 4096) :
    (doublings previous lens = 0 → ∃ size, size ≤ 4096
        ∧ lens.foldlM (SimpleBuffer.init realloc) ⟨previous, 4096⟩ = some ⟨size, 4096⟩)
      ∧ ∀ after, 0 < doublings previous lens →
        lens.foldlM (SimpleBuffer.init realloc) ⟨previous, 4096⟩ = some after →
        Grown realloc after ∧ capacityAfter (doublings previous lens) ≤ after.allocSize := by
  have hvalid : SimpleBuffer.Valid ⟨previous, 4096⟩ :=
    ⟨hprevious, by show 4096 < 9223372036854775808; decide⟩
  induction lens generalizing previous with
  | nil =>
      exact ⟨fun _ => ⟨previous, hprevious, rfl⟩,
        fun _ hpositive => absurd hpositive (Nat.lt_irrefl 0)⟩
  | cons len lens ih =>
      rw [List.forall_mem_cons] at hlens
      rw [doublings, List.foldlM_cons]
      by_cases hfits : previous + len ≤ 4096
      · have hroom : len ≤ 4096 - previous := by omega
        have hinit : SimpleBuffer.init realloc ⟨previous, 4096⟩ len
            = some ⟨len, 4096⟩ := if_pos hroom
        rw [if_pos hfits, hinit]
        have hlen : len ≤ 4096 := Nat.le_trans hroom (Nat.sub_le _ _)
        exact ih hlens.2 hlen ⟨hlen, hvalid.allocSize_lt⟩
      · rw [if_neg hfits]
        refine ⟨fun hzero => absurd hzero (Nat.succ_ne_zero _), fun after _ hrun => ?_⟩
        obtain ⟨next, hnext, hrest⟩ := Option.bind_eq_some_iff.mp hrun
        obtain ⟨hgrown, hdouble⟩ := grown_init hrealloc hvalid (by decide : 0 < 4096)
          (Nat.lt_of_not_le hfits) hnext
        have hlarge : 2 * 4096 ≤ next.allocSize := hdouble
        exact grown_run hrealloc hlens.2 hgrown hlarge (by omega) hrest

/-- **Every content doubles the memory** from the first on that does not fit beside the one before
it, however small it is. Until then all the responses are read without any memory being asked for;
after that one of them is lost as soon as the memory that was to be doubled is more than there
is. -/
theorem contents_double (hrealloc : SimpleBuffer.Allocator realloc)
    {exchanges : List (Http.Response × List Bytes)}
    (h : ∀ exchange ∈ exchanges, Delivered exchange) :
    (doublings 0 (contentLens exchanges) = 0 →
        List.Forall₂ IsRead exchanges
          (Reader.receiveAll realloc Reader.new (deliveries exchanges)).1)
      ∧ ∀ limit, (∀ size, realloc size = true → size ≤ limit) →
        0 < doublings 0 (contentLens exchanges) →
        limit < capacityAfter (doublings 0 (contentLens exchanges)) →
          .error .badAlloc ∈ (Reader.receiveAll realloc Reader.new (deliveries exchanges)).1 := by
  have hread := receiveAll_delivered hrealloc SimpleBuffer.valid_new h
  obtain ⟨hsmall, hgrown⟩ := small_run hrealloc (@contentLens_pos exchanges) (Nat.zero_le 4096)
  have hnew : SimpleBuffer.new = ⟨0, 4096⟩ := rfl
  rw [foldlM_bodyAfter, hnew] at hread
  constructor
  · intro hzero
    obtain ⟨size, -, hrun⟩ := hsmall hzero
    rw [hrun] at hread
    obtain ⟨outcomes, houtcomes, hall⟩ := hread
    rw [Reader.new, hnew, houtcomes]
    exact hall
  · intro limit hlimit hpositive hless
    cases hrun : (contentLens exchanges).foldlM (SimpleBuffer.init realloc) ⟨0, 4096⟩ with
    | none =>
        rw [hrun] at hread
        exact hread
    | some after =>
        obtain ⟨hafter, hcapacity⟩ := hgrown after hpositive hrun
        have hle := hlimit after.allocSize hafter.given
        omega

/-- A response with a short content. -/
def hello : Http.Response :=
  ⟨0x31, ascii "200", ascii "OK", [⟨ascii "Content-Length", ascii " ", ascii "5"⟩],
    .length (ascii "hello")⟩

theorem readable_hello : Readable hello where
  wellFormed :=
    { minor := rfl
      length_code := rfl
      code := rfl
      reason := rfl
      fields := List.forall_mem_singleton.mpr ⟨List.cons_ne_nil _ _, rfl, rfl, rfl, rfl⟩
      framed := ⟨by decide, by decide⟩ }
  room := by decide
  lengths := (by decide : 5 < 2147483648)

theorem contents_double_hello :
    List.Forall₂ IsRead [(hello, [hello.text]), (hello, [hello.text])]
      (Reader.receiveAll (fun _ => false) Reader.new
        (deliveries [(hello, [hello.text]), (hello, [hello.text])])).1 := by
  have hdelivered : Delivered (hello, [hello.text]) := ⟨readable_hello, List.flatten_singleton⟩
  refine (contents_double (fun _ h => absurd h Bool.false_ne_true) ?_).1 (by decide)
  exact List.forall_mem_cons.mpr ⟨hdelivered, List.forall_mem_singleton.mpr hdelivered⟩

/-! ### A head that cannot be parsed -/

/-- How a request ends whose response has such a head. -/
def RespData.unparsed (timeout : Bool) : RespData :=
  handleResult RespData.empty (some (if timeout then .timedOut else .protocolError))

/-- The buffer begins with a whole head, and it cannot be parsed. -/
def Stuck (readBuf : Bytes) : Prop :=
  ∃ size, markEnd (Http.crlf ++ Http.crlf) readBuf = some size
    ∧ parseResponse (readBuf.take size) = none

theorem receive_stuck (h : Stuck reader.readBuf) (timeout : Bool) (pieces : List Bytes) :
    reader.receive realloc timeout pieces = (.ok (RespData.unparsed timeout), reader) := by
  obtain ⟨size, hmark, hparse⟩ := h
  have hread : (⟨reader.readBuf, pieces⟩ : Inflow).readUntil (Http.crlf ++ Http.crlf)
      = (some size, ⟨reader.readBuf, pieces⟩) := Inflow.readUntil_buffered hmark
  simp only [Reader.receive, handleRead, hread, hparse]
  cases timeout <;> rfl

theorem receiveAll_stuck (h : Stuck reader.readBuf) (exchanges : List (Bool × List Bytes)) :
    reader.receiveAll realloc exchanges
      = (exchanges.map fun exchange => .ok (RespData.unparsed exchange.1), reader) := by
  induction exchanges with
  | nil => rfl
  | cons exchange exchanges ih =>
      rw [receiveAll_cons, receive_stuck h, ih]
      rfl

/-- **A client does not recover.** When what it has and receives begins with a head that cannot be
parsed, this request and every later one end in the same error, whatever the servers answer. -/
theorem unparsable_forever {size : Nat}
    (hmark : markEnd (Http.crlf ++ Http.crlf) (reader.readBuf ++ pieces.flatten) = some size)
    (hparse : parseResponse ((reader.readBuf ++ pieces.flatten).take size) = none) (timeout : Bool)
    (later : List (Bool × List Bytes)) :
    (reader.receiveAll realloc ((timeout, pieces) :: later)).1
      = ((timeout, pieces) :: later).map fun exchange => .ok (RespData.unparsed exchange.1) := by
  obtain ⟨left, hleft, hall, hbuffered⟩ := @Inflow.readUntil_some _ _ ⟨reader.readBuf, pieces⟩ hmark
  have htake : left.buffer.take size = (reader.readBuf ++ pieces.flatten).take size := by
    rw [Inflow.take_buffer hbuffered, hall]
    rfl
  have hstuck : Stuck left.buffer :=
    ⟨size, Inflow.markEnd_receiveUntil hleft, by rw [htake]; exact hparse⟩
  have hfirst : reader.receive realloc timeout pieces
      = (.ok (RespData.unparsed timeout), ⟨left.buffer, reader.body⟩) := by
    simp only [Reader.receive, handleRead, hleft, htake, hparse]
    cases timeout <;> rfl
  rw [receiveAll_cons, hfirst, receiveAll_stuck hstuck]
  rfl

theorem unparsable_forever_hello :
    (Reader.new.receiveAll (fun _ => true) [(false, [ascii "HTTP/2 200\r\n\r\n"]),
      (false, [hello.text])]).1
      = [.ok (RespData.unparsed false), .ok (RespData.unparsed false)] :=
  @unparsable_forever (fun _ => true) Reader.new [ascii "HTTP/2 200\r\n\r\n"] 14 (by decide)
    (by decide) false
    [(false, [hello.text])]

/-! ### A length that is negative -/

theorem bodyLen_lt (head : Head) : head.bodyLen < 2147483648 := by
  unfold Head.bodyLen
  dsimp only
  split
  · decide
  · exact Int.bmod_lt (by decide)

theorem toSize_lt {value : Int} (hnonneg : 0 ≤ value) (hlt : value < 2147483648) :
    toSize value < 9223372036854775808 := by
  have hmod : value % (wordSize : Int) = value :=
    Int.emod_eq_of_lt hnonneg (by unfold wordSize; omega)
  unfold toSize
  rw [hmod]
  omega

theorem readContent_ne_overflow {body : SimpleBuffer} (h : body.Valid) (data : RespData)
    {contentLen : Nat} (hlen : contentLen < 9223372036854775808) (inflow : Inflow) :
    (readContent realloc data contentLen body inflow).1 ≠ .error .overflow := by
  unfold readContent
  split
  · nofun
  · cases hinit : body.init realloc contentLen with
    | none => nofun
    | some after =>
        have hroom := h.le_allocSize hinit hlen
        dsimp only
        split
        · next hover =>
            rw [List.length_take] at hover
            omega
        · split <;> nofun

theorem valid_readContent (hrealloc : SimpleBuffer.Allocator realloc) {body : SimpleBuffer}
    (h : body.Valid) (data : RespData) (contentLen : Nat) (inflow : Inflow) :
    (readContent realloc data contentLen body inflow).2.body.Valid := by
  unfold readContent
  split
  · exact h
  · cases hinit : body.init realloc contentLen with
    | none => exact h
    | some after =>
        have hafter := h.init hrealloc hinit
        dsimp only
        split
        · exact hafter
        · split <;> exact hafter

theorem valid_handleRead (hrealloc : SimpleBuffer.Allocator realloc) {body : SimpleBuffer}
    (h : body.Valid) (inflow : Inflow) :
    (handleRead realloc body inflow).2.body.Valid := by
  unfold handleRead
  split
  · exact h
  · split
    · exact h
    · unfold readBody
      split
      · exact h
      · exact valid_readContent hrealloc h _ _ _

theorem snd_receive (timeout : Bool) (pieces : List Bytes) :
    (reader.receive realloc timeout pieces).2
      = (handleRead realloc reader.body ⟨reader.readBuf, pieces⟩).2 := by
  unfold Reader.receive
  split
  · next hread => rw [hread]
  · next hread => rw [hread]

theorem valid_receiveAll (hrealloc : SimpleBuffer.Allocator realloc) (h : reader.body.Valid)
    (exchanges : List (Bool × List Bytes)) :
    (reader.receiveAll realloc exchanges).2.body.Valid := by
  induction exchanges generalizing reader with
  | nil => exact h
  | cons exchange exchanges ih =>
      rw [receiveAll_cons]
      apply ih
      rw [snd_receive]
      exact valid_handleRead hrealloc h _

theorem handleRead_overflow {body : SimpleBuffer} (h : body.Valid) {inflow : Inflow}
    (hover : (handleRead realloc body inflow).1 = .error .overflow) :
    ∃ size head, markEnd (Http.crlf ++ Http.crlf) inflow.all = some size
      ∧ parseResponse (inflow.all.take size) = some head ∧ head.bodyLen < 0 := by
  cases hmark : markEnd (Http.crlf ++ Http.crlf) inflow.all with
  | none =>
      rw [handleRead, Inflow.readUntil_none hmark] at hover
      cases hover
  | some size =>
      obtain ⟨left, hleft, hall, hbuffered⟩ := Inflow.readUntil_some hmark
      have htake : left.buffer.take size = inflow.all.take size := by
        rw [Inflow.take_buffer hbuffered, hall]
      rw [handleRead, hleft] at hover
      dsimp only at hover
      rw [htake] at hover
      cases hparse : parseResponse (inflow.all.take size) with
      | none =>
          rw [hparse] at hover
          cases hover
      | some head =>
          refine ⟨size, head, rfl, hparse, Int.lt_of_not_ge fun hnonneg => ?_⟩
          rw [hparse] at hover
          dsimp only at hover
          unfold readBody at hover
          split at hover
          · cases hover
          · exact readContent_ne_overflow h _ (toSize_lt hnonneg (bodyLen_lt head)) _ hover

def negativeHead : Bytes := ascii "HTTP/1.1 200 OK\r\nContent-Length: -5\r\n\r\n"

theorem init_negative (hgiven : realloc 8192 = true) :
    SimpleBuffer.init realloc ⟨5, 4096⟩ 18446744073709551611 = some ⟨8192, 8192⟩ := by
  have hsize : SimpleBuffer.nsize ⟨5, 4096⟩ 18446744073709551611 = 8192 := by
    have hstart : SimpleBuffer.nsize ⟨5, 4096⟩ 18446744073709551611 = SimpleBuffer.enlarge 0 8192 :=
      rfl
    rw [hstart, SimpleBuffer.enlarge, if_neg (Nat.not_lt_zero _)]
  rw [SimpleBuffer.init, hsize, if_neg (by decide), if_pos hgiven]

/-- The length is added to the five bytes in use, and the sum is nothing. -/
theorem receive_negative (hgiven : realloc 8192 = true) {data : Bytes}
    (hdata : data.length = 8193) :
    (Reader.receive realloc ⟨[], ⟨5, 4096⟩⟩ false [negativeHead ++ data]).1 = .error .overflow := by
  have hhead : markEnd (Http.crlf ++ Http.crlf) negativeHead = some negativeHead.length := by decide
  have hparse : parseResponse negativeHead
      = some ⟨200, [⟨some (ascii "Content-Length"), ascii "-5"⟩]⟩ := by decide
  have hall : (⟨[], [negativeHead ++ data]⟩ : Inflow).all = negativeHead ++ data := by
    rw [Inflow.all, List.flatten_singleton]
    rfl
  have hmark : markEnd (Http.crlf ++ Http.crlf) (⟨[], [negativeHead ++ data]⟩ : Inflow).all
      = some negativeHead.length := by
    rw [hall]
    exact markEnd_append hhead data
  obtain ⟨left, hleft, hsame, hbuffered⟩ := Inflow.readUntil_some hmark
  have htake : left.buffer.take negativeHead.length = negativeHead := by
    rw [Inflow.take_buffer hbuffered, hsame, hall, List.take_left]
  have hrest : (left.consume negativeHead.length).all = data := by
    rw [Inflow.all_consume hbuffered, hsame, hall, List.drop_left]
  generalize hinflow : left.consume negativeHead.length = inflow at hrest
  have hshort : inflow.pieces.flatten.length < 18446744073709551611 - inflow.buffer.length := by
    have hlength := congrArg List.length hrest
    rw [Inflow.all, List.length_append, hdata] at hlength
    omega
  have hplain : Head.isChunked ⟨200, [⟨some (ascii "Content-Length"), ascii "-5"⟩]⟩
      = false := by decide
  have hsize : toSize (Head.bodyLen ⟨200, [⟨some (ascii "Content-Length"), ascii "-5"⟩]⟩)
      = 18446744073709551611 := by decide
  have hover : (readContent realloc
      (RespData.ofHead ⟨200, [⟨some (ascii "Content-Length"), ascii "-5"⟩]⟩) 18446744073709551611
        ⟨5, 4096⟩
      inflow).1 = .error .overflow := by
    have hwritten : (data.take 18446744073709551611).length = 8193 := by
      rw [List.take_of_length_le (by omega), hdata]
    rw [readContent, if_neg (by decide), init_negative hgiven]
    simp only [Inflow.readMore_of_lt hshort, hrest]
    rw [hwritten, if_pos (by decide)]
  have hread : (handleRead realloc ⟨5, 4096⟩ ⟨[], [negativeHead ++ data]⟩).1
      = .error .overflow := by
    rw [handleRead, hleft]
    dsimp only
    rw [htake, hparse, hinflow]
    dsimp only
    rw [readBody, hplain, if_neg Bool.false_ne_true, hsize]
    exact hover
  cases hcase : handleRead realloc ⟨5, 4096⟩ ⟨[], [negativeHead ++ data]⟩ with
  | mk outcome after =>
      rw [hcase] at hread
      subst hread
      rw [Reader.receive, hcase]

theorem receive_hello : (Reader.new.receive realloc false [hello.text]).2 = ⟨[], ⟨5, 4096⟩⟩ := rfl

/-- **Nothing is written beyond the end of a buffer** in any run, whatever the servers send, unless
a response gives its length as a negative number; and then a server can do it. -/
theorem overflow_negative (hrealloc : SimpleBuffer.Allocator realloc) :
    (∀ (earlier : List (Bool × List Bytes)) (timeout : Bool) (pieces : List Bytes),
        ((Reader.new.receiveAll realloc earlier).2.receive realloc timeout pieces).1
          = .error .overflow →
          ∃ size head, markEnd (Http.crlf ++ Http.crlf)
              ((Reader.new.receiveAll realloc earlier).2.readBuf ++ pieces.flatten) = some size
            ∧ parseResponse
              (((Reader.new.receiveAll realloc earlier).2.readBuf ++ pieces.flatten).take size)
              = some head ∧ head.bodyLen < 0)
      ∧ (realloc 8192 = true → ∃ earlier pieces,
        ((Reader.new.receiveAll realloc earlier).2.receive realloc false pieces).1
          = .error .overflow) := by
  refine ⟨fun earlier timeout pieces hover => ?_, fun hgiven => ?_⟩
  · have hvalid := @valid_receiveAll realloc Reader.new hrealloc SimpleBuffer.valid_new earlier
    refine @handleRead_overflow realloc _ hvalid ⟨_, pieces⟩ ?_
    unfold Reader.receive at hover
    split at hover
    · cases hover
    · next fatal after hread =>
        cases hover
        rw [hread]
  · refine ⟨[(false, [hello.text])], [negativeHead ++ List.replicate 8193 0x41], ?_⟩
    have hreader : (Reader.new.receiveAll realloc [(false, [hello.text])]).2 = ⟨[], ⟨5, 4096⟩⟩ :=
      @receive_hello realloc
    rw [hreader]
    exact receive_negative hgiven List.length_replicate

theorem overflow_negative_hello : ∃ earlier pieces,
    ((Reader.new.receiveAll (· ≤ 8192) earlier).2.receive (· ≤ 8192) false pieces).1
      = .error .overflow :=
  (overflow_negative fun size h => Nat.lt_of_le_of_lt (of_decide_eq_true h) (by decide)).2 rfl

end TapSdk.Net
