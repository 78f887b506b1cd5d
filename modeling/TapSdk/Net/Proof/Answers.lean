import TapSdk.Library.JsonRoundTrip
import TapSdk.Login.Proof.Unwrap
import TapSdk.Net.Proof.Response

/-!
# What a server answers

An answer is written as JSON into a response, and the response comes in pieces: the request ends
with the value of the answer, or with its code and its message.
-/

namespace TapSdk.Net

open Library

inductive Answer where
  | data (value : Json)
  | refused (code : Int) (msg : Bytes)

namespace Answer

/-- The new envelope. -/
def json : Answer → Json
  | data value => .object [(ascii "code", .unsigned 0), (ascii "data", value)]
  | refused code msg => .object [(ascii "code", .integer code), (ascii "msg", .string msg)]

/-- An answer that refuses has a code of 32 bits which is not zero. -/
def Proper : Answer → Prop
  | data value => value.Readable
  | refused code _ => code ≠ 0 ∧ -2147483648 ≤ code ∧ code < 2147483648

def result : Answer → Login.Net.Result Json
  | data value => .ok value.normalize
  | refused code msg => .error ⟨200, code, msg⟩

end Answer

variable {library : Login.Net.JsonLibrary} {realloc : Nat → Bool}

/-- The parser reads what a strict writer writes. -/
def ReadsJson (library : Login.Net.JsonLibrary) : Prop :=
  ∀ (value : Json) (text : Bytes), value.Readable → value.dump = some text →
    library.parse text = some value.normalize

theorem readable_json {answer : Answer} (h : answer.Proper) : answer.json.Readable := by
  cases answer with
  | data value =>
      have hkeys : ascii "code" < ascii "data" := by decide
      exact ⟨List.pairwise_pair.mpr hkeys, trivial, h, trivial⟩
  | refused code msg =>
      have hkeys : ascii "code" < ascii "msg" := by decide
      obtain ⟨-, hlow, hhigh⟩ := h
      exact ⟨List.pairwise_pair.mpr hkeys, ⟨by omega, by omega⟩, trivial, trivial⟩

theorem getInt_normalize {code : Int} (hlow : -2147483648 ≤ code) (hhigh : code < 2147483648) :
    library.getInt (Json.integer code).normalize = .ok code := by
  rw [Json.normalize]
  split
  · next hnonneg =>
      have hvalue : ((UInt64.ofNat code.toNat).toNat : Int) = code := by
        rw [UInt64.toNat_ofNat_of_lt' (by rw [UInt64.size]; omega)]
        omega
      show Except.ok (Login.Net.castInteger ((UInt64.ofNat code.toNat).toNat : Int))
          = Except.ok code
      rw [hvalue, castInteger_of_range hlow hhigh]
  · show Except.ok (Login.Net.castInteger code) = Except.ok code
    rw [castInteger_of_range hlow hhigh]

section

open Login.Net

theorem unwrap_data {text : Bytes} (hne : text ≠ []) {value : Json}
    (hparse : library.parse text = some (Answer.data value).json.normalize) :
    library.tapUnwrapResult text = .ok ⟨0, invalidResponse, value.normalize⟩ := by
  have hcontains : contains (Answer.data value).json.normalize (ascii "success") = false := rfl
  have hcode : index (Answer.data value).json.normalize (ascii "code") = .ok (.unsigned 0) := rfl
  have hdata : index (Answer.data value).json.normalize (ascii "data") = .ok value.normalize := rfl
  have hint : library.getInt (.unsigned 0) = .ok 0 :=
    congrArg Except.ok (@castInteger_of_range 0 (by decide) (by decide))
  have hrun : (library.tryUnwrap text).run ⟨-1, invalidResponse, .null⟩
      = (.ok (), ⟨0, invalidResponse, value.normalize⟩) := by
    unfold JsonLibrary.tryUnwrap
    simp only [hparse, pure_bind, hcontains, Bool.false_eq_true, if_false, run_ofExcept_bind, hcode,
      ok_bind, hint, run_setCode_bind, run_get_bind]
    rw [if_pos trivial, run_ofExcept_bind, hdata]
    rfl
  rw [JsonLibrary.tapUnwrapResult, JsonLibrary.unwrap, if_neg hne, run_tryCatch, hrun]

theorem unwrap_refused {text : Bytes} (hne : text ≠ []) {code : Int} {msg : Bytes}
    (h : (Answer.refused code msg).Proper)
    (hparse : library.parse text = some (Answer.refused code msg).json.normalize) :
    library.tapUnwrapResult text = .ok ⟨code, msg, .null⟩ := by
  obtain ⟨hnonzero, hlow, hhigh⟩ := h
  have hcontains : contains (Answer.refused code msg).json.normalize (ascii "success") = false :=
    rfl
  have hcode : index (Answer.refused code msg).json.normalize (ascii "code")
      = .ok (Json.integer code).normalize := rfl
  have hmsg : index (Answer.refused code msg).json.normalize (ascii "msg") = .ok (.string msg) :=
    rfl
  have hrun : (library.tryUnwrap text).run ⟨-1, invalidResponse, .null⟩
      = (.ok (), ⟨code, msg, .null⟩) := by
    unfold JsonLibrary.tryUnwrap
    simp only [hparse, pure_bind, hcontains, Bool.false_eq_true, if_false, run_ofExcept_bind,
      hcode, ok_bind, getInt_normalize hlow hhigh, run_setCode_bind, run_get_bind]
    rw [if_neg hnonzero, run_ofExcept_bind, hmsg]
    rfl
  rw [JsonLibrary.tapUnwrapResult, JsonLibrary.unwrap, if_neg hne, run_tryCatch, hrun]

end

/-- **An answer is received.** Whatever the pieces: a response that succeeds and whose content is
the text of an answer ends the request with that answer, if there is memory for the content. -/
theorem answer_received (hlibrary : ReadsJson library) (value : NetErr → Int)
    (message : Option NetErr → Bytes) {reader : Reader} (hbody : reader.body.Valid)
    {response : Http.Response} (h : Readable response) (hstatus : statusOf response = 200)
    {answer : Answer} (hanswer : answer.Proper)
    (hdump : answer.json.dump = some response.framing.content) {pieces : List Bytes} {rest : Bytes}
    (hpieces : reader.readBuf ++ pieces.flatten = response.text ++ rest) {after : SimpleBuffer}
    (hafter : bodyAfter realloc reader.body response = some after) :
    ∃ data left, reader.receive realloc false pieces = (.ok data, ⟨left, after⟩) ∧ left <+: rest
      ∧ library.client.requestAsync (data.seen value message) = answer.result := by
  have hread := @receive_response realloc reader hbody response h pieces rest hpieces
  rw [hafter] at hread
  obtain ⟨data, left, hdata, hsays, hprefix⟩ := hread
  refine ⟨data, left, hdata, hprefix, ?_⟩
  have hparse := hlibrary answer.json response.framing.content (readable_json hanswer) hdump
  have hne : response.framing.content ≠ [] := by
    intro hnil
    rw [hnil] at hdump
    obtain ⟨byte, hbyte, -⟩ := Json.head_dump (readable_json hanswer) hdump
    cases hbyte
  have hok : (data.seen value message).status = 200 := by
    rw [RespData.seen, hsays.status, hstatus]
    rfl
  have hcontent : (data.seen value message).respBody = response.framing.content := hsays.respBody
  rw [Login.Net.TapHttpClient.requestAsync, if_pos hok, hcontent, Login.Net.JsonLibrary.client]
  cases answer with
  | data json =>
      simp only [unwrap_data hne hparse]
      rfl
  | refused code msg =>
      simp only [unwrap_refused hne hanswer hparse]
      rw [if_neg hanswer.1]
      rfl

def exampleLibrary : Login.Net.JsonLibrary := ⟨Json.parse, fun _ => 0, fun _ => 0⟩

def exampleResponse : Http.Response :=
  ⟨0x31, ascii "200", ascii "OK", [⟨ascii "content-length", [], ascii "19"⟩],
    .length (ascii "\x7b\"code\":0,\"data\":7\x7d")⟩

theorem answer_received_example :
    ∃ data left, Reader.new.receive (fun _ => false) false
          [exampleResponse.text.take 20, exampleResponse.text.drop 20]
            = (.ok data, ⟨left, ⟨19, 4096⟩⟩)
      ∧ exampleLibrary.client.requestAsync (data.seen (fun _ => 0) fun _ => [])
        = .ok (.unsigned 7) := by
  have hreadable : Readable exampleResponse :=
    { wellFormed :=
        { minor := rfl
          length_code := rfl
          code := rfl
          reason := rfl
          fields := List.forall_mem_singleton.mpr ⟨List.cons_ne_nil _ _, rfl, rfl, rfl, rfl⟩
          framed := ⟨by decide, by decide⟩ }
      room := by decide
      lengths := (by decide : 19 < 2147483648) }
  have hpieces : Reader.new.readBuf
      ++ [exampleResponse.text.take 20, exampleResponse.text.drop 20].flatten
      = exampleResponse.text ++ [] := by
    rw [List.flatten_cons, List.flatten_singleton, List.take_append_drop, List.append_nil]
    rfl
  obtain ⟨data, left, hdata, -, hanswer⟩ := @answer_received exampleLibrary (fun _ => false)
    (fun _ _ hread hdump => Json.parse_dump hread hdump) (fun _ => 0) (fun _ => []) Reader.new
    SimpleBuffer.valid_new exampleResponse hreadable rfl (.data (.unsigned 7)) trivial rfl _ _
    hpieces ⟨19, 4096⟩ rfl
  exact ⟨data, left, hdata, hanswer⟩

end TapSdk.Net
