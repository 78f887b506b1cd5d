import TapSdk.Library.Http
import TapSdk.Library.Segments

/-!
# Responses of HTTP/1.1

What a server writes: a status line, fields up to an empty line, and a body. The fields say how long
the body is, or that it comes in chunks, each with its size before it.
-/

namespace TapSdk.Library.Http

/-- What a line may have in it: no control character besides the tab. -/
def isText (byte : UInt8) : Bool := (0x20 ≤ byte && byte != 0x7F) || byte = 0x09

structure Field where
  name : Bytes
  blanks : Bytes
  value : Bytes
  deriving DecidableEq

namespace Field

def line (field : Field) : Bytes := field.name ++ colon :: (field.blanks ++ field.value)

structure WellFormed (field : Field) : Prop where
  ne_nil : field.name ≠ []
  token : field.name.all isToken = true
  blanks : field.blanks.all isBlank = true
  text : field.value.all isText = true
  trimmed : field.value.head?.any isBlank = false

end Field

/-! ### Chunks -/

def isHexDigit (byte : UInt8) : Bool :=
  isDigit byte || (0x61 ≤ byte && byte ≤ 0x66) || (0x41 ≤ byte && byte ≤ 0x46)

def hexDigitValue (byte : UInt8) : Nat :=
  if isDigit byte then byte.toNat - 48 else if 0x61 ≤ byte then byte.toNat - 87 else byte.toNat - 55

def hexValue (text : Bytes) : Nat :=
  text.foldl (fun number byte => 16 * number + hexDigitValue byte) 0

structure Chunk where
  size : Bytes
  extension : Bytes
  data : Bytes
  deriving DecidableEq

namespace Chunk

def line (chunk : Chunk) : Bytes := chunk.size ++ chunk.extension

def text (chunk : Chunk) : Bytes := chunk.line ++ crlf ++ chunk.data ++ crlf

structure WellFormed (chunk : Chunk) : Prop where
  ne_nil : chunk.size ≠ []
  hex : chunk.size.all isHexDigit = true
  value : hexValue chunk.size = chunk.data.length
  extension : chunk.extension.head?.all (fun byte => byte = 0x3B || isBlank byte) = true
  line : 0x0D ∉ chunk.extension

end Chunk

/-! ### Messages -/

inductive Framing where
  | none
  | length (body : Bytes)
  -- The last chunk is empty, and no end of a line is behind it.
  | chunked (chunks : List Chunk) (last : Chunk)
  deriving DecidableEq

namespace Framing

def text : Framing → Bytes
  | none => []
  | length body => body
  | chunked chunks last => chunks.flatMap Chunk.text ++ (last.line ++ crlf ++ crlf)

def content : Framing → Bytes
  | none => []
  | length body => body
  | chunked chunks _ => chunks.flatMap Chunk.data

end Framing

structure Response where
  minor : UInt8
  code : Bytes
  reason : Bytes
  fields : List Field
  framing : Framing
  deriving DecidableEq

namespace Response

def headers (response : Response) : List (Bytes × Bytes) :=
  response.fields.map fun field => (field.name, field.value)

def statusLine (response : Response) : Bytes :=
  ascii "HTTP/1." ++ response.minor :: space :: (response.code ++ space :: response.reason)

def head (response : Response) : Bytes :=
  response.statusLine ++ crlf ++ response.fields.flatMap (fun field => field.line ++ crlf) ++ crlf

def text (response : Response) : Bytes := response.head ++ response.framing.text

/-- The fields say what the framing is. -/
def Framed (response : Response) : Prop :=
  match response.framing with
  | .none => field (ascii "Content-Length") response.headers = none
      ∧ field (ascii "Transfer-Encoding") response.headers = none
  | .length body => field (ascii "Content-Length") response.headers = some (Json.digits body.length)
      ∧ field (ascii "Transfer-Encoding") response.headers = none
  | .chunked chunks last => field (ascii "Transfer-Encoding") response.headers
      = some (ascii "chunked")
      ∧ (∀ chunk ∈ chunks, chunk.WellFormed ∧ chunk.data ≠ []) ∧ last.WellFormed ∧ last.data = []

structure WellFormed (response : Response) : Prop where
  minor : isDigit response.minor = true
  length_code : response.code.length = 3
  code : response.code.all isDigit = true
  reason : response.reason.all isText = true
  fields : ∀ field ∈ response.fields, field.WellFormed
  framed : response.Framed

end Response

/-! ### Where the head ends -/

theorem not_mem_of_isText {text : Bytes} (h : text.all isText = true) : 0x0D ∉ text := by
  intro hmem
  have htext := List.all_eq_true.mp h _ hmem
  exact absurd htext (by decide)

theorem Field.WellFormed.line_ne_nil {field : Field} (h : field.WellFormed) : field.line ≠ [] := by
  intro hnil
  exact h.ne_nil (List.append_eq_nil_iff.mp hnil).1

theorem Field.WellFormed.not_mem_line {field : Field} (h : field.WellFormed) :
    0x0D ∉ field.line := by
  simp only [Field.line, List.mem_append, List.mem_cons, not_or]
  refine ⟨not_mem_of_token h.token (by decide), by decide, fun hmem => ?_, not_mem_of_isText h.text⟩
  exact absurd (List.all_eq_true.mp h.blanks _ hmem) (by decide)

theorem Chunk.WellFormed.not_mem_line {chunk : Chunk} (h : chunk.WellFormed) :
    0x0D ∉ chunk.line := by
  simp only [Chunk.line, List.mem_append, not_or]
  exact ⟨fun hmem => absurd (List.all_eq_true.mp h.hex _ hmem) (by decide), h.line⟩

theorem head?_ne {line : Bytes} (hline : 0x0D ∉ line) (hne : line ≠ []) (rest : Bytes) :
    (line ++ rest).head? ≠ some 0x0D := by
  cases line with
  | nil => exact absurd rfl hne
  | cons first line =>
      intro hhead
      exact hline (Option.some.inj hhead ▸ List.mem_cons_self)

/-- After a line, the fields and the empty line. -/
theorem markEnd_fields {fields : List Field} (h : ∀ field ∈ fields, field.WellFormed) {line : Bytes}
    (hline : 0x0D ∉ line) (rest : Bytes) :
    markEnd (crlf ++ crlf)
    (line ++ (crlf ++ (fields.flatMap (fun field => field.line ++ crlf) ++ (crlf ++ rest))))
      = some (line.length + 2 + (fields.flatMap (fun field => field.line ++ crlf)).length + 2) := by
  induction fields generalizing line with
  | nil => exact markEnd_first hline [0x0A, 0x0D, 0x0A] rest
  | cons field fields ih =>
      rw [List.forall_mem_cons] at h
      have hfirst := h.1.not_mem_line
      have hnext := head?_ne hfirst h.1.line_ne_nil
        (crlf ++ (fields.flatMap (fun field => field.line ++ crlf) ++ (crlf ++ rest)))
      have htail := ih h.2 hfirst
      rw [List.flatMap_cons, List.append_assoc, List.append_assoc]
      refine (markEnd_line hline hnext).trans ?_
      change (markEnd (crlf ++ crlf) _).map _ = _
      rw [htail, Option.map_some, Option.some.injEq, List.length_append, List.length_append]
      have hcrlf : crlf.length = 2 := rfl
      omega

theorem Response.WellFormed.not_mem_statusLine {response : Response} (h : response.WellFormed) :
    0x0D ∉ response.statusLine := by
  simp only [Response.statusLine, List.mem_append, List.mem_cons, not_or]
  refine ⟨by decide, fun hminor => ?_, by decide, fun hmem => ?_, by decide,
    not_mem_of_isText h.reason⟩
  · exact absurd (hminor ▸ h.minor) (by decide)
  · exact absurd (List.all_eq_true.mp h.code _ hmem) (by decide)

theorem Response.WellFormed.markEnd_head {response : Response} (h : response.WellFormed)
    (rest : Bytes) :
    markEnd (crlf ++ crlf) (response.head ++ rest) = some response.head.length := by
  have hfields := markEnd_fields h.fields h.not_mem_statusLine rest
  simp only [Response.head, List.append_assoc]
  rw [hfields]
  simp only [List.length_append, Option.some.injEq]
  have hcrlf : crlf.length = 2 := rfl
  omega

end TapSdk.Library.Http
