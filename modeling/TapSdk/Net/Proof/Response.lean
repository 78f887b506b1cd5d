import Mathlib.Data.List.Infix
import TapSdk.Library.HttpResponse
import TapSdk.Net.Response

/-!
# Responses are read as they were written

A client reads a well-formed response as the server meant it, in whatever pieces it comes. What is
behind it stays in the buffer of the client, and so does a head that the client cannot parse.
-/

namespace TapSdk.Net

open Library

/-! ### The head -/

theorem isControl_of_isText {byte : UInt8} (h : Http.isText byte = true) :
    isControl byte = false := by
  have hall :=
    forall_byte (p := fun byte => !Http.isText byte || !isControl byte) (by decide +kernel) byte
  simpa [h] using hall

theorem skipEol_crlf (rest : Bytes) : skipEol (Http.crlf ++ rest) = some rest := rfl

theorem skipEol_cons {first : UInt8} (hcr : first ≠ 0x0D) (hlf : first ≠ 0x0A) (rest : Bytes) :
    skipEol (first :: rest) = none := by
  unfold skipEol
  rw [List.head?_cons, if_neg (fun h => hcr (Option.some.inj h)),
    if_neg (fun h => hlf (Option.some.inj h))]

theorem getTokenToEol_append {text : Bytes} (h : text.all Http.isText = true) (rest : Bytes) :
    getTokenToEol (text ++ (Http.crlf ++ rest)) = some (text, rest) := by
  have hkeep : ∀ byte ∈ text, (!isControl byte) = true := by
    intro byte hbyte
    rw [isControl_of_isText (List.all_eq_true.mp h byte hbyte)]
    rfl
  have hdrop : (text ++ (Http.crlf ++ rest)).dropWhile (!isControl ·) = Http.crlf ++ rest := by
    rw [List.dropWhile_append_of_pos hkeep]
    rfl
  have htake : (text ++ (Http.crlf ++ rest)).takeWhile (!isControl ·) = text := by
    rw [List.takeWhile_append_of_pos hkeep]
    exact List.append_nil text
  rw [getTokenToEol, hdrop, htake, skipEol_crlf]
  rfl

theorem not_blank_of_isToken {byte : UInt8} (h : Http.isToken byte = true) :
    Http.isBlank byte = false ∧ byte ≠ 0x0D ∧ byte ≠ 0x0A := by
  have hall := forall_byte
    (p := fun byte => !Http.isToken byte || (!Http.isBlank byte && byte != 0x0D && byte != 0x0A))
    (by decide +kernel) byte
  simpa [h, and_assoc] using hall

/-- The header of a field. -/
def PhrHeader.ofField (field : Http.Field) : PhrHeader := ⟨some field.name, field.value⟩

theorem parseName_field {field : Http.Field} (h : field.WellFormed) (isFirst : Bool)
    (rest : Bytes) :
    parseName isFirst (field.line ++ (Http.crlf ++ rest))
      = some (some field.name, field.value ++ (Http.crlf ++ rest)) := by
  have htoken : ∀ byte ∈ field.name, tokenCharMap byte = true := List.all_eq_true.mp h.token
  have hline : field.line ++ (Http.crlf ++ rest)
      = field.name ++ Http.colon :: (field.blanks ++ (field.value ++ (Http.crlf ++ rest))) := by
    simp only [Http.Field.line, List.append_assoc, List.cons_append]
  have htake : (field.line ++ (Http.crlf ++ rest)).takeWhile tokenCharMap = field.name := by
    rw [hline, List.takeWhile_append_of_pos htoken]
    exact List.append_nil _
  have hdrop : (field.line ++ (Http.crlf ++ rest)).dropWhile tokenCharMap
      = Http.colon :: (field.blanks ++ (field.value ++ (Http.crlf ++ rest))) := by
    rw [hline, List.dropWhile_append_of_pos htoken]
    rfl
  have hblanks : (field.blanks ++ (field.value ++ (Http.crlf ++ rest))).dropWhile Http.isBlank
      = field.value ++ (Http.crlf ++ rest) := by
    rw [List.dropWhile_append_of_pos (List.all_eq_true.mp h.blanks)]
    have htrimmed := h.trimmed
    cases hvalue : field.value with
    | nil => rfl
    | cons first value =>
        rw [hvalue] at htrimmed
        apply List.dropWhile_cons_of_neg
        rw [Bool.not_eq_true]
        exact htrimmed
  have hfirst :
    ¬ ((!isFirst) = true ∧ (field.line ++ (Http.crlf ++ rest)).head?.any Http.isBlank = true) := by
    rintro ⟨-, hblank⟩
    rw [hline] at hblank
    cases hname : field.name with
    | nil => exact h.ne_nil hname
    | cons first name =>
        rw [hname] at hblank
        have hmem : first ∈ field.name := hname ▸ List.mem_cons_self
        rw [List.cons_append, List.head?_cons, Option.any_some,
          (not_blank_of_isToken (htoken first hmem)).1] at hblank
        exact Bool.false_ne_true hblank
  rw [parseName, if_neg hfirst, htake, hdrop, if_pos ⟨h.ne_nil, rfl⟩, List.drop_one,
    List.tail_cons, hblanks]

theorem skipEol_field {field : Http.Field} (h : field.WellFormed) (rest : Bytes) :
    skipEol (field.line ++ rest) = none := by
  cases hname : field.name with
  | nil => exact absurd hname h.ne_nil
  | cons first name =>
      have hmem : first ∈ field.name := hname ▸ List.mem_cons_self
      obtain ⟨-, hcr, hlf⟩ := not_blank_of_isToken (List.all_eq_true.mp h.token first hmem)
      rw [Http.Field.line, hname]
      exact skipEol_cons hcr hlf _

theorem parseHeaders_fields {fields : List Http.Field}
    (h : ∀ field ∈ fields, field.WellFormed) {room : Nat} (hroom : fields.length ≤ room)
    (isFirst : Bool) :
    parseHeaders room isFirst (fields.flatMap (fun field => field.line ++ Http.crlf) ++ Http.crlf)
      = some (fields.map PhrHeader.ofField) := by
  induction fields generalizing room isFirst with
  | nil => cases room <;> rfl
  | cons field fields ih =>
      rw [List.forall_mem_cons] at h
      cases room with
      | zero => exact absurd hroom (Nat.not_succ_le_zero _)
      | succ room =>
          have htail := ih h.2 (Nat.le_of_succ_le_succ hroom) false
          rw [List.flatMap_cons, List.append_assoc, List.append_assoc, parseHeaders,
            skipEol_field h.1, if_neg (by decide), parseName_field h.1]
          change (getTokenToEol _).bind _ = _
          rw [getTokenToEol_append h.1.text]
          change (parseHeaders room false _).map _ = _
          rw [htail]
          rfl

theorem parseHttpVersion_append {minor : UInt8} (h : isDigit minor = true) {rest : Bytes}
    (hne : rest ≠ []) :
    parseHttpVersion (ascii "HTTP/1." ++ minor :: rest) = some rest := by
  have hversion : ascii "HTTP/1." = [0x48, 0x54, 0x54, 0x50, 0x2F, 0x31, 0x2E] := by decide
  have hlength : 9 ≤ (ascii "HTTP/1." ++ minor :: rest).length := by
    have hpos := List.length_pos_of_ne_nil hne
    rw [hversion, List.length_append, List.length_cons]
    exact Nat.add_le_add_left (Nat.succ_le_succ hpos) 7
  have hprefix : (ascii "HTTP/1.").isPrefixOf (ascii "HTTP/1." ++ minor :: rest) = true :=
    List.isPrefixOf_iff_prefix.mpr (List.prefix_append _ _)
  have hdigit : ((ascii "HTTP/1." ++ minor :: rest).drop 7).head?.any isDigit = true := by
    rw [hversion]
    exact h
  rw [parseHttpVersion, if_pos ⟨hlength, hprefix, hdigit⟩, hversion]
  rfl

theorem parseStatus_append {code : Bytes} (hlength : code.length = 3)
    (hdigits : code.all isDigit = true) {rest : Bytes} (hne : rest ≠ []) :
    parseStatus (code ++ rest) = some (Decimal.value code, rest) := by
  have htake : (code ++ rest).take 3 = code := by rw [← hlength, List.take_left]
  have hdrop : (code ++ rest).drop 3 = rest := by rw [← hlength, List.drop_left]
  have hlong : 4 ≤ (code ++ rest).length := by
    have hpos := List.length_pos_of_ne_nil hne
    rw [List.length_append, hlength]
    exact Nat.add_le_add_left hpos 3
  rw [parseStatus, htake, hdrop, if_pos ⟨hlong, hdigits⟩]

theorem parseResponse_head {response : Http.Response} (h : response.WellFormed)
    (hroom : response.fields.length ≤ maxHeaders) :
    parseResponse response.head
      = some ⟨Decimal.value response.code, response.fields.map PhrHeader.ofField⟩ := by
  have hhead : response.head = ascii "HTTP/1."
      ++ response.minor :: Http.space :: (response.code ++ Http.space :: (response.reason
        ++ (Http.crlf ++ (response.fields.flatMap (fun field => field.line ++ Http.crlf)
          ++ Http.crlf)))) := by
    simp only [Http.Response.head, Http.Response.statusLine, List.append_assoc, List.cons_append]
  rw [hhead, parseResponse, parseHttpVersion_append h.minor (List.cons_ne_nil _ _)]
  change (parseStatus (response.code ++ _)).bind _ = _
  rw [parseStatus_append h.length_code h.code (List.cons_ne_nil _ _)]
  change (getTokenToEol (response.reason ++ _)).bind _ = _
  rw [getTokenToEol_append h.reason]
  change (parseHeaders maxHeaders true _).map _ = _
  rw [parseHeaders_fields h.fields hroom]
  rfl

/-! ### What the head says -/

/-- The head of a well-formed response. -/
def headOf (response : Http.Response) : Head :=
  ⟨Decimal.value response.code, response.fields.map PhrHeader.ofField⟩

theorem getHeaderValue_headOf (response : Http.Response) (key : Bytes) :
    (headOf response).getHeaderValue key = (Http.field key response.headers).getD [] := by
  unfold Head.getHeaderValue headOf Http.field Http.Response.headers
  rw [List.find?_map, List.find?_map, Option.map_map, Option.map_map]
  rfl

theorem getHeaders_headOf (response : Http.Response) :
    (headOf response).getHeaders = response.headers := by
  unfold Head.getHeaders headOf Http.Response.headers
  rw [List.map_map]
  rfl

theorem field_congr {key other : Bytes} (h : Http.lower key = Http.lower other)
    (headers : List (Bytes × Bytes)) : Http.field key headers = Http.field other headers := by
  unfold Http.field
  rw [h]

theorem digitValue_of_isDigit {byte : UInt8} (h : isDigit byte = true) :
    digitValue byte = byte.toNat - 48 ∧ digitValue byte < 10 ∧ isSpace byte = false := by
  have hall := forall_byte
    (p := fun byte => !isDigit byte
      || (digitValue byte == byte.toNat - 48 && digitValue byte < 10 && !isSpace byte))
    (by decide +kernel) byte
  simpa [h, and_assoc] using hall

theorem magnitude_digits {text : Bytes} (h : text.all isDigit = true) (number : Nat) :
    magnitude 10 number text
      = text.foldl (fun number byte => 10 * number + (byte.toNat - 48)) number := by
  induction text generalizing number with
  | nil => rfl
  | cons first text ih =>
      rw [List.all_cons, Bool.and_eq_true] at h
      obtain ⟨hvalue, hlt, -⟩ := digitValue_of_isDigit h.1
      rw [magnitude, if_pos hlt, hvalue, ih h.2]
      rfl

theorem strtoll_digits {number : Nat} (h : number < 9223372036854775808) :
    strtoll 10 (Json.digits number) = number := by
  have hall : (Json.digits number).all isDigit = true :=
    List.all_eq_true.mpr fun byte hbyte => Decimal.isDigit_of_mem_digits hbyte
  cases hdigits : Json.digits number with
  | nil => exact absurd hdigits (Decimal.digits_ne_nil number)
  | cons first rest =>
      have hfirst : isDigit first = true :=
        List.all_eq_true.mp hall first (hdigits ▸ List.mem_cons_self)
      have hmagnitude : magnitude 10 0 (first :: rest) = number := by
        rw [← hdigits, magnitude_digits hall]
        exact Decimal.value_digits number
      have hdrop : (first :: rest).dropWhile isSpace = first :: rest := by
        apply List.dropWhile_cons_of_neg
        rw [(digitValue_of_isDigit hfirst).2.2]
        exact Bool.false_ne_true
      have hminus : ¬ (first :: rest).head? = some 0x2D := fun hhead =>
        absurd (Option.some.inj hhead ▸ hfirst) (by decide)
      have hplus : ¬ (first :: rest).head? = some 0x2B := fun hhead =>
        absurd (Option.some.inj hhead ▸ hfirst) (by decide)
      have hradix : ¬ 10 = 16 := by decide
      simp only [strtoll, hdrop, hminus, hplus, hradix, hmagnitude, false_or, if_false]
      omega

theorem castInteger_of_range {number : Int} (hlow : -2147483648 ≤ number)
    (hhigh : number < 2147483648) :
    Login.Net.castInteger number = number := by
  unfold Login.Net.castInteger
  exact Int.bmod_eq_of_le (by omega) (by omega)

theorem bodyLen_of_length {response : Http.Response} {body : Bytes}
    (hfield : Http.field (ascii "Content-Length") response.headers = some (Json.digits body.length))
    (hlength : body.length < 2147483648) : (headOf response).bodyLen = body.length := by
  have hsame : Http.lower (ascii "content-length") = Http.lower (ascii "Content-Length") := by
    decide
  have hvalue : (headOf response).getHeaderValue (ascii "content-length")
      = Json.digits body.length := by
    rw [getHeaderValue_headOf, field_congr hsame, hfield]
    rfl
  unfold Head.bodyLen
  rw [hvalue, if_neg (Decimal.digits_ne_nil _), atoi, strtoll_digits (by omega),
    castInteger_of_range (by omega) (by omega)]

theorem bodyLen_of_none {response : Http.Response}
    (hfield : Http.field (ascii "Content-Length") response.headers = none) :
    (headOf response).bodyLen = 0 := by
  have hsame : Http.lower (ascii "content-length") = Http.lower (ascii "Content-Length") := by
    decide
  unfold Head.bodyLen
  rw [getHeaderValue_headOf, field_congr hsame, hfield]
  rfl

theorem isChunked_headOf (response : Http.Response) :
    (headOf response).isChunked
      = decide ((Http.field (ascii "Transfer-Encoding") response.headers).getD []
        = ascii "chunked") := by
  have hsame : Http.lower (ascii "transfer-encoding") = Http.lower (ascii "Transfer-Encoding") := by
    decide
  unfold Head.isChunked
  rw [getHeaderValue_headOf, field_congr hsame]

theorem toSize_natCast {number : Nat} (h : number < wordSize) : toSize number = number := by
  unfold toSize
  rw [Int.emod_eq_of_lt (Int.natCast_nonneg number) (Int.ofNat_lt.mpr h), Int.toNat_natCast]

/-! ### Chunks -/

theorem digitValue_of_isHexDigit {byte : UInt8} (h : Http.isHexDigit byte = true) :
    digitValue byte = Http.hexDigitValue byte ∧ digitValue byte < 16 ∧ isSpace byte = false
      ∧ byte ≠ 0x2D ∧ byte ≠ 0x2B ∧ byte ≠ 0x78 ∧ byte ≠ 0x58 := by
  have hall := forall_byte
    (p := fun byte => !Http.isHexDigit byte
      || (digitValue byte == Http.hexDigitValue byte && digitValue byte < 16
      && !isSpace byte && byte != 0x2D && byte != 0x2B && byte != 0x78 && byte != 0x58))
    (by decide +kernel) byte
  simpa [h, and_assoc] using hall

/-- What may stand behind the digits of a size. -/
def EndsSize (text : Bytes) : Prop :=
  ∀ byte ∈ text.head?, 16 ≤ digitValue byte ∧ byte ≠ 0x78 ∧ byte ≠ 0x58

theorem endsSize_of_extension {chunk : Http.Chunk} (h : chunk.WellFormed) (rest : Bytes) :
    EndsSize (chunk.extension ++ (Http.crlf ++ rest)) := by
  intro byte hbyte
  have hextension := h.extension
  cases hcase : chunk.extension with
  | nil =>
      rw [hcase] at hbyte
      cases hbyte
      decide
  | cons first extension =>
      rw [hcase] at hbyte hextension
      cases hbyte
      have hall := forall_byte
        (p := fun byte => !(decide (byte = 0x3B) || Http.isBlank byte)
          || (16 ≤ digitValue byte && byte != 0x78 && byte != 0x58)) (by decide +kernel) byte
      rw [List.head?_cons, Option.all_some] at hextension
      rw [hextension] at hall
      simpa [and_assoc] using hall

theorem magnitude_hex {size : Bytes} (h : size.all Http.isHexDigit = true) {rest : Bytes}
    (hrest : EndsSize rest) (number : Nat) :
    magnitude 16 number (size ++ rest)
      = size.foldl (fun number byte => 16 * number + Http.hexDigitValue byte) number := by
  induction size generalizing number with
  | nil =>
      cases rest with
      | nil => rfl
      | cons first rest =>
          obtain ⟨hlarge, -⟩ := hrest first rfl
          rw [List.nil_append, magnitude, if_neg (Nat.not_lt_of_le hlarge)]
          rfl
  | cons first size ih =>
      rw [List.all_cons, Bool.and_eq_true] at h
      obtain ⟨hvalue, hlt, -⟩ := digitValue_of_isHexDigit h.1
      rw [List.cons_append, magnitude, if_pos hlt, hvalue, ih h.2]
      rfl

theorem unprefixed_hex {size : Bytes} (hne : size ≠ []) (h : size.all Http.isHexDigit = true)
    {rest : Bytes} (hrest : EndsSize rest) :
    unprefixed (size ++ rest) = size ++ rest := by
  unfold unprefixed
  refine if_neg ?_
  rintro ⟨-, hsecond, -⟩
  cases size with
  | nil => exact hne rfl
  | cons first size =>
      rw [List.all_cons, Bool.and_eq_true] at h
      rw [List.cons_append, List.drop_one, List.tail_cons] at hsecond
      have hno : ∀ byte ∈ (size ++ rest).head?, byte ≠ 0x78 ∧ byte ≠ 0x58 := by
        cases size with
        | nil => exact fun byte hbyte => (hrest byte hbyte).2
        | cons second size =>
            rintro byte ⟨⟩
            rw [List.all_cons, Bool.and_eq_true] at h
            exact (digitValue_of_isHexDigit h.2.1).2.2.2.2.2
      cases hhead : (size ++ rest).head? with
      | none =>
          rw [hhead] at hsecond
          cases hsecond
      | some byte =>
          obtain ⟨hlower, hupper⟩ := hno byte hhead
          rw [hhead] at hsecond
          simp [hlower, hupper] at hsecond

theorem strtoll_hex {size : Bytes} (hne : size ≠ []) (h : size.all Http.isHexDigit = true)
    (hsize : Http.hexValue size < 9223372036854775808) {rest : Bytes} (hrest : EndsSize rest) :
    strtoll 16 (size ++ rest) = Http.hexValue size := by
  have hmagnitude : magnitude 16 0 (size ++ rest) = Http.hexValue size := magnitude_hex h hrest 0
  have hprefix := unprefixed_hex hne h hrest
  cases size with
  | nil => exact absurd rfl hne
  | cons first size =>
      rw [List.all_cons, Bool.and_eq_true] at h
      obtain ⟨-, -, hspace, hminusByte, hplusByte, -⟩ := digitValue_of_isHexDigit h.1
      have hdrop : (first :: size ++ rest).dropWhile isSpace = first :: size ++ rest := by
        apply List.dropWhile_cons_of_neg
        rw [hspace]
        exact Bool.false_ne_true
      have hminus : ¬ (first :: size ++ rest).head? = some 0x2D :=
        fun hhead => hminusByte (Option.some.inj hhead)
      have hplus : ¬ (first :: size ++ rest).head? = some 0x2B :=
        fun hhead => hplusByte (Option.some.inj hhead)
      simp only [strtoll, hdrop, hminus, hplus, hprefix, hmagnitude, false_or, if_false, if_true]
      omega

theorem le_foldl_hex (text : Bytes) (number : Nat) :
    number ≤ text.foldl (fun number byte => 16 * number + Http.hexDigitValue byte) number := by
  induction text generalizing number with
  | nil => exact Nat.le_refl number
  | cons first text ih =>
      have hnext := ih (16 * number + Http.hexDigitValue first)
      rw [List.foldl_cons]
      omega

/-- A size that is zero begins with a zero. -/
theorem head?_of_hexValue {size : Bytes} (hne : size ≠ []) (h : size.all Http.isHexDigit = true)
    (hzero : Http.hexValue size = 0) : size.head? = some 0x30 := by
  cases size with
  | nil => exact absurd rfl hne
  | cons first size =>
      rw [List.all_cons, Bool.and_eq_true] at h
      have hle := le_foldl_hex size (16 * 0 + Http.hexDigitValue first)
      have hfold : Http.hexValue (first :: size)
          = size.foldl (fun number byte => 16 * number + Http.hexDigitValue byte)
            (16 * 0 + Http.hexDigitValue first) := rfl
      have hvalue : Http.hexDigitValue first = 0 := by omega
      have hall := forall_byte
        (p := fun byte => !(Http.isHexDigit byte && Http.hexDigitValue byte == 0) || byte == 0x30)
        (by decide +kernel) first
      rw [List.head?_cons, Option.some.injEq]
      simpa [h.1, hvalue] using hall

theorem hexToInt_line {chunk : Http.Chunk} (h : chunk.WellFormed)
    (hsize : chunk.data.length < 9223372036854775808) (rest : Bytes) :
    hexToInt chunk.line (chunk.line ++ (Http.crlf ++ rest)) = chunk.data.length := by
  have hstrtoll : strtoll 16 (chunk.line ++ (Http.crlf ++ rest)) = chunk.data.length := by
    rw [Http.Chunk.line, List.append_assoc,
      strtoll_hex h.ne_nil h.hex (by rw [h.value]; exact hsize)
      (endsSize_of_extension h rest), h.value]
  have hline : chunk.line ≠ [] := fun hnil => h.ne_nil (List.append_eq_nil_iff.mp hnil).1
  rw [hexToInt, if_neg hline, hstrtoll, if_neg ?_]
  rintro ⟨hzero, hhead⟩
  have hvalue : Http.hexValue chunk.size = 0 := h.value.trans (Int.ofNat_eq_zero.mp hzero)
  refine hhead ?_
  rw [Http.Chunk.line, List.head?_append, head?_of_hexValue h.ne_nil h.hex hvalue]
  rfl

/-- The line of a chunk is received, and it is in the buffer. -/
theorem readUntil_line {chunk : Http.Chunk} (h : chunk.WellFormed) {inflow : Inflow} {rest : Bytes}
    (hall : inflow.all = chunk.line ++ (Http.crlf ++ rest)) :
    ∃ left : Inflow, inflow.readUntil Http.crlf = (some (chunk.line.length + 2), left)
      ∧ left.buffer.take chunk.line.length = chunk.line
      ∧ (∃ tail, left.buffer = chunk.line ++ (Http.crlf ++ tail))
      ∧ (left.consume (chunk.line.length + 2)).all = rest := by
  have hmark : markEnd Http.crlf inflow.all = some (chunk.line.length + 2) := by
    rw [hall]
    exact markEnd_first h.not_mem_line [0x0A] rest
  obtain ⟨left, hleft, hsame, hbuffered⟩ := Inflow.readUntil_some hmark
  have hsplit : (chunk.line ++ Http.crlf).length = chunk.line.length + 2 := List.length_append
  have htake : left.buffer.take (chunk.line.length + 2) = chunk.line ++ Http.crlf := by
    rw [Inflow.take_buffer hbuffered, hsame, hall, ← List.append_assoc, ← hsplit, List.take_left]
  have hbuffer : left.buffer = chunk.line
      ++ (Http.crlf ++ left.buffer.drop (chunk.line.length + 2)) := by
    rw [← List.append_assoc, ← htake, List.take_append_drop]
  refine ⟨left, hleft, ?_, ⟨_, hbuffer⟩, ?_⟩
  · rw [hbuffer, List.take_left]
  · rw [Inflow.all_consume hbuffered, hsame, hall, ← List.append_assoc, ← hsplit, List.drop_left]

theorem readChunk_chunk {chunk : Http.Chunk} (h : chunk.WellFormed) (hne : chunk.data ≠ [])
    (hsize : chunk.data.length < 9223372036854775808) {inflow : Inflow} {rest : Bytes}
    (hall : inflow.all = chunk.text ++ rest) :
    ∃ left, readChunk inflow = .chunk chunk.data left ∧ left.all = rest := by
  have hline : inflow.all = chunk.line ++ (Http.crlf ++ (chunk.data ++ (Http.crlf ++ rest))) := by
    rw [hall, Http.Chunk.text]
    simp only [List.append_assoc]
  obtain ⟨left, hleft, htake, ⟨tail, htail⟩, hconsumed⟩ := readUntil_line h hline
  have hvalue : hexToInt (left.buffer.take (chunk.line.length + 2 - 2)) left.buffer
      = chunk.data.length := by
    rw [Nat.add_sub_cancel, htake, htail]
    exact hexToInt_line h hsize tail
  have hpositive : 0 < chunk.data.length := List.length_pos_of_ne_nil hne
  generalize hinflow : left.consume (chunk.line.length + 2) = inflow at hconsumed
  have hlength : chunk.data.length + 2 - inflow.buffer.length ≤ inflow.pieces.flatten.length := by
    have hcount := congrArg List.length hconsumed
    simp only [Inflow.all, List.length_append] at hcount
    have hcrlf : Http.crlf.length = 2 := rfl
    omega
  obtain ⟨more, hmore, hsame, hbuffer⟩ := Inflow.readMore_of_le hlength
  have hbuffered : chunk.data.length + 2 ≤ more.buffer.length := by
    rw [hbuffer, List.length_append, List.length_take]
    omega
  refine ⟨more.consume (chunk.data.length + 2), ?_, ?_⟩
  · have hdata : more.buffer.take chunk.data.length = chunk.data := by
      rw [Inflow.take_buffer (by omega), hsame, hconsumed, List.take_left]
    simp only [readChunk, hleft, hvalue, hinflow]
    rw [if_neg (by omega), if_neg (by omega), Int.toNat_natCast]
    simp only [hmore, hdata]
  · have hsplit : (chunk.data ++ Http.crlf).length = chunk.data.length + 2 := List.length_append
    rw [Inflow.all_consume hbuffered, hsame, hconsumed, ← List.append_assoc, ← hsplit,
      List.drop_left]

theorem readChunk_last {last : Http.Chunk} (h : last.WellFormed) (hdata : last.data = [])
    {inflow : Inflow} {rest : Bytes}
    (hall : inflow.all = last.line ++ (Http.crlf ++ (Http.crlf ++ rest))) :
    ∃ left, readChunk inflow = .finished left ∧ left.buffer <+: rest := by
  obtain ⟨left, hleft, htake, ⟨tail, htail⟩, hconsumed⟩ := readUntil_line h hall
  have hvalue : hexToInt (left.buffer.take (last.line.length + 2 - 2)) left.buffer = 0 := by
    have hzero : last.data.length = 0 := by rw [hdata]; rfl
    rw [Nat.add_sub_cancel, htake, htail, hexToInt_line h (by omega) tail, hzero]
    rfl
  refine ⟨(left.consume (last.line.length + 2)).consume 2, ?_, ?_⟩
  · simp only [readChunk, hleft, hvalue]
    rfl
  · have hprefix : (left.consume (last.line.length + 2)).buffer <+: Http.crlf ++ rest := by
      rw [← hconsumed]
      exact List.prefix_append _ _
    exact List.IsPrefix.drop hprefix 2

theorem handleChunked_eq (data : RespData) (chunkStr : Bytes) (inflow : Inflow) :
    handleChunked data chunkStr inflow
      = match readChunk inflow with
        | .failed error left => (some error, data, chunkStr, left)
        | .finished left => (none, { data with status := 200, eof := true }, chunkStr, left)
        | .chunk more left => handleChunked data (chunkStr ++ more) left := by
  rw [handleChunked]
  split <;> next hturn => rw [hturn]

/-- All the chunks are read, and what is kept is from behind them. -/
theorem handleChunked_chunks {chunks : List Http.Chunk} {last : Http.Chunk}
    (hchunks : ∀ chunk ∈ chunks, chunk.WellFormed ∧ chunk.data ≠ [])
    (hsizes : ∀ chunk ∈ chunks, chunk.data.length < 9223372036854775808)
    (hlast : last.WellFormed) (hempty : last.data = []) {inflow : Inflow} {rest : Bytes}
    (hall : inflow.all = (Http.Framing.chunked chunks last).text ++ rest) (data : RespData)
    (chunkStr : Bytes) :
    ∃ left : Inflow, handleChunked data chunkStr inflow
        = (none, { data with status := 200, eof := true },
          chunkStr ++ chunks.flatMap Http.Chunk.data, left)
      ∧ left.buffer <+: rest := by
  induction chunks generalizing inflow chunkStr with
  | nil =>
      rw [Http.Framing.text, List.flatMap_nil, List.nil_append, List.append_assoc,
        List.append_assoc] at hall
      obtain ⟨left, hleft, hprefix⟩ := readChunk_last hlast hempty hall
      refine ⟨left, ?_, hprefix⟩
      rw [handleChunked_eq, hleft, List.flatMap_nil, List.append_nil]
  | cons chunk chunks ih =>
      rw [List.forall_mem_cons] at hchunks hsizes
      have hfirst : inflow.all = chunk.text
          ++ ((Http.Framing.chunked chunks last).text ++ rest) := by
        rw [hall, Http.Framing.text, Http.Framing.text, List.flatMap_cons]
        simp only [List.append_assoc]
      obtain ⟨left, hleft, hrest⟩ := readChunk_chunk hchunks.1.1 hchunks.1.2 hsizes.1 hfirst
      obtain ⟨after, hafter, hprefix⟩ := ih hchunks.2 hsizes.2 hrest (chunkStr ++ chunk.data)
      refine ⟨after, ?_, hprefix⟩
      rw [handleChunked_eq, hleft, List.flatMap_cons, ← List.append_assoc]
      exact hafter

/-! ### Content of a known length -/

namespace SimpleBuffer

theorem le_enlarge (needed nsize : Nat) : needed ≤ enlarge needed nsize := by
  induction nsize using enlarge.induct needed with
  | case1 nsize hlt hle =>
      rw [enlarge, if_pos hlt, if_pos hle]
  | case2 nsize hlt hle ih =>
      rw [enlarge, if_pos hlt, if_neg hle]
      exact ih
  | case3 nsize hle =>
      rw [enlarge, if_neg hle]
      exact Nat.le_of_not_lt hle

theorem start_le_enlarge (needed nsize : Nat) : nsize ≤ enlarge needed nsize := by
  induction nsize using enlarge.induct needed with
  | case1 nsize hlt hle =>
      rw [enlarge, if_pos hlt, if_pos hle]
      exact Nat.le_of_lt hlt
  | case2 nsize hlt hle ih =>
      rw [enlarge, if_pos hlt, if_neg hle]
      exact Nat.le_trans (Nat.le_of_not_le hle) ih
  | case3 nsize hle =>
      rw [enlarge, if_neg hle]

/-- A buffer that can be. -/
structure Valid (buffer : SimpleBuffer) : Prop where
  size_le : buffer.size ≤ buffer.allocSize
  allocSize_lt : buffer.allocSize < 9223372036854775808

theorem valid_new : new.Valid := ⟨by decide, by decide⟩

/-- No more memory can be had than addresses have a sign for. -/
def Allocator (realloc : Nat → Bool) : Prop :=
  ∀ size, realloc size = true → size < 9223372036854775808

variable {realloc : Nat → Bool} {buffer after : SimpleBuffer} {len : Nat}

theorem init_cases (hinit : buffer.init realloc len = some after) :
    (len ≤ buffer.allocSize - buffer.size ∧ after = { buffer with size := len })
      ∨ (buffer.allocSize - buffer.size < len ∧ realloc (buffer.nsize len) = true
        ∧ after = ⟨buffer.nsize len, buffer.nsize len⟩) := by
  unfold SimpleBuffer.init at hinit
  split at hinit
  · next hfits => exact Or.inl ⟨hfits, (Option.some.inj hinit).symm⟩
  · next hfits =>
      split at hinit
      · next hgiven => exact Or.inr ⟨Nat.lt_of_not_le hfits, hgiven, (Option.some.inj hinit).symm⟩
      · cases hinit

theorem Valid.init (h : buffer.Valid) (hrealloc : Allocator realloc)
    (hinit : buffer.init realloc len = some after) :
    after.Valid := by
  have hsize := h.size_le
  have halloc := h.allocSize_lt
  rcases init_cases hinit with ⟨hfits, rfl⟩ | ⟨-, hgiven, rfl⟩
  · exact ⟨Nat.le_trans hfits (Nat.sub_le _ _), halloc⟩
  · exact ⟨Nat.le_refl _, hrealloc _ hgiven⟩

/-- There is room for the content unless its length is that of a negative number. -/
theorem Valid.le_allocSize (h : buffer.Valid) (hinit : buffer.init realloc len = some after)
    (hlen : len < 9223372036854775808) : len ≤ after.allocSize := by
  have hsize := h.size_le
  have halloc := h.allocSize_lt
  rcases init_cases hinit with ⟨hfits, rfl⟩ | ⟨-, -, rfl⟩
  · exact Nat.le_trans hfits (Nat.sub_le _ _)
  · have hword : (buffer.size + len) % wordSize = buffer.size + len :=
      Nat.mod_eq_of_lt (by unfold wordSize; omega)
    have hneeded := le_enlarge ((buffer.size + len) % wordSize)
      (if 0 < buffer.allocSize then buffer.allocSize * 2 % wordSize else 4096)
    rw [hword] at hneeded
    calc len ≤ buffer.size + len := Nat.le_add_left _ _
      _ ≤ buffer.nsize len := by rw [nsize, hword]; exact hneeded

end SimpleBuffer

variable {realloc : Nat → Bool} {body : SimpleBuffer}

theorem readContent_zero (data : RespData) (inflow : Inflow) :
    readContent realloc data 0 body inflow
      = (.ok ({ data with eof := inflow.buffer = [] }, none), ⟨inflow.buffer, body⟩) := rfl

theorem readContent_text (hbody : body.Valid) (data : RespData) {content : Bytes}
    (hne : content ≠ []) (hlength : content.length < 9223372036854775808) {inflow : Inflow}
    {rest : Bytes} (hall : inflow.all = content ++ rest) :
    readContent realloc data content.length body inflow
      = match body.init realloc content.length with
        | none => (.error .badAlloc, ⟨inflow.buffer, body⟩)
        | some after =>
            (.ok ({ data with respBody := content, eof := true }, none), ⟨[], after⟩) := by
  have hpositive : 0 < content.length := List.length_pos_of_ne_nil hne
  have hcount : content.length - inflow.buffer.length ≤ inflow.pieces.flatten.length := by
    have hlengths := congrArg List.length hall
    simp only [Inflow.all, List.length_append] at hlengths
    omega
  obtain ⟨left, hleft, hsame, hbuffer⟩ := Inflow.readMore_of_le hcount
  have hwritten : left.buffer.take content.length = content := by
    have hbuffered : content.length ≤ left.buffer.length := by
      rw [hbuffer, List.length_append, List.length_take]
      omega
    rw [Inflow.take_buffer hbuffered, hsame, hall, List.take_left]
  unfold readContent
  rw [if_neg (by omega)]
  cases hinit : body.init realloc content.length with
  | none => rfl
  | some after =>
      have hroom := hbody.le_allocSize hinit hlength
      simp only [hleft, hwritten]
      rw [if_neg (by omega)]
      simp only [handleEntireContent, if_pos hpositive, if_true, List.take_length,
        List.drop_nil, decide_true]

/-! ### Whole responses -/

/-- What a client can take: no more headers than it has room for, and lengths that fit in its
numbers. -/
structure Readable (response : Http.Response) : Prop where
  wellFormed : response.WellFormed
  room : response.fields.length ≤ maxHeaders
  lengths : match response.framing with
    | .none => True
    | .length content => content.length < 2147483648
    | .chunked chunks _ => ∀ chunk ∈ chunks, chunk.data.length < 9223372036854775808

/-- The status that a client reports. A response in chunks succeeds, whatever its status line
says. -/
def statusOf (response : Http.Response) : Nat :=
  match response.framing with
  | .chunked _ _ => 200
  | _ => Decimal.value response.code

structure RespData.Says (data : RespData) (response : Http.Response) : Prop where
  netErr : data.netErr = none
  status : data.status = statusOf response
  respBody : data.respBody = response.framing.content
  respHeaders : data.respHeaders = response.headers

/-- What `body_` is after a response. -/
def bodyAfter (realloc : Nat → Bool) (body : SimpleBuffer) (response : Http.Response) :
    Option SimpleBuffer :=
  match response.framing with
  | .length content => if content = [] then some body else body.init realloc content.length
  | _ => some body

/-- The head is received and parsed. -/
theorem handleRead_head {response : Http.Response} (h : Readable response) {inflow : Inflow}
    {rest : Bytes} (hall : inflow.all = response.head ++ rest) :
    ∃ left : Inflow, left.all = rest
      ∧ handleRead realloc body inflow = readBody realloc (headOf response) body left := by
  have hmark : markEnd (Http.crlf ++ Http.crlf) inflow.all = some response.head.length := by
    rw [hall]
    exact h.wellFormed.markEnd_head rest
  obtain ⟨left, hleft, hsame, hbuffered⟩ := Inflow.readUntil_some hmark
  have htake : left.buffer.take response.head.length = response.head := by
    rw [Inflow.take_buffer hbuffered, hsame, hall, List.take_left]
  have hparse : parseResponse response.head = some (headOf response) :=
    parseResponse_head h.wellFormed h.room
  refine ⟨left.consume response.head.length, ?_, ?_⟩
  · rw [Inflow.all_consume hbuffered, hsame, hall, List.drop_left]
  · simp only [handleRead, hleft, htake, hparse]

theorem readBody_none {response : Http.Response} (h : Readable response)
    (hframing : response.framing = .none) {left : Inflow} {rest : Bytes}
    (hall : left.all = response.framing.text ++ rest) :
    ∃ data, readBody realloc (headOf response) body left = (.ok (data, none), ⟨left.buffer, body⟩)
      ∧ data.Says response ∧ left.buffer <+: rest := by
  have hframed := h.wellFormed.framed
  rw [Http.Response.Framed, hframing] at hframed
  have hplain : (headOf response).isChunked = false := by
    rw [isChunked_headOf, hframed.2]
    rfl
  have hzero : toSize (headOf response).bodyLen = 0 := by
    rw [bodyLen_of_none hframed.1]
    rfl
  rw [hframing] at hall
  refine ⟨{ RespData.ofHead (headOf response) with eof := left.buffer = [] }, ?_, ?_, ?_⟩
  · rw [readBody, hplain, if_neg Bool.false_ne_true, hzero, readContent_zero]
  · refine ⟨rfl, ?_, ?_, getHeaders_headOf response⟩
    · rw [statusOf, hframing]
      rfl
    · rw [hframing]
      rfl
  · exact ⟨left.pieces.flatten, hall⟩

theorem readBody_length {response : Http.Response} (h : Readable response) {content : Bytes}
    (hframing : response.framing = .length content) (hbody : body.Valid) {left : Inflow}
    {rest : Bytes} (hall : left.all = response.framing.text ++ rest) :
    match bodyAfter realloc body response with
    | none => readBody realloc (headOf response) body left = (.error .badAlloc, ⟨left.buffer, body⟩)
    | some after => ∃ data readBuf,
        readBody realloc (headOf response) body left = (.ok (data, none), ⟨readBuf, after⟩)
          ∧ data.Says response ∧ readBuf <+: rest := by
  have hframed := h.wellFormed.framed
  have hlength := h.lengths
  rw [Http.Response.Framed, hframing] at hframed
  rw [hframing] at hlength hall
  have hplain : (headOf response).isChunked = false := by
    rw [isChunked_headOf, hframed.2]
    rfl
  have hsize : toSize (headOf response).bodyLen = content.length := by
    rw [bodyLen_of_length hframed.1 hlength]
    exact toSize_natCast (Nat.lt_trans hlength (by decide))
  have hstatus : ((headOf response).status : Int) = statusOf response := by
    rw [statusOf, hframing]
    rfl
  have hread : readBody realloc (headOf response) body left
      = readContent realloc (RespData.ofHead (headOf response)) content.length body left := by
    rw [readBody, hplain, if_neg Bool.false_ne_true, hsize]
  rw [hread, bodyAfter, hframing]
  by_cases hnil : content = []
  · subst hnil
    refine ⟨{ RespData.ofHead (headOf response) with eof := left.buffer = [] }, left.buffer,
      readContent_zero _ _, ⟨rfl, hstatus, ?_, getHeaders_headOf response⟩,
      ⟨left.pieces.flatten, hall⟩⟩
    rw [hframing]
    rfl
  · have hcontent :=
      @readContent_text realloc body hbody (RespData.ofHead (headOf response)) content hnil
      (Nat.lt_trans hlength (by decide)) _ _ hall
    simp only [if_neg hnil]
    cases hinit : body.init realloc content.length with
    | none =>
        rw [hinit] at hcontent
        exact hcontent
    | some after =>
        rw [hinit] at hcontent
        refine ⟨_, [], hcontent, ⟨rfl, hstatus, ?_, getHeaders_headOf response⟩, List.nil_prefix⟩
        rw [hframing]
        rfl

theorem readBody_chunked {response : Http.Response} (h : Readable response)
    {chunks : List Http.Chunk} {last : Http.Chunk}
    (hframing : response.framing = .chunked chunks last) {left : Inflow} {rest : Bytes}
    (hall : left.all = response.framing.text ++ rest) :
    ∃ data readBuf, readBody realloc (headOf response) body left
      = (.ok (data, none), ⟨readBuf, body⟩)
      ∧ data.Says response ∧ readBuf <+: rest := by
  have hframed := h.wellFormed.framed
  have hlengths := h.lengths
  rw [Http.Response.Framed, hframing] at hframed
  rw [hframing] at hlengths hall
  obtain ⟨hfield, hchunks, hlast, hempty⟩ := hframed
  have hchunked : (headOf response).isChunked = true := by
    rw [isChunked_headOf, hfield]
    rfl
  obtain ⟨after, hafter, hprefix⟩ := handleChunked_chunks hchunks hlengths hlast hempty hall
    (RespData.ofHead (headOf response)) []
  rw [List.nil_append] at hafter
  have hcontent : response.framing.content = chunks.flatMap Http.Chunk.data := by
    rw [hframing]
    rfl
  have hstatus : (200 : Int) = statusOf response := by
    rw [statusOf, hframing]
    rfl
  have hread : readBody realloc (headOf response) body left
      = (.ok (if chunks.flatMap Http.Chunk.data = [] then
            { RespData.ofHead (headOf response) with status := 200, eof := true }
          else { RespData.ofHead (headOf response) with
            status := 200, respBody := chunks.flatMap Http.Chunk.data, eof := true }, none),
        ⟨after.buffer, body⟩) := by
    rw [readBody, hchunked, if_pos rfl, hafter]
  refine ⟨_, after.buffer, hread, ?_, hprefix⟩
  split
  · next hnil => exact ⟨rfl, hstatus, hnil.symm.trans hcontent.symm, getHeaders_headOf response⟩
  · exact ⟨rfl, hstatus, hcontent.symm, getHeaders_headOf response⟩

theorem receive_of_handleRead {reader after : Reader} {pieces : List Bytes} {data : RespData}
    (h : handleRead realloc reader.body ⟨reader.readBuf, pieces⟩ = (.ok (data, none), after)) :
    reader.receive realloc false pieces = (.ok data, after) := by
  rw [Reader.receive, h]
  rfl

/-- **A response is read as it was written.** Whatever the pieces: if what the client still has and
what it receives begin with a response, the client reports the status, the headers and the content
of that response, and keeps only what is from behind it. Without memory for the content there is no
response. -/
theorem receive_response {reader : Reader} (hbody : reader.body.Valid) {response : Http.Response}
    (h : Readable response) {pieces : List Bytes} {rest : Bytes}
    (hpieces : reader.readBuf ++ pieces.flatten = response.text ++ rest) :
    match bodyAfter realloc reader.body response with
    | none => ∃ left, reader.receive realloc false pieces = (.error .badAlloc, ⟨left, reader.body⟩)
    | some after => ∃ data left, reader.receive realloc false pieces = (.ok data, ⟨left, after⟩)
        ∧ data.Says response ∧ left <+: rest := by
  have hall : (⟨reader.readBuf, pieces⟩ : Inflow).all = response.head
      ++ (response.framing.text ++ rest) := by
    rw [← List.append_assoc]
    exact hpieces
  obtain ⟨left, hleft, hread⟩ := @handleRead_head realloc reader.body response h _ _ hall
  cases hframing : response.framing with
  | none =>
      obtain ⟨data, hdata, hsays, hprefix⟩ :=
        @readBody_none realloc reader.body _ h hframing _ _ hleft
      simp only [bodyAfter, hframing]
      exact ⟨data, left.buffer, receive_of_handleRead (hread.trans hdata), hsays, hprefix⟩
  | length content =>
      have hlength := @readBody_length realloc reader.body _ h _ hframing hbody _ _ hleft
      cases hafter : bodyAfter realloc reader.body response with
      | none =>
          rw [hafter] at hlength
          refine ⟨left.buffer, ?_⟩
          rw [Reader.receive, hread.trans hlength]
      | some after =>
          rw [hafter] at hlength
          obtain ⟨data, readBuf, hdata, hsays, hprefix⟩ := hlength
          exact ⟨data, readBuf, receive_of_handleRead (hread.trans hdata), hsays, hprefix⟩
  | chunked chunks last =>
      obtain ⟨data, readBuf, hdata, hsays, hprefix⟩ :=
        @readBody_chunked realloc reader.body _ h _ _ hframing _ _ hleft
      simp only [bodyAfter, hframing]
      exact ⟨data, readBuf, receive_of_handleRead (hread.trans hdata), hsays, hprefix⟩

end TapSdk.Net
