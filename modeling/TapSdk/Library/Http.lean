import TapSdk.Library.Decimal

/-!
# Requests of HTTP/1.1

What a server reads from a connection: a request line, header fields up to an empty line, and as
many bytes of body as the fields say. What follows is left for the next request. Names of fields are
compared without regard to case, and blanks around their values are dropped.
-/

namespace TapSdk.Library.Http

structure Request where
  method : Bytes
  target : Bytes
  headers : List (Bytes × Bytes)
  body : Bytes
  deriving DecidableEq

def crlf : Bytes := [0x0D, 0x0A]

def space : UInt8 := 0x20

def colon : UInt8 := 0x3A

def isBlank (byte : UInt8) : Bool := byte = space || byte = 0x09

/-- Letters, digits and the marks that a name may have. -/
def isToken (byte : UInt8) : Bool :=
  (0x41 ≤ byte && byte ≤ 0x5A) || (0x61 ≤ byte && byte ≤ 0x7A) || isDigit byte
    || (ascii "!#$%&'*+-.^_|~").contains byte || byte = 0x60

def lower (text : Bytes) : Bytes :=
  text.map fun byte => if 0x41 ≤ byte ∧ byte ≤ 0x5A then byte + 0x20 else byte

def readLine : Bytes → Option (Bytes × Bytes)
  | [] => none
  | first :: rest =>
      if first = 0x0D ∧ rest.head? = some 0x0A then some ([], rest.drop 1)
      else (readLine rest).map fun (line, left) => (first :: line, left)

/-- What is before the first such byte, and what is after it. -/
def cut (byte : UInt8) : Bytes → Option (Bytes × Bytes)
  | [] => none
  | first :: rest =>
      if first = byte then some ([], rest)
      else (cut byte rest).map fun (before, after) => (first :: before, after)

def trim (text : Bytes) : Bytes := ((text.dropWhile isBlank).reverse.dropWhile isBlank).reverse

def readHeader (line : Bytes) : Option (Bytes × Bytes) := do
  let (name, value) ← cut colon line
  if name ≠ [] ∧ name.all isToken then some (name, trim value) else none

theorem length_readLine {bytes line rest : Bytes} (h : readLine bytes = some (line, rest)) :
    rest.length < bytes.length := by
  induction bytes generalizing line with
  | nil => cases h
  | cons first bytes ih =>
      rw [readLine] at h
      split at h
      · cases h
        rw [List.length_drop, List.length_cons]
        omega
      · obtain ⟨⟨found, left⟩, hfound, heq⟩ := Option.map_eq_some_iff.mp h
        cases heq
        exact Nat.lt_succ_of_lt (ih hfound)

/-- The fields up to the empty line. -/
def readHeaders (bytes : Bytes) : Option (List (Bytes × Bytes) × Bytes) :=
  match _h : readLine bytes with
  | none => none
  | some ([], rest) => some ([], rest)
  | some (line, rest) => do
      let header ← readHeader line
      let (headers, left) ← readHeaders rest
      some (header :: headers, left)
termination_by bytes.length
decreasing_by exact length_readLine ‹_›

/-- The value of the first field with this name. -/
def field (name : Bytes) (headers : List (Bytes × Bytes)) : Option Bytes :=
  (headers.find? fun header => lower header.1 = lower name).map Prod.snd

/-- How many bytes of body there are. Bodies in chunks are not read. -/
def bodyLength (headers : List (Bytes × Bytes)) : Option Nat :=
  match field (ascii "Transfer-Encoding") headers, field (ascii "Content-Length") headers with
  | some _, _ => none
  | none, none => some 0
  | none, some text => Decimal.read text

def readRequestLine (line : Bytes) : Option (Bytes × Bytes) := do
  let (method, rest) ← cut space line
  let (target, version) ← cut space rest
  if method ≠ [] ∧ method.all isToken ∧ target ≠ [] ∧ version = ascii "HTTP/1.1" then
    some (method, target)
  else none

def read (bytes : Bytes) : Option (Request × Bytes) := do
  let (line, rest) ← readLine bytes
  let (method, target) ← readRequestLine line
  let (headers, rest) ← readHeaders rest
  let length ← bodyLength headers
  if length ≤ rest.length then some (⟨method, target, headers, rest.take length⟩, rest.drop length)
  else none

/-! ### Reading what has been written -/

theorem readLine_append {line : Bytes} (h : 0x0D ∉ line) (rest : Bytes) :
    readLine (line ++ (crlf ++ rest)) = some (line, rest) := by
  induction line with
  | nil => rfl
  | cons first line ih =>
      rw [List.mem_cons, not_or] at h
      rw [List.cons_append, readLine, if_neg fun hend => h.1 hend.1.symm, ih h.2]
      rfl

theorem cut_append {byte : UInt8} {before : Bytes} (h : byte ∉ before) (after : Bytes) :
    cut byte (before ++ byte :: after) = some (before, after) := by
  induction before with
  | nil => exact if_pos rfl
  | cons first before ih =>
      rw [List.mem_cons, not_or] at h
      rw [List.cons_append, cut, if_neg (Ne.symm h.1), ih h.2]
      rfl

/-- No blank is at either end. -/
def Trimmed (text : Bytes) : Prop :=
  (∀ byte ∈ text.head?, isBlank byte = false) ∧ ∀ byte ∈ text.getLast?, isBlank byte = false

instance (text : Bytes) : Decidable (Trimmed text) :=
  decidable_of_iff (text.head?.all (!isBlank ·) = true ∧ text.getLast?.all (!isBlank ·) = true)
    (by simp only [Trimmed, Option.all_eq_true, Bool.not_eq_true', Option.mem_def])

theorem dropWhile_isBlank {text : Bytes} (h : ∀ byte ∈ text.head?, isBlank byte = false) :
    text.dropWhile isBlank = text := by
  cases text with
  | nil => rfl
  | cons first text =>
      apply List.dropWhile_cons_of_neg
      rw [h first rfl]
      exact Bool.false_ne_true

theorem trim_eq {text : Bytes} (h : Trimmed text) : trim text = text := by
  have hlast : ∀ byte ∈ text.reverse.head?, isBlank byte = false := by
    rw [List.head?_reverse]
    exact h.2
  rw [trim, dropWhile_isBlank h.1, dropWhile_isBlank hlast, List.reverse_reverse]

theorem trim_space (text : Bytes) : trim (space :: text) = trim text := rfl

/-- No blank and no end of a line. -/
def Visible (text : Bytes) : Prop := ∀ byte ∈ text, isBlank byte = false ∧ byte ≠ 0x0D

instance (text : Bytes) : Decidable (Visible text) :=
  decidable_of_iff (text.all (fun byte => !isBlank byte && byte != 0x0D) = true)
    (by simp only [Visible, List.all_eq_true, Bool.and_eq_true, Bool.not_eq_true', bne_iff_ne])

theorem Visible.trimmed {text : Bytes} (h : Visible text) : Trimmed text :=
  ⟨fun byte hbyte => (h byte (List.mem_of_mem_head? hbyte)).1,
    fun byte hbyte => (h byte (List.mem_of_getLast? hbyte)).1⟩

theorem Visible.line {text : Bytes} (h : Visible text) : 0x0D ∉ text := fun hmem => (h _ hmem).2 rfl

theorem Visible.append {first second : Bytes} (hfirst : Visible first) (hsecond : Visible second) :
    Visible (first ++ second) :=
  fun byte hbyte => (List.mem_append.mp hbyte).elim (hfirst byte) (hsecond byte)

theorem trimmed_between {first : UInt8} {last : Bytes} (hfirst : isBlank first = false)
    (hlast : Visible last) (hne : last ≠ []) (middle : Bytes) :
    Trimmed (first :: (middle ++ last)) := by
  constructor
  · rintro byte ⟨⟩
    exact hfirst
  · intro byte hbyte
    rw [← List.cons_append, List.getLast?_append_of_ne_nil _ hne] at hbyte
    exact (hlast byte (List.mem_of_getLast? hbyte)).1

theorem visible_digits (number : Nat) : Visible (Json.digits number) := by
  intro byte hbyte
  have hall := forall_byte (p := fun byte => !isDigit byte || (!isBlank byte && byte != 0x0D))
    (by decide +kernel) byte
  simpa [Decimal.isDigit_of_mem_digits hbyte] using hall

/-- A field that is read as it is written. -/
structure Plain (header : Bytes × Bytes) : Prop where
  ne_nil : header.1 ≠ []
  token : header.1.all isToken = true
  line : 0x0D ∉ header.2
  trimmed : Trimmed header.2

theorem not_mem_of_token {name : Bytes} (h : name.all isToken = true) {byte : UInt8}
    (hbyte : isToken byte = false) : byte ∉ name := by
  intro hmem
  have htoken := List.all_eq_true.mp h byte hmem
  rw [hbyte] at htoken
  exact Bool.false_ne_true htoken

theorem readHeader_eq {name value : Bytes} (hne : name ≠ []) (htoken : name.all isToken = true) :
    readHeader (name ++ colon :: value) = some (name, trim value) := by
  rw [readHeader, cut_append (not_mem_of_token htoken (by decide))]
  exact if_pos ⟨hne, htoken⟩

/-- The line of a field. -/
def ReadAs (line : Bytes) (header : Bytes × Bytes) : Prop :=
  0x0D ∉ line ∧ line ≠ [] ∧ readHeader line = some header

theorem Plain.readAs {header : Bytes × Bytes} (h : Plain header) :
    ReadAs (header.1 ++ colon :: space :: header.2) header := by
  refine ⟨?_, ?_, ?_⟩
  · simp only [List.mem_append, List.mem_cons, not_or]
    exact ⟨not_mem_of_token h.token (by decide), by decide, by decide, h.line⟩
  · intro hnil
    cases (List.append_eq_nil_iff.mp hnil).2
  · rw [readHeader_eq h.ne_nil h.token, trim_space, trim_eq h.trimmed]

theorem readHeaders_of_end {bytes rest : Bytes} (h : readLine bytes = some ([], rest)) :
    readHeaders bytes = some ([], rest) := by
  unfold readHeaders
  split
  · simp_all
  · simp_all
  · simp_all

theorem readHeaders_of_line {bytes line rest : Bytes} (h : readLine bytes = some (line, rest))
    (hne : line ≠ []) :
    readHeaders bytes = (readHeader line).bind fun header =>
      (readHeaders rest).bind fun (headers, left) => some (header :: headers, left) := by
  conv_lhs => unfold readHeaders
  split
  · simp_all
  · simp_all
  · simp_all

/-- A text whose first line, if it has one, is not a field. -/
theorem readHeaders_of_bad {bytes : Bytes} (h : ∀ line rest, readLine bytes = some (line, rest) →
    line ≠ [] ∧ readHeader line = none) : readHeaders bytes = none := by
  cases hline : readLine bytes with
  | none =>
      unfold readHeaders
      split <;> simp_all
  | some parts =>
      obtain ⟨hne, hbad⟩ := h parts.1 parts.2 hline
      rw [readHeaders_of_line hline hne, hbad]
      rfl

theorem readHeaders_append {lines : List Bytes} {headers : List (Bytes × Bytes)}
    (h : List.Forall₂ ReadAs lines headers) (rest : Bytes) :
    readHeaders (lines.flatMap (· ++ crlf) ++ (crlf ++ rest)) = some (headers, rest) := by
  induction h with
  | nil => exact readHeaders_of_end rfl
  | cons hline hlines ih =>
      obtain ⟨hcr, hne, hheader⟩ := hline
      rw [List.flatMap_cons, List.append_assoc, List.append_assoc,
        readHeaders_of_line (readLine_append hcr _) hne, hheader, ih]
      rfl

/-- What cannot be read spoils the fields before it. -/
theorem readHeaders_eq_none {lines : List Bytes} {headers : List (Bytes × Bytes)}
    (h : List.Forall₂ ReadAs lines headers) {bytes : Bytes} (hbad : readHeaders bytes = none) :
    readHeaders (lines.flatMap (· ++ crlf) ++ bytes) = none := by
  induction h with
  | nil =>
      rw [List.flatMap_nil, List.nil_append, hbad]
  | cons hfirst hlines ih =>
      obtain ⟨hcr, hne, hheader⟩ := hfirst
      rw [List.flatMap_cons, List.append_assoc, List.append_assoc,
        readHeaders_of_line (readLine_append hcr _) hne, hheader, ih]
      rfl

/-- A request line can be made of these. -/
structure RequestLine (method target : Bytes) : Prop where
  method_ne_nil : method ≠ []
  token : method.all isToken = true
  target_ne_nil : target ≠ []
  unspaced : space ∉ target
  line : 0x0D ∉ target

theorem RequestLine.read_eq {method target : Bytes} (h : RequestLine method target) (rest : Bytes) :
    read (method ++ space :: (target ++ space :: ascii "HTTP/1.1") ++ (crlf ++ rest))
      = (readHeaders rest).bind fun (headers, rest) => (bodyLength headers).bind fun length =>
        if length ≤ rest.length then
          some (⟨method, target, headers, rest.take length⟩, rest.drop length)
        else none := by
  have hline : 0x0D ∉ method ++ space :: (target ++ space :: ascii "HTTP/1.1") := by
    simp only [List.mem_append, List.mem_cons, not_or]
    exact ⟨not_mem_of_token h.token (by decide), by decide, h.line, by decide, by decide⟩
  have hrequest : readRequestLine (method ++ space :: (target ++ space :: ascii "HTTP/1.1"))
      = some (method, target) := by
    rw [readRequestLine, cut_append (not_mem_of_token h.token (by decide))]
    change (cut space _).bind _ = _
    rw [cut_append h.unspaced]
    exact if_pos ⟨h.method_ne_nil, h.token, h.target_ne_nil, rfl⟩
  rw [read, readLine_append hline]
  change (readRequestLine _).bind _ = _
  rw [hrequest]
  rfl

/-- A request line, fields and a body, and what follows them. -/
theorem RequestLine.read_append {method target : Bytes} (hline : RequestLine method target)
    {lines : List Bytes} {headers : List (Bytes × Bytes)} {body : Bytes}
    (h : List.Forall₂ ReadAs lines headers) (hlength : bodyLength headers = some body.length)
    (rest : Bytes) :
    read (method ++ space :: (target ++ space :: ascii "HTTP/1.1")
        ++ (crlf ++ (lines.flatMap (· ++ crlf) ++ (crlf ++ (body ++ rest)))))
      = some (⟨method, target, headers, body⟩, rest) := by
  rw [hline.read_eq, readHeaders_append h, Option.bind_some]
  change (bodyLength headers).bind _ = _
  rw [hlength, Option.bind_some, if_pos (by rw [List.length_append]; omega), List.take_left,
    List.drop_left]

end TapSdk.Library.Http
