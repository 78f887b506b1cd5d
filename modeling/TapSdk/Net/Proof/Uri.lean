import Mathlib.Data.List.TakeWhile
import TapSdk.Net.Uri

/-!
# Addresses that are accepted

An address made of a schema, a host, a port and a path is taken apart into them, when they have only
characters they may have.
-/

namespace TapSdk.Net.Uri

open Library

/-! ### Texts in two parts -/

theorem takeWhile_parts {p : UInt8 → Bool} {first rest : Bytes} (hfirst : ∀ c ∈ first, p c = true)
    (hrest : ∀ c ∈ rest.head?, p c = false) : (first ++ rest).takeWhile p = first := by
  rw [List.takeWhile_append_of_pos hfirst]
  cases rest with
  | nil => exact List.append_nil first
  | cons c rest =>
      rw [List.takeWhile_cons_of_neg, List.append_nil]
      rw [hrest c rfl]
      exact Bool.false_ne_true

theorem dropWhile_parts {p : UInt8 → Bool} {first rest : Bytes} (hfirst : ∀ c ∈ first, p c = true)
    (hrest : ∀ c ∈ rest.head?, p c = false) : (first ++ rest).dropWhile p = rest := by
  rw [List.dropWhile_append_of_pos hfirst]
  cases rest with
  | nil => rfl
  | cons c rest =>
      apply List.dropWhile_cons_of_neg
      rw [hrest c rfl]
      exact Bool.false_ne_true

theorem parsePart_eq {delimiters : Bytes} {legal : UInt8 → Bool} {part rest : Bytes}
    (hlegal : ∀ c ∈ part, legal c = true) (hpart : ∀ c ∈ part, delimiters.contains c = false)
    (hrest : ∀ c ∈ rest.head?, delimiters.contains c = true) :
    parsePart delimiters legal (part ++ rest) = some (part, rest) := by
  have hpos : ∀ c ∈ part, (!delimiters.contains c) = true := by
    intro c hc
    rw [hpart c hc]
    rfl
  have hneg : ∀ c ∈ rest.head?, (!delimiters.contains c) = false := by
    intro c hc
    rw [hrest c hc]
    rfl
  rw [parsePart, takeWhile_parts hpos hneg, dropWhile_parts hpos hneg]
  exact if_pos (List.all_eq_true.mpr hlegal)

/-! ### Hosts and ports -/

/-- A character of a host name. -/
def isHostCharacter (c : UInt8) : Bool := isUnreserved c || isSubDelim c || c = 0x25

theorem hostCharacter_cases {c : UInt8} (h : isHostCharacter c = true) :
    isAuthorityCharacter c = true ∧ isUserInfoCharacter c = true ∧ (ascii "/?#").contains c = false
      ∧ c ≠ 0x3A ∧ c ≠ 0 := by
  have hall := forall_byte (p := fun c => !isHostCharacter c || (isAuthorityCharacter c
    && isUserInfoCharacter c && !(ascii "/?#").contains c && c != 0x3A && c != 0))
      (by decide +kernel) c
  simpa [h, and_assoc] using hall

theorem pathCharacter_cases {c : UInt8} (h : isPathCharacter c = true) :
    (ascii "?#").contains c = false ∧ c ≠ 0 ∧ c ≠ 0x20 ∧ c ≠ 0x0D := by
  have hall := forall_byte (p := fun c => !isPathCharacter c || (!(ascii "?#").contains c
    && c != 0 && c != 0x20 && c != 0x0D)) (by decide +kernel) c
  simpa [h, and_assoc] using hall

/-- A port, with its colon, if there is one. -/
def portText (port : Bytes) : Bytes := if port = [] then [] else 0x3A :: port

theorem portText_cases {port : Bytes} (hport : ∀ c ∈ port, isDigit c = true) {c : UInt8}
    (hc : c ∈ portText port) :
    isAuthorityCharacter c = true ∧ (ascii "/?#").contains c = false ∧ c ≠ 0 := by
  unfold portText at hc
  split at hc
  · cases hc
  · rcases List.mem_cons.mp hc with rfl | hc
    · decide
    · have hall := forall_byte (p := fun c => !isDigit c || isHostCharacter c) (by decide +kernel) c
      rw [hport c hc] at hall
      obtain ⟨hlegal, -, hdelimiter, -, hzero⟩ := hostCharacter_cases hall
      exact ⟨hlegal, hdelimiter, hzero⟩

theorem splitPort_eq {host port : Bytes} (hhost : ∀ c ∈ host, isHostCharacter c = true)
    (hport : ∀ c ∈ port, isDigit c = true) : splitPort (host ++ portText port) = (host, port) := by
  have hcolon : 0x3A ∉ host := fun hmem => (hostCharacter_cases (hhost _ hmem)).2.2.2.1 rfl
  unfold splitPort portText
  split
  · next hnil =>
      have hlast : ((host.reverse.dropWhile isDigit).reverse).getLast? ≠ some 0x3A := by
        intro hlast
        have hmem := List.mem_of_getLast? hlast
        rw [List.mem_reverse] at hmem
        exact hcolon (List.mem_reverse.mp (List.dropWhile_sublist _ |>.mem hmem))
      rw [List.append_nil]
      simp only [if_neg hlast, hnil]
  · next hne =>
      have hreverse : (host ++ 0x3A :: port).reverse = port.reverse ++ 0x3A :: host.reverse := by
        simp only [List.reverse_append, List.reverse_cons, List.append_assoc, List.singleton_append]
      have hdigits : ∀ c ∈ port.reverse, isDigit c = true :=
        fun c hc => hport c (List.mem_reverse.mp hc)
      have hstop : ∀ c ∈ ((0x3A : UInt8) :: host.reverse).head?, isDigit c = false := by
        rintro c ⟨⟩
        rfl
      rw [hreverse, takeWhile_parts hdigits hstop, dropWhile_parts hdigits hstop,
        List.reverse_reverse, List.reverse_cons, List.reverse_reverse]
      simp only [List.getLast?_concat, List.dropLast_concat, if_true]

theorem splitUser_eq {host : Bytes} (hhost : ∀ c ∈ host, isHostCharacter c = true) :
    splitUser host = ([], host) := by
  have hdrop : host.dropWhile isUserInfoCharacter = [] :=
    List.dropWhile_eq_nil_iff.mpr fun c hc => (hostCharacter_cases (hhost c hc)).2.1
  rw [splitUser, hdrop]

theorem parseSchema_eq {schema : Bytes} (h : schema = ascii "https" ∨ schema = ascii "http")
    (rest : Bytes) :
    parseSchema (schema ++ (ascii "://" ++ rest)) = some (schema, ascii "//" ++ rest) := by
  rcases h with rfl | rfl <;> rfl

theorem parseFrom_address {schema host port path : Bytes}
    (hschema : schema = ascii "https" ∨ schema = ascii "http")
    (hhost : ∀ c ∈ host, isHostCharacter c = true) (hport : ∀ c ∈ port, isDigit c = true)
    (hpath : ∀ c ∈ path, isPathCharacter c = true) :
    parseFrom (schema ++ (ascii "://" ++ (host ++ portText port ++ 0x2F :: path)))
      = some ⟨schema, [], host, port, 0x2F :: path, [], [],
        schema = ascii "https" || schema = ascii "wss"⟩ := by
  have hpathCharacter : ∀ c ∈ 0x2F :: path, isPathCharacter c = true := by
    intro c hc
    rcases List.mem_cons.mp hc with rfl | hc
    · rfl
    · exact hpath c hc
  have hauthority : ∀ c ∈ host ++ portText port,
      isAuthorityCharacter c = true ∧ (ascii "/?#").contains c = false ∧ c ≠ 0 := by
    intro c hc
    rcases List.mem_append.mp hc with hc | hc
    · obtain ⟨hlegal, -, hdelimiter, -, hzero⟩ := hostCharacter_cases (hhost c hc)
      exact ⟨hlegal, hdelimiter, hzero⟩
    · exact portText_cases hport hc
  have hzero : (0 : UInt8) ∉ schema
      ++ (ascii "://" ++ (host ++ portText port ++ 0x2F :: path)) := by
    rw [List.mem_append, List.mem_append, List.mem_append, not_or, not_or, not_or]
    refine ⟨?_, by decide, fun hmem => (hauthority 0 hmem).2.2 rfl,
      fun hmem => (pathCharacter_cases (hpathCharacter 0 hmem)).2.1 rfl⟩
    rcases hschema with rfl | rfl <;> decide
  have hnul : (schema ++ (ascii "://" ++ (host ++ portText port ++ 0x2F :: path))).takeWhile (· ≠ 0)
      = schema ++ (ascii "://" ++ (host ++ portText port ++ 0x2F :: path)) :=
    List.takeWhile_eq_self_iff.mpr fun c hc => decide_eq_true fun heq => hzero (heq ▸ hc)
  have hpart : parsePart (ascii "/?#") isAuthorityCharacter (host ++ portText port ++ 0x2F :: path)
      = some (host ++ portText port, 0x2F :: path) :=
    parsePart_eq (fun c hc => (hauthority c hc).1) (fun c hc => (hauthority c hc).2.1)
      (by rintro c ⟨⟩; rfl)
  have hpathPart : parsePart (ascii "?#") isPathCharacter (0x2F :: path)
      = some (0x2F :: path, []) := by
    have happend : parsePart (ascii "?#") isPathCharacter (0x2F :: path ++ [])
        = some (0x2F :: path, []) :=
      parsePart_eq hpathCharacter (fun c hc => (pathCharacter_cases (hpathCharacter c hc)).1) nofun
    rwa [List.append_nil] at happend
  rw [parseFrom]
  simp only [hnul]
  rw [parseSchema_eq hschema]
  change (parsePart (ascii "/?#") isAuthorityCharacter
    (host ++ portText port ++ 0x2F :: path)).bind _ = _
  rw [hpart]
  change (parsePart (ascii "?#") isPathCharacter (0x2F :: path)).bind _ = _
  rw [hpathPart, splitPort_eq hhost hport, splitUser_eq hhost]
  rfl

end TapSdk.Net.Uri
