import Mathlib.Data.List.TakeWhile
import TapSdk.Library.Json

/-!
# Forms

The decoder of `application/x-www-form-urlencoded`: the sequences between the ampersands that are
not empty are pairs, split at their first equals sign; in both halves a plus sign is a blank, and a
percent sign with two hexadecimal digits is the byte that they say.
-/

namespace TapSdk.Library.Form

def ampersand : UInt8 := 0x26

def equals : UInt8 := 0x3D

def plus : UInt8 := 0x2B

def percent : UInt8 := 0x25

def hexValue (byte : UInt8) : Option UInt8 :=
  if 0x30 ≤ byte ∧ byte ≤ 0x39 then some (byte - 0x30)
  else if 0x41 ≤ byte ∧ byte ≤ 0x46 then some (byte - 0x37)
  else if 0x61 ≤ byte ∧ byte ≤ 0x66 then some (byte - 0x57)
  else none

/-- The byte that three bytes stand for when they are a percent sign and two digits. -/
def escaped (first high low : UInt8) : Option UInt8 := do
  guard (first = percent)
  let high ← hexValue high
  let low ← hexValue low
  return high * 16 + low

def percentDecode : Bytes → Bytes
  | first :: high :: low :: rest =>
      match escaped first high low with
      | some byte => byte :: percentDecode rest
      | none => first :: percentDecode (high :: low :: rest)
  | first :: rest => first :: percentDecode rest
  | [] => []

def plusToSpace (text : Bytes) : Bytes := text.map fun byte => if byte = plus then 0x20 else byte

def decodeText (text : Bytes) : Bytes := percentDecode (plusToSpace text)

def decodePair (sequence : Bytes) : Bytes × Bytes :=
  (decodeText (sequence.takeWhile (· ≠ equals)),
    decodeText ((sequence.dropWhile (· ≠ equals)).drop 1))

def decode (text : Bytes) : List (Bytes × Bytes) :=
  ((text.splitOn ampersand).filter (· ≠ [])).map decodePair

/-! ### Text that decodes to itself -/

/-- A percent sign with two hexadecimal digits is somewhere in the text. -/
def hasEscape : Bytes → Bool
  | first :: high :: low :: rest =>
      (escaped first high low).isSome || hasEscape (high :: low :: rest)
  | _ :: rest => hasEscape rest
  | [] => false

theorem length_percentDecode_le (text : Bytes) : (percentDecode text).length ≤ text.length := by
  fun_induction percentDecode text with
  | case1 first high low rest byte hbyte ih =>
      simp only [List.length_cons]
      omega
  | case2 first high low rest hnone ih => exact Nat.succ_le_succ ih
  | case3 first rest hshort ih => exact Nat.succ_le_succ ih
  | case4 => exact Nat.le_refl 0

theorem percentDecode_of_not_hasEscape {text : Bytes} (h : hasEscape text = false) :
    percentDecode text = text := by
  fun_induction percentDecode text with
  | case1 first high low rest byte hbyte ih =>
      rw [hasEscape, hbyte] at h
      cases h
  | case2 first high low rest hnone ih =>
      rw [hasEscape, hnone] at h
      rw [ih h]
  | case3 first rest hshort ih =>
      rw [hasEscape] at h
      · rw [ih h]
      · exact hshort
  | case4 => rfl

/-- An escape costs two bytes. -/
theorem length_percentDecode_lt {text : Bytes} (h : hasEscape text = true) :
    (percentDecode text).length < text.length := by
  fun_induction percentDecode text with
  | case1 first high low rest byte hbyte ih =>
      have hrest := length_percentDecode_le rest
      simp only [List.length_cons]
      omega
  | case2 first high low rest hnone ih =>
      rw [hasEscape, hnone] at h
      exact Nat.succ_lt_succ (ih h)
  | case3 first rest hshort ih =>
      rw [hasEscape] at h
      · exact Nat.succ_lt_succ (ih h)
      · exact hshort
  | case4 => cases h

theorem length_decodeText_le (text : Bytes) : (decodeText text).length ≤ text.length := by
  have hlength : (plusToSpace text).length = text.length := List.length_map _
  exact hlength ▸ length_percentDecode_le (plusToSpace text)

theorem plusToSpace_eq_self_iff (text : Bytes) : plusToSpace text = text ↔ plus ∉ text := by
  induction text with
  | nil => exact iff_of_true rfl List.not_mem_nil
  | cons byte rest ih =>
      rw [List.mem_cons, not_or, ← ih, plusToSpace, List.map_cons, List.cons_eq_cons]
      refine and_congr_left fun _ => ?_
      by_cases hbyte : byte = plus
      · rw [if_pos hbyte]
        subst hbyte
        decide
      · rw [if_neg hbyte]
        exact iff_of_true rfl (Ne.symm hbyte)

/-- Neither a plus sign nor an escape is in the text. -/
def Literal (text : Bytes) : Prop := plus ∉ text ∧ hasEscape text = false

instance (text : Bytes) : Decidable (Literal text) := inferInstanceAs (Decidable (_ ∧ _))

theorem decodeText_eq_self_iff (text : Bytes) : decodeText text = text ↔ Literal text := by
  unfold decodeText Literal
  constructor
  · intro hself
    have hescape : hasEscape (plusToSpace text) = false := by
      by_contra hescape
      have hshorter := length_percentDecode_lt (Bool.of_not_eq_false hescape)
      rw [hself, plusToSpace, List.length_map] at hshorter
      exact Nat.lt_irrefl _ hshorter
    have hplus : plusToSpace text = text := by
      rwa [percentDecode_of_not_hasEscape hescape] at hself
    exact ⟨(plusToSpace_eq_self_iff text).mp hplus, hplus ▸ hescape⟩
  · rintro ⟨hplus, hescape⟩
    rw [(plusToSpace_eq_self_iff text).mpr hplus]
    exact percentDecode_of_not_hasEscape hescape

/-! ### Pairs -/

def encodePair (pair : Bytes × Bytes) : Bytes := pair.1 ++ equals :: pair.2

theorem equals_mem_encodePair (pair : Bytes × Bytes) : equals ∈ encodePair pair :=
  List.mem_append_right _ List.mem_cons_self

theorem length_encodePair (pair : Bytes × Bytes) :
    (encodePair pair).length = pair.1.length + pair.2.length + 1 := by
  simp only [encodePair, List.length_append, List.length_cons]
  omega

theorem decodePair_encodePair {key value : Bytes} (h : equals ∉ key) :
    decodePair (encodePair (key, value)) = (decodeText key, decodeText value) := by
  have hall : ∀ byte ∈ key, decide (byte ≠ equals) = true := by
    intro byte hbyte
    exact decide_eq_true fun hsame => h (hsame ▸ hbyte)
  unfold decodePair encodePair
  rw [List.takeWhile_append_of_pos hall, List.dropWhile_append_of_pos hall]
  simp

theorem exists_encodePair_of_mem {sequence : Bytes} (h : equals ∈ sequence) :
    ∃ key value, sequence = encodePair (key, value) ∧ equals ∉ key := by
  obtain ⟨key, value, hsplit, hkey⟩ := List.eq_append_cons_of_mem h
  exact ⟨key, value, hsplit, hkey⟩

/-- A key that decodes to itself is the whole of what stands before the first equals sign. -/
theorem decodePair_encodePair_iff (pair : Bytes × Bytes) : decodePair (encodePair pair) = pair ↔
    equals ∉ pair.1 ∧ Literal pair.1 ∧ Literal pair.2 := by
  obtain ⟨key, value⟩ := pair
  by_cases hkey : equals ∈ key
  · refine iff_of_false ?_ fun h => h.1 hkey
    intro hpair
    obtain ⟨before, after, rfl, hbefore⟩ := exists_encodePair_of_mem hkey
    have hsplit : encodePair (encodePair (before, after), value)
        = encodePair (before, encodePair (after, value)) := by
      simp only [encodePair, List.append_assoc, List.cons_append]
    rw [hsplit, decodePair_encodePair hbefore] at hpair
    have hlength := length_decodeText_le before
    rw [(Prod.mk.inj hpair).1, length_encodePair] at hlength
    dsimp only at hlength
    omega
  · rw [decodePair_encodePair hkey, Prod.mk.injEq, decodeText_eq_self_iff, decodeText_eq_self_iff]
    exact ⟨fun h => ⟨hkey, h⟩, fun h => h.2⟩

/-- What the halves of a sequence decode to, with the sign between them. -/
def weight (pair : Bytes × Bytes) : Nat := pair.1.length + pair.2.length + 1

theorem weight_decodePair_le {sequence : Bytes} (h : equals ∈ sequence) :
    weight (decodePair sequence) ≤ sequence.length := by
  obtain ⟨key, value, rfl, hkey⟩ := exists_encodePair_of_mem h
  rw [decodePair_encodePair hkey, length_encodePair]
  have hkeyLength := length_decodeText_le key
  have hvalueLength := length_decodeText_le value
  simp only [weight]
  omega

theorem weight_decodePair_le_succ (sequence : Bytes) :
    weight (decodePair sequence) ≤ sequence.length + 1 := by
  by_cases hequals : equals ∈ sequence
  · exact Nat.le_succ_of_le (weight_decodePair_le hequals)
  · have hall : ∀ byte ∈ sequence, decide (byte ≠ equals) = true := by
      intro byte hbyte
      exact decide_eq_true fun hsame => hequals (hsame ▸ hbyte)
    have htake : sequence.takeWhile (· ≠ equals) = sequence := List.takeWhile_eq_self_iff.mpr hall
    have hdrop : sequence.dropWhile (· ≠ equals) = [] := List.dropWhile_eq_nil_iff.mpr hall
    have hlength := length_decodeText_le sequence
    unfold weight decodePair
    rw [htake, hdrop]
    simpa [decodeText, plusToSpace, percentDecode] using hlength

/-! ### Sequences -/

theorem decode_append (left right : Bytes) :
    decode (left ++ ampersand :: right) = decode left ++ decode right := by
  unfold decode
  rw [List.splitOn_append_cons_self, List.filter_append, List.map_append]

theorem decode_of_no_ampersand {text : Bytes} (hne : text ≠ []) (h : ampersand ∉ text) :
    decode text = [decodePair text] := by
  unfold decode
  rw [List.splitOn_eq_singleton h]
  simp [hne]

/-- The first pair of a text with an equals sign is at most as long as the text, and shorter when an
ampersand cuts the text. -/
theorem exists_decode_eq_cons {text : Bytes} (h : equals ∈ text) :
    ∃ pair rest, decode text = pair :: rest ∧ weight pair ≤ text.length
      ∧ (ampersand ∈ text → weight pair < text.length) := by
  induction hlength : text.length using Nat.strongRecOn generalizing text with
  | _ length ih =>
      subst hlength
      have hne : text ≠ [] := List.ne_nil_of_mem h
      by_cases hampersand : ampersand ∈ text
      · obtain ⟨before, after, rfl, hbefore⟩ := List.eq_append_cons_of_mem hampersand
        rw [decode_append, List.length_append, List.length_cons]
        rcases List.mem_append.mp h with hequals | hequals
        · have hpair := weight_decodePair_le hequals
          rw [decode_of_no_ampersand (List.ne_nil_of_mem hequals) hbefore]
          exact ⟨_, _, rfl, by omega, fun _ => by omega⟩
        · have hequals : equals ∈ after := (List.mem_cons.mp hequals).resolve_left (by decide)
          by_cases hempty : before = []
          · subst hempty
            obtain ⟨pair, rest, hdecode, hle, -⟩ := ih after.length (by simp) hequals rfl
            refine ⟨pair, rest, hdecode, ?_, fun _ => ?_⟩
            · exact Nat.le_add_left_of_le (Nat.le_succ_of_le hle)
            · exact Nat.lt_add_left _ (Nat.lt_succ_of_le hle)
          · have hpair := weight_decodePair_le_succ before
            have hafter := List.length_pos_of_mem hequals
            rw [decode_of_no_ampersand hempty hbefore]
            exact ⟨_, _, rfl, by omega, fun _ => by omega⟩
      · rw [decode_of_no_ampersand hne hampersand]
        exact ⟨_, _, rfl, weight_decodePair_le h, fun hmem => absurd hmem hampersand⟩

/-- What the decoder leaves as it is: no separator, and nothing that stands for another byte. -/
def Plain (pair : Bytes × Bytes) : Prop :=
  (ampersand ∉ pair.1 ∧ equals ∉ pair.1 ∧ Literal pair.1) ∧ ampersand ∉ pair.2 ∧ Literal pair.2

instance (pair : Bytes × Bytes) : Decidable (Plain pair) := inferInstanceAs (Decidable (_ ∧ _))

theorem ampersand_not_mem_encodePair {pair : Bytes × Bytes} :
    ampersand ∉ encodePair pair ↔ ampersand ∉ pair.1 ∧ ampersand ∉ pair.2 := by
  have hne : ampersand ≠ equals := by decide
  rw [encodePair, List.mem_append, List.mem_cons, not_or, not_or]
  exact and_congr_right fun _ => and_iff_right hne

theorem plain_iff (pair : Bytes × Bytes) :
    Plain pair ↔ ampersand ∉ encodePair pair ∧ decodePair (encodePair pair) = pair := by
  rw [ampersand_not_mem_encodePair, decodePair_encodePair_iff, Plain]
  tauto

/-- A pair heads what its own text decodes to only when it is plain. -/
theorem decode_encodePair_append_iff (pair : Bytes × Bytes) (others rest : List (Bytes × Bytes)) :
    decode (encodePair pair) ++ others = pair :: rest ↔ Plain pair ∧ others = rest := by
  rw [plain_iff]
  obtain ⟨first, more, hdecode, -, hlt⟩ := exists_decode_eq_cons (equals_mem_encodePair pair)
  by_cases hampersand : ampersand ∈ encodePair pair
  · refine iff_of_false ?_ fun h => h.1.1 hampersand
    intro heq
    rw [hdecode, List.cons_append, List.cons_eq_cons] at heq
    have hshorter := hlt hampersand
    rw [heq.1, length_encodePair] at hshorter
    exact Nat.lt_irrefl _ hshorter
  · have hne : encodePair pair ≠ [] := List.ne_nil_of_mem (equals_mem_encodePair pair)
    rw [decode_of_no_ampersand hne hampersand, List.cons_append, List.nil_append, List.cons_eq_cons]
    exact and_congr_left fun _ => (and_iff_right hampersand).symm

end TapSdk.Library.Form
