import TapSdk.Base.Base64

/-!
# When the signature is Base64

Two bits at a time, the characters of a byte and those of a sextet are the same characters, so that
the sextets that the loop reads are those of the standard. The one character of padding is always
appended.
-/

namespace TapSdk.Base64

open Library

/-! ### Bits -/

/-- The two characters of a number below four. -/
def twoBits (value : Nat) : Bytes := [ascii "00", ascii "01", ascii "10", ascii "11"].getD value []

def byteBits (byte : UInt8) : Bytes :=
  twoBits (byte.toNat / 64) ++ twoBits (byte.toNat / 16 % 4) ++ twoBits (byte.toNat / 4 % 4)
    ++ twoBits (byte.toNat % 4)

def sextetBits (sextet : Nat) : Bytes :=
  twoBits (sextet / 16) ++ twoBits (sextet / 4 % 4) ++ twoBits (sextet % 4)

theorem length_sextetBits : ∀ sextet < 64, (sextetBits sextet).length = 6 := by decide

theorem binToDecInt_sextetBits :
    ∀ sextet < 64, (binToDecInt (sextetBits sextet)).toNat = sextet := by
  decide

theorem base64EncodeMap_getElem? :
    ∀ sextet < 64, base64EncodeMap[sextet]? = some (Library.Base64.symbol sextet) := by decide

theorem digitBits_dec2hex :
    ∀ nibble < 16, digitBits (dec2hex nibble) = twoBits (nibble / 4) ++ twoBits (nibble % 4) := by
  decide

theorem flatMap_digitBits_toHex (bytes : Bytes) :
    (toHex bytes).flatMap digitBits = bytes.flatMap byteBits := by
  unfold toHex
  rw [List.flatMap_assoc]
  refine List.flatMap_congr fun byte _ => ?_
  have hbyte := byte.toNat_lt
  simp only [List.flatMap_cons, List.flatMap_nil, List.append_nil]
  rw [digitBits_dec2hex _ (by omega), digitBits_dec2hex _ (by omega), byteBits]
  rw [show byte.toNat / 16 / 4 = byte.toNat / 64 by omega,
    show byte.toNat % 16 / 4 = byte.toNat / 4 % 4 by omega,
    show byte.toNat % 16 % 4 = byte.toNat % 4 by omega]
  simp only [List.append_assoc]

theorem length_byteBits (byte : UInt8) : (byteBits byte).length = 8 := by
  have htwo : ∀ value < 4, (twoBits value).length = 2 := by decide
  have hbyte := byte.toNat_lt
  simp only [byteBits, List.length_append]
  rw [htwo _ (by omega), htwo _ (by omega), htwo _ (by omega), htwo _ (by omega)]

theorem length_flatMap_byteBits (bytes : Bytes) :
    (bytes.flatMap byteBits).length = 8 * bytes.length := by
  induction bytes with
  | nil => rfl
  | cons byte rest ih =>
      rw [List.flatMap_cons, List.length_append, length_byteBits, ih, List.length_cons]
      omega

/-! ### Regrouping -/

/-- The zeros that a string of this length is filled up with. -/
def zeros (length : Nat) : Bytes := List.replicate ((6 - length % 6) % 6) 0x30

theorem fillUp_eq (binStr : Bytes) : fillUp binStr = binStr ++ zeros binStr.length := by
  fun_induction fillUp binStr with
  | case1 binStr hmore ih =>
      have hlength : (binStr ++ ascii "0").length = binStr.length + 1 := List.length_append
      have hzeros : ascii "0" ++ zeros (binStr.length + 1) = zeros binStr.length := by
        unfold zeros
        rw [show (6 - binStr.length % 6) % 6 = (6 - (binStr.length + 1) % 6) % 6 + 1 by omega]
        rfl
      rw [ih, hlength, List.append_assoc, hzeros]
  | case2 binStr hdone =>
      have hnone : (6 - binStr.length % 6) % 6 = 0 := by omega
      rw [zeros, hnone, List.replicate_zero, List.append_nil]

theorem sextetBits_eq {high middle low : Nat} (hmiddle : middle < 4) (hlow : low < 4) :
    sextetBits (16 * high + 4 * middle + low) = twoBits high ++ twoBits middle ++ twoBits low := by
  unfold sextetBits
  rw [show (16 * high + 4 * middle + low) / 16 = high by omega,
    show (16 * high + 4 * middle + low) / 4 % 4 = middle by omega,
    show (16 * high + 4 * middle + low) % 4 = low by omega]

section Groups

variable (first second third : UInt8)

theorem sextetBits_first : sextetBits (first.toNat / 4)
    = twoBits (first.toNat / 64) ++ twoBits (first.toNat / 16 % 4)
      ++ twoBits (first.toNat / 4 % 4) := by
  rw [← sextetBits_eq (by omega) (by omega)]
  congr 1
  omega

theorem sextetBits_second : sextetBits (first.toNat % 4 * 16 + second.toNat / 16)
    = twoBits (first.toNat % 4) ++ twoBits (second.toNat / 64)
      ++ twoBits (second.toNat / 16 % 4) := by
  have hsecond := second.toNat_lt
  rw [← sextetBits_eq (by omega) (by omega)]
  congr 1
  omega

theorem sextetBits_third : sextetBits (second.toNat % 16 * 4 + third.toNat / 64)
    = twoBits (second.toNat / 4 % 4) ++ twoBits (second.toNat % 4)
      ++ twoBits (third.toNat / 64) := by
  have hthird := third.toNat_lt
  rw [← sextetBits_eq (by omega) (by omega)]
  congr 1
  omega

theorem sextetBits_fourth : sextetBits (third.toNat % 64)
    = twoBits (third.toNat / 16 % 4) ++ twoBits (third.toNat / 4 % 4)
      ++ twoBits (third.toNat % 4) := by
  rw [← sextetBits_eq (by omega) (by omega)]
  congr 1
  omega

end Groups

/-- The bits of the bytes, filled up, are those of the sextets. -/
theorem fillUp_byteBits (bytes : Bytes) : fillUp (bytes.flatMap byteBits)
    = (Library.Base64.sextets bytes).flatMap sextetBits := by
  rw [fillUp_eq, length_flatMap_byteBits]
  fun_induction Library.Base64.sextets bytes with
  | case1 first second third rest ih =>
      have hzeros : zeros (8 * (rest.length + 1 + 1 + 1)) = zeros (8 * rest.length) := by
        unfold zeros
        rw [show 8 * (rest.length + 1 + 1 + 1) % 6 = 8 * rest.length % 6 by omega]
      simp only [List.flatMap_cons, List.length_cons, hzeros, byteBits, sextetBits_first,
        sextetBits_second, sextetBits_third, sextetBits_fourth, List.append_assoc, ← ih]
  | case2 first second =>
      -- the two zeros are the low bits of the third sextet
      have hlast := sextetBits_third second 0
      have hzeros : zeros (8 * [first, second].length) = twoBits ((0 : UInt8).toNat / 64) :=
        (by decide : zeros 16 = twoBits ((0 : UInt8).toNat / 64))
      simp only [List.flatMap_cons, List.flatMap_nil, byteBits, sextetBits_first, sextetBits_second,
        List.append_assoc]
      rw [show second.toNat % 16 * 4 = second.toNat % 16 * 4 + (0 : UInt8).toNat / 64 from rfl,
        hlast, hzeros]
      simp only [List.append_assoc, List.nil_append, List.append_nil]
  | case3 first =>
      have hlast := sextetBits_second first 0
      have hzeros : zeros (8 * [first].length)
          = twoBits ((0 : UInt8).toNat / 64) ++ twoBits ((0 : UInt8).toNat / 16 % 4) :=
        (by decide :
          zeros 8 = twoBits ((0 : UInt8).toNat / 64) ++ twoBits ((0 : UInt8).toNat / 16 % 4))
      simp only [List.flatMap_cons, List.flatMap_nil, byteBits, sextetBits_first, List.append_assoc]
      rw [show first.toNat % 4 * 16 = first.toNat % 4 * 16 + (0 : UInt8).toNat / 16 from rfl,
        hlast, hzeros]
      simp only [List.append_assoc, List.nil_append, List.append_nil]
  | case4 => rfl

/-! ### The loops -/

theorem hexToBinFrom_eq (hexDight : Bytes) (f : Nat) (binDight : Bytes)
    (h : f + hexDight.length ≤ intMax) :
    hexToBinFrom f binDight hexDight = some (binDight ++ hexDight.flatMap digitBits) := by
  induction hexDight generalizing f binDight with
  | nil => rw [hexToBinFrom, List.flatMap_nil, List.append_nil]
  | cons e rest ih =>
      rw [List.length_cons] at h
      rw [hexToBinFrom, if_pos (by omega), ih _ _ (by omega), List.flatMap_cons, List.append_assoc]

theorem hexToBinFrom_overflow (hexDight : Bytes) (f : Nat) (binDight : Bytes) (hf : f ≤ intMax)
    (h : intMax < f + hexDight.length) : hexToBinFrom f binDight hexDight = none := by
  induction hexDight generalizing f binDight with
  | nil => exact absurd hf (by simpa using h)
  | cons e rest ih =>
      rw [List.length_cons] at h
      rw [hexToBinFrom]
      split
      · exact ih _ _ (by omega) (by omega)
      · rfl

/-- A round of the loop that reads a sextet. -/
theorem encodeFrom_sextet {sextet : Nat} (hsextet : sextet < 64) (before after base64Str : Bytes)
    (hint : before.length + 6 ≤ intMax) :
    encodeFrom (before ++ (sextetBits sextet ++ after)) before.length base64Str
      = encodeFrom (before ++ sextetBits sextet ++ after) (before ++ sextetBits sextet).length
          (base64Str ++ [Library.Base64.symbol sextet]) := by
  have hlength := length_sextetBits sextet hsextet
  have htmp : ((before ++ (sextetBits sextet ++ after)).drop before.length).take 6
      = sextetBits sextet := by
    rw [List.drop_left, ← hlength, List.take_left]
  rw [encodeFrom, if_pos (by simp only [List.length_append]; omega)]
  simp only [htmp, if_pos hint, binToDecInt_sextetBits sextet hsextet,
    base64EncodeMap_getElem? sextet hsextet]
  rw [List.length_append, hlength, List.append_assoc]

theorem encodeFrom_sextets (sextets : List Nat) (hsextets : ∀ sextet ∈ sextets, sextet < 64)
    (before base64Str : Bytes) (hint : before.length + 6 * sextets.length ≤ intMax) :
    encodeFrom (before ++ sextets.flatMap sextetBits) before.length base64Str
      = some (base64Str ++ sextets.map Library.Base64.symbol) := by
  induction sextets generalizing before base64Str with
  | nil =>
      rw [encodeFrom, if_neg (by simp)]
      simp
  | cons sextet rest ih =>
      obtain ⟨hsextet, hrest⟩ := List.forall_mem_cons.mp hsextets
      have hlength := length_sextetBits sextet hsextet
      rw [List.length_cons] at hint
      rw [List.flatMap_cons, encodeFrom_sextet hsextet _ _ _ (by omega),
        ih hrest _ _ (by rw [List.length_append, hlength]; omega)]
      simp

/-- The index overflows before it reaches the end of a longer string. -/
theorem encodeFrom_overflow (binStr : Bytes) (hlong : intMax < binStr.length) (index : Nat)
    (hindex : index ≤ intMax) (base64Str : Bytes) : encodeFrom binStr index base64Str = none := by
  fun_induction encodeFrom binStr index base64Str with
  | case1 index base64Str hlt tmp hint char hchar ih => exact ih hint
  | case2 => rfl
  | case3 => rfl
  | case4 index base64Str hdone => exact absurd (Nat.lt_of_le_of_lt hindex hlong) hdone

/-! ### The whole -/

theorem length_toHex (bytes : Bytes) : (toHex bytes).length = 2 * bytes.length := by
  induction bytes with
  | nil => rfl
  | cons byte rest ih =>
      rw [toHex, List.flatMap_cons, List.length_append, List.length_cons, ← toHex, ih]
      simp only [List.length_cons, List.length_nil]
      omega

theorem length_flatMap_sextetBits (sextets : List Nat)
    (hsextets : ∀ sextet ∈ sextets, sextet < 64) :
    (sextets.flatMap sextetBits).length = 6 * sextets.length := by
  induction sextets with
  | nil => rfl
  | cons sextet rest ih =>
      obtain ⟨hsextet, hrest⟩ := List.forall_mem_cons.mp hsextets
      rw [List.flatMap_cons, List.length_append, length_sextetBits sextet hsextet, ih hrest,
        List.length_cons]
      omega

/-- Eight bits for a byte, up to a multiple of six. -/
theorem length_sextets (bytes : Bytes) :
    6 * (Library.Base64.sextets bytes).length
      = 8 * bytes.length + (6 - 8 * bytes.length % 6) % 6 := by
  rw [← length_flatMap_sextetBits _ Library.Base64.sextets_lt, ← fillUp_byteBits, fillUp_eq,
    List.length_append, length_flatMap_byteBits, zeros, List.length_replicate]

/-- The sextets of the standard, then one character of padding; nothing when the index overflows. -/
theorem base64OfHex_toHex (bytes : Bytes) : base64OfHex (toHex bytes)
    = if 6 * (Library.Base64.sextets bytes).length ≤ intMax then
        some ((Library.Base64.sextets bytes).map Library.Base64.symbol ++ [Library.Base64.pad])
      else none := by
  have hlength := length_sextets bytes
  have hhex := length_toHex bytes
  unfold base64OfHex hexToBin
  split
  · rename_i hint
    rw [hexToBinFrom_eq _ _ _ (by omega), List.nil_append, flatMap_digitBits_toHex]
    have hencode :=
      encodeFrom_sextets _ (@Library.Base64.sextets_lt bytes) [] [] (by simpa using hint)
    rw [List.nil_append, List.nil_append] at hencode
    change binToBase64 _ = _
    rw [binToBase64, fillUp_byteBits]
    exact congrArg (Option.map _) hencode
  · rename_i hint
    by_cases hhexInt : (toHex bytes).length ≤ intMax
    · rw [hexToBinFrom_eq _ _ _ (by omega), List.nil_append, flatMap_digitBits_toHex]
      change binToBase64 _ = _
      rw [binToBase64, fillUp_byteBits, encodeFrom_overflow _ _ _ (Nat.zero_le _)]
      · rfl
      · rw [length_flatMap_sextetBits _ Library.Base64.sextets_lt]
        omega
    · rw [hexToBinFrom_overflow _ _ _ (Nat.zero_le _) (by omega)]
      rfl

theorem base64OfHex_eq_encode_iff (bytes : Bytes) :
    base64OfHex (toHex bytes) = some (Library.Base64.encode bytes)
      ↔ bytes.length % 3 = 2 ∧ 6 * (Library.Base64.sextets bytes).length ≤ intMax := by
  rw [base64OfHex_toHex, Library.Base64.encode_eq, ← Library.Base64.padding_eq_singleton_iff]
  split
  · rename_i hint
    rw [Option.some.injEq, List.append_cancel_left_eq, and_iff_left hint]
    exact eq_comm
  · rename_i hint
    exact iff_of_false (by intro h; cases h) fun h => hint h.2

/-- A signature is the Base64 of the standard exactly when its length is two modulo three, as long
as the bits of the digest can be counted by an `int`. Those of an HMAC are twenty bytes. -/
theorem signature_standard_iff (bytes : Bytes) :
    ((base64OfHex (toHex bytes) = some (Library.Base64.encode bytes) ↔ bytes.length % 3 = 2)
      ↔ bytes.length % 3 ≠ 2 ∨ bytes.length < 268435456)
    ∧ ∀ (hmac : Bytes → Bytes → Vector UInt8 20) (content key : Bytes),
        hashHmac hmac content key = some (Library.Base64.encode (hmac content key).toList) := by
  constructor
  · have hlength := length_sextets bytes
    rw [base64OfHex_eq_encode_iff]
    unfold intMax
    omega
  · intro hmac content key
    have hdigest : (hmac content key).toList.length = 20 := Vector.length_toList
    have hlength := length_sextets (hmac content key).toList
    rw [hdigest] at hlength
    rw [hashHmac, base64OfHex_eq_encode_iff, hdigest]
    unfold intMax
    omega

/-- The index overflows on a digest of 268435457 bytes, whose length is two modulo three. -/
theorem long_signature_overflows :
    ¬ ∀ bytes : Bytes,
      (base64OfHex (toHex bytes) = some (Library.Base64.encode bytes) ↔ bytes.length % 3 = 2) := by
  intro hall
  have hlength : (List.replicate 268435457 (0 : UInt8)).length = 268435457 := List.length_replicate
  have hsextets := length_sextets (List.replicate 268435457 (0 : UInt8))
  have hstandard := (hall (List.replicate 268435457 0)).mpr (by rw [hlength])
  rw [base64OfHex_eq_encode_iff] at hstandard
  rw [hlength] at hsextets
  have hint := hstandard.2
  unfold intMax at hint
  omega

end TapSdk.Base64
