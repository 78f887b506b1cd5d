import TapSdk.Library.Hmac
import TapSdk.Base.Hmac
import TapSdk.Base.Proof.Base64
import TapSdk.Base.Proof.Sha1

/-!
# What `hmac` computes

For a hasher that computes a hash of what has been added to it, whatever was in memory.
-/

namespace TapSdk

open Library

namespace HashMethod

variable {σ : Type} {method : HashMethod σ} {hash : Bytes → Bytes}

/-- A new hasher returns the hash of the pieces that have been added to it. -/
structure Computes (method : HashMethod σ) (hash : Bytes → Bytes) : Prop where
  blockSize : method.blockSize = Hmac.blockSize
  length_le : ∀ data, (hash data).length ≤ Hmac.blockSize
  getHash : ∀ memory (pieces : List Bytes) extra,
    (method.getHash (pieces.foldl method.add (method.new memory)) extra).1 = hash pieces.flatten
  getHashText : ∀ memory (pieces : List Bytes) extra,
    (method.getHashText (pieces.foldl method.add (method.new memory)) extra).1
      = Base64.toHex (hash pieces.flatten)

theorem read_xorKey (byte : UInt8) (usedKey : Memory) :
    (method.xorKey byte usedKey).read 0 method.blockSize
      = Hmac.pad byte (usedKey.read 0 method.blockSize) := by
  unfold Memory.read Hmac.pad
  rw [List.map_map]
  apply List.map_congr_left
  intro i hi
  rw [Function.comp_apply, Nat.zero_add]
  exact if_pos (List.mem_range.mp hi)

/-- The second loop over the key undoes the first. -/
theorem pad_pad (key : Bytes) :
    Hmac.pad (0x5C ^^^ 0x36) (Hmac.pad 0x36 key) = Hmac.pad 0x5C key := by
  unfold Hmac.pad
  rw [List.map_map]
  apply List.map_congr_left
  intro byte _
  show byte ^^^ 0x36 ^^^ (0x5C ^^^ 0x36) = byte ^^^ 0x5C
  rw [UInt8.xor_assoc, UInt8.xor_comm 0x5C, ← UInt8.xor_assoc 0x36, UInt8.xor_self, UInt8.zero_xor]

theorem read_usedKey {used : Bytes} (h : used.length ≤ Hmac.blockSize) :
    (Memory.write (fun _ => 0) 0 used).read 0 Hmac.blockSize
      = used ++ List.replicate (Hmac.blockSize - used.length) 0 := by
  have hzeros : Memory.write (fun _ => 0) 0
      (used ++ List.replicate (Hmac.blockSize - used.length) 0)
      = Memory.write (fun _ => 0) 0 used := by
    funext i
    unfold Memory.write
    rw [if_pos (Nat.zero_le i), if_pos (Nat.zero_le i), Nat.sub_zero]
    rcases Nat.lt_or_ge i used.length with hlt | hge
    · rw [List.getElem?_append_left hlt]
    · rw [List.getElem?_append_right hge, List.getElem?_eq_none hge, List.getElem?_replicate]
      split <;> rfl
  rw [← hzeros, Memory.read_write_of_length]
  rw [List.length_append, List.length_replicate]
  exact Nat.add_sub_cancel' h

theorem Computes.hmac_eq (h : method.Computes hash) (stack : Nat → Memory) (data key : Bytes) :
    method.hmac stack data key = Base64.toHex (Hmac.hmac hash data key) := by
  have hsingle (memory extra : Memory) (piece : Bytes) :
      (method.getHash (method.add (method.new memory) piece) extra).1 = hash piece := by
    have hpieces := h.getHash memory [piece] extra
    rwa [List.flatten_singleton] at hpieces
  have hkey : Memory.read (if key.length ≤ method.blockSize then Memory.write (fun _ => 0) 0 key
      else Memory.write (fun _ => 0) 0
        (method.getHash (method.add (method.new (stack 0)) key) (stack 1)).1) 0 method.blockSize
      = Hmac.fullKey hash key := by
    rw [hsingle, h.blockSize, Hmac.fullKey]
    split
    · next hle => exact read_usedKey hle
    · exact read_usedKey (h.length_le key)
  have htwo (memory extra : Memory) (first second : Bytes) :
      (method.getHash (method.add (method.add (method.new memory) first) second) extra).1
        = hash (first ++ second) := by
    have hpieces := h.getHash memory [first, second] extra
    rwa [List.flatten_cons, List.flatten_singleton] at hpieces
  have hfinal (memory extra : Memory) (first second : Bytes) :
      (method.getHashText (method.add (method.add (method.new memory) first) second) extra).1
        = Base64.toHex (hash (first ++ second)) := by
    have hpieces := h.getHashText memory [first, second] extra
    rwa [List.flatten_cons, List.flatten_singleton] at hpieces
  unfold hmac
  simp only [hfinal, htwo, read_xorKey, pad_pad]
  rw [hkey]
  rfl

end HashMethod

/-! ### SHA-1 -/

namespace SHA1

theorem streams_new (memory : Memory) (pieces : List Bytes) :
    (pieces.foldl add (new memory)).Streams pieces.flatten := by
  have hpieces (sha1 : SHA1) (message : Bytes) (h : sha1.Streams message) :
      (pieces.foldl add sha1).Streams (message ++ pieces.flatten) := by
    induction pieces generalizing sha1 message with
    | nil => rwa [List.flatten_nil, List.append_nil]
    | cons piece pieces ih =>
        rw [List.flatten_cons, ← List.append_assoc]
        exact ih _ _ (h.add piece)
  exact hpieces _ [] (streams_reset _)

theorem hashMethod_computes : hashMethod.Computes Library.Sha1.hash where
  blockSize := rfl
  length_le data := by
    rw [Library.Sha1.length_hash]
    decide
  getHash memory pieces extra := (streams_new memory pieces).getHash_fst extra
  getHashText memory pieces extra := (streams_new memory pieces).getHashText_fst extra

end SHA1

theorem hashHmacSha1_eq (stack : Nat → Memory) (content key : Bytes) :
    hashHmacSha1 stack content key
      = some (Library.Base64.encode (Hmac.hmac Library.Sha1.hash content key)) := by
  rw [hashHmacSha1, SHA1.hashMethod_computes.hmac_eq, Base64.base64OfHex_eq_encode_iff]
  have hdigest : (Hmac.hmac Library.Sha1.hash content key).length = 20 := Library.Sha1.length_hash _
  have hlength := Base64.length_sextets (Hmac.hmac Library.Sha1.hash content key)
  rw [hdigest] at hlength ⊢
  unfold Base64.intMax
  omega

/-- For every content and key, whatever was in memory: the template computes the hexadecimal text of
HMAC-SHA1, and `HashHmac` its Base64, with padding, in 28 characters. -/
theorem hashHmac_standard (stack : Nat → Memory) (content key : Bytes) :
    SHA1.hashMethod.hmac stack content key = Base64.toHex (Hmac.hmac Library.Sha1.hash content key)
      ∧ ∃ text, hashHmacSha1 stack content key = some text ∧ text.length = 28
        ∧ text = Library.Base64.encode (Hmac.hmac Library.Sha1.hash content key) := by
  have hdigest : (Hmac.hmac Library.Sha1.hash content key).length = 20 := Library.Sha1.length_hash _
  have hsextets := Base64.length_sextets (Hmac.hmac Library.Sha1.hash content key)
  refine ⟨SHA1.hashMethod_computes.hmac_eq stack content key, _,
    hashHmacSha1_eq stack content key, ?_, rfl⟩
  rw [hdigest] at hsextets
  rw [Library.Base64.encode_eq, List.length_append, List.length_map, Library.Base64.padding,
    List.length_replicate, hdigest]
  omega

end TapSdk
