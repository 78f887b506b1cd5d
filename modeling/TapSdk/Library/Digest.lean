import TapSdk.Library.Memory

/-!
# Iterated digests

The digests of the MD4 family. A state is compressed with one block of 64 bytes after the other; the
message is followed by a bit, zeros and its length in bits, so that it ends with a block. A stream
keeps the state after the whole blocks and the bytes since: given more, it goes on as if it had been
given all at once.
-/

namespace TapSdk.Library

/-- `lengthBytes` writes a number of bits. -/
structure Digest (σ : Type) where
  start : σ
  compress : σ → List UInt8 → σ
  lengthBytes : Nat → List UInt8
  output : σ → List UInt8
  length_lengthBytes : ∀ bits, (lengthBytes bits).length = 8

namespace Digest

variable {σ : Type} (digest : Digest σ)

def blockSize : Nat := 64

/-- The state after the whole blocks, and the bytes that are left. -/
def absorb (state : σ) (bytes : List UInt8) : σ × List UInt8 :=
  if blockSize ≤ bytes.length then
    absorb (digest.compress state (bytes.take blockSize)) (bytes.drop blockSize)
  else (state, bytes)
termination_by bytes.length
decreasing_by
  rw [List.length_drop]
  unfold blockSize at *
  omega

def padding (length : Nat) : List UInt8 :=
  0x80 :: List.replicate ((119 - length % 64) % 64) 0 ++ digest.lengthBytes (8 * length)

def hash (message : List UInt8) : List UInt8 :=
  digest.output (digest.absorb digest.start (message ++ digest.padding message.length)).1

variable {digest}

/-! ### Absorbing -/

theorem absorb_of_lt {bytes : List UInt8} (h : bytes.length < blockSize) (state : σ) :
    digest.absorb state bytes = (state, bytes) := by
  rw [absorb, if_neg (Nat.not_le.mpr h)]

theorem absorb_block {block : List UInt8} (h : block.length = blockSize) (state : σ)
    (rest : List UInt8) :
    digest.absorb state (block ++ rest) = digest.absorb (digest.compress state block) rest := by
  have hle : blockSize ≤ (block ++ rest).length := by
    rw [List.length_append, h]
    exact Nat.le_add_right _ _
  rw [absorb, if_pos hle, ← h, List.take_left, List.drop_left]

theorem absorb_single {block : List UInt8} (h : block.length = blockSize) (state : σ) :
    digest.absorb state block = (digest.compress state block, []) := by
  rw [← List.append_nil block, absorb_block h, absorb_of_lt]
  · rw [List.append_nil]
  · exact Nat.zero_lt_succ _

/-- What is absorbed first leaves a state and bytes that stand for it. -/
theorem absorb_append (state : σ) (first second : List UInt8) :
    digest.absorb state (first ++ second)
      = digest.absorb (digest.absorb state first).1 ((digest.absorb state first).2 ++ second) := by
  fun_induction digest.absorb state first with
  | case1 state first hle ih =>
      have hlength : (first.take blockSize).length = blockSize := by
        rw [List.length_take]
        exact Nat.min_eq_left hle
      calc digest.absorb state (first ++ second)
          = digest.absorb state (first.take blockSize ++ (first.drop blockSize ++ second)) := by
            rw [← List.append_assoc, List.take_append_drop]
        _ = digest.absorb (digest.compress state (first.take blockSize))
              (first.drop blockSize ++ second) := absorb_block hlength _ _
        _ = _ := ih
  | case2 state first hlt => rfl

theorem length_absorb (state : σ) (bytes : List UInt8) :
    (digest.absorb state bytes).2.length = bytes.length % 64 := by
  fun_induction digest.absorb state bytes with
  | case1 state bytes hle ih =>
      rw [ih, List.length_drop]
      unfold blockSize at *
      omega
  | case2 state bytes hlt =>
      unfold blockSize at hlt
      exact (Nat.mod_eq_of_lt (Nat.not_le.mp hlt)).symm

theorem absorb_snd (state : σ) (bytes : List UInt8) :
    (digest.absorb state bytes).2 = bytes.drop (64 * (bytes.length / 64)) := by
  fun_induction digest.absorb state bytes with
  | case1 state bytes hle ih =>
      unfold blockSize at hle ih ⊢
      rw [ih, List.drop_drop, List.length_drop]
      congr 1
      omega
  | case2 state bytes hlt =>
      unfold blockSize at hlt
      rw [Nat.div_eq_of_lt (Nat.not_le.mp hlt)]
      rfl

theorem absorb_take (state : σ) (bytes : List UInt8) :
    digest.absorb state (bytes.take (64 * (bytes.length / 64)))
      = ((digest.absorb state bytes).1, []) := by
  have hsplit := List.take_append_drop (64 * (bytes.length / 64)) bytes
  have hwhole : (digest.absorb state (bytes.take (64 * (bytes.length / 64)))).2 = [] := by
    rw [absorb_snd, List.length_take, List.drop_of_length_le]
    rw [List.length_take]
    omega
  have hrest : (bytes.drop (64 * (bytes.length / 64))).length < blockSize := by
    rw [List.length_drop, blockSize]
    omega
  have hall : digest.absorb state bytes
      = ((digest.absorb state (bytes.take (64 * (bytes.length / 64)))).1,
        bytes.drop (64 * (bytes.length / 64))) := by
    conv_lhs => rw [← hsplit, absorb_append, hwhole, List.nil_append, absorb_of_lt hrest]
  rw [hall]
  exact Prod.ext rfl hwhole

/-! ### Streams -/

/-- The state and the bytes that stand for a message. -/
def Holds (digest : Digest σ) (state : σ) (pending message : List UInt8) : Prop :=
  digest.absorb digest.start message = (state, pending)

variable {state next : σ} {pending left message data : List UInt8}

theorem holds_nil : digest.Holds digest.start [] [] := absorb_of_lt (by decide) _

theorem Holds.length (h : digest.Holds state pending message) :
    pending.length = message.length % 64 := by
  rw [← length_absorb digest.start message, h]

theorem Holds.append (h : digest.Holds state pending message)
    (hdata : digest.absorb state (pending ++ data) = (next, left)) :
    digest.Holds next left (message ++ data) := by
  unfold Holds at h ⊢
  rw [absorb_append, h]
  exact hdata

/-- A message whose last bytes do not fill a block. -/
theorem Holds.push (h : digest.Holds state pending message)
    (hfits : pending.length + data.length < blockSize) :
    digest.Holds state (pending ++ data) (message ++ data) :=
  h.append (absorb_of_lt (by rwa [List.length_append]) state)

/-- A message whose last bytes fill a block. -/
theorem Holds.block (h : digest.Holds state pending message)
    (hfull : pending.length + data.length = blockSize) :
    digest.Holds (digest.compress state (pending ++ data)) [] (message ++ data) :=
  h.append (absorb_single (by rwa [List.length_append]) state)

/-- The whole blocks, followed by other bytes than those that are left. -/
theorem Holds.replace (h : digest.Holds state pending message) {other : List UInt8}
    (hlength : other.length = pending.length) :
    digest.Holds state other (message.take (64 * (message.length / 64)) ++ other) := by
  have hlt : other.length < blockSize := by
    rw [hlength, h.length]
    exact Nat.mod_lt _ (by decide)
  rw [Holds, absorb_append, absorb_take, h, List.nil_append, absorb_of_lt hlt]

/-! ### The last block -/

/-- The one block that follows fewer than 56 bytes. -/
theorem Holds.hash_of_short (h : digest.Holds state pending message)
    (hshort : pending.length < 56) :
    digest.hash message = digest.output (digest.compress state (pending
      ++ (0x80 :: List.replicate (55 - pending.length) 0
        ++ digest.lengthBytes (8 * message.length)))) := by
  have hlength := h.length
  have hzeros : (119 - message.length % 64) % 64 = 55 - pending.length := by omega
  have hpadding := digest.length_lengthBytes (8 * message.length)
  have hblock : pending.length + (digest.padding message.length).length = blockSize := by
    rw [padding, List.length_append, List.length_cons, List.length_replicate, hpadding]
    unfold blockSize
    omega
  have hlast : digest.absorb digest.start _ = _ := h.block hblock
  rw [hash, hlast, padding, hzeros]

/-- The two blocks that follow 56 bytes or more. -/
theorem Holds.hash_of_long (h : digest.Holds state pending message) (hlong : 56 ≤ pending.length) :
    digest.hash message = digest.output (digest.compress
      (digest.compress state (pending ++ 0x80 :: List.replicate (63 - pending.length) 0))
      (List.replicate 56 0 ++ digest.lengthBytes (8 * message.length))) := by
  have hlength := h.length
  have hzeros : (119 - message.length % 64) % 64 = (63 - pending.length) + 56 := by omega
  have hpadding := digest.length_lengthBytes (8 * message.length)
  have hfirst : pending.length + (0x80 :: List.replicate (63 - pending.length) (0 : UInt8)).length
      = blockSize := by
    rw [List.length_cons, List.length_replicate]
    unfold blockSize
    omega
  have hsecond : (List.replicate 56 (0 : UInt8) ++ digest.lengthBytes (8 * message.length)).length
      = blockSize := by
    rw [List.length_append, List.length_replicate, hpadding]
    rfl
  have hlast : digest.absorb digest.start (message ++ 0x80 :: List.replicate (63 - pending.length) 0
      ++ (List.replicate 56 0 ++ digest.lengthBytes (8 * message.length))) = _ :=
    (h.block hfirst).append (absorb_single hsecond _)
  have hsplit : digest.padding message.length = 0x80 :: List.replicate (63 - pending.length) 0
      ++ (List.replicate 56 0 ++ digest.lengthBytes (8 * message.length)) := by
    rw [padding, hzeros, List.replicate_add]
    simp only [List.cons_append, List.append_assoc]
  rw [hash, hsplit, ← List.append_assoc, hlast]

end Digest

end TapSdk.Library
