import Mathlib.Tactic.IntervalCases
import TapSdk.Base.Sha1

/-!
# What `SHA1` computes

The five steps of `roundBody` are five rounds of the standard, and so `processBlock` compresses.
What a member of the class holds stands for all that has been added, whatever the pieces were.
-/

namespace TapSdk

open Library

namespace SHA1

/-! ### A block -/

theorem f1_eq : f1 = Sha1.choose := by
  funext b c d
  apply UInt32.eq_of_toBitVec_eq
  apply BitVec.eq_of_getLsbD_eq
  intro bit hbit
  unfold f1 Sha1.choose
  simp only [UInt32.toBitVec_xor, UInt32.toBitVec_and, UInt32.toBitVec_not, BitVec.getLsbD_xor,
    BitVec.getLsbD_and, BitVec.getLsbD_not, hbit]
  cases b.toBitVec.getLsbD bit <;> cases c.toBitVec.getLsbD bit
    <;> cases d.toBitVec.getLsbD bit <;> rfl

theorem f3_eq : f3 = Sha1.majority := by
  funext b c d
  apply UInt32.eq_of_toBitVec_eq
  apply BitVec.eq_of_getLsbD_eq
  intro bit _
  unfold f3 Sha1.majority
  simp only [UInt32.toBitVec_xor, UInt32.toBitVec_and, UInt32.toBitVec_or, BitVec.getLsbD_xor,
    BitVec.getLsbD_and, BitVec.getLsbD_or]
  cases b.toBitVec.getLsbD bit <;> cases c.toBitVec.getLsbD bit
    <;> cases d.toBitVec.getLsbD bit <;> rfl

theorem swap_fromLe32 {bytes : Bytes} (h : bytes.length = 4) :
    swap (fromLe32 bytes) = fromBe32 bytes := by
  obtain ⟨a, b, c, d, rfl⟩ := List.length_eq_four.mp h
  apply UInt32.eq_of_toBitVec_eq
  apply BitVec.eq_of_getLsbD_eq
  intro bit hbit
  rw [fromBe32, show [a, b, c, d].reverse = [d, c, b, a] from rfl, getLsbD_fromLe32]
  unfold swap
  simp only [UInt32.toBitVec_or, UInt32.toBitVec_and, UInt32.toBitVec_shiftLeft,
    UInt32.toBitVec_shiftRight]
  interval_cases bit <;> simp [getLsbD_fromLe32, -BitVec.getLsbD_eq_getElem]

theorem words_eq {block : Bytes} (h : block.length = 64) :
    words block = (List.range 80).map (Sha1.schedule block) := by
  have hextended (count : Nat) : (List.range' 16 count).foldl extend
      ((List.range 16).map fun i => swap (fromLe32 ((block.drop (4 * i)).take 4)))
        = (List.range (16 + count)).map (Sha1.schedule block) := by
    induction count with
    | zero =>
        apply List.map_congr_left
        intro i hi
        have hlt := List.mem_range.mp hi
        rw [Sha1.schedule_of_lt hlt, swap_fromLe32]
        rw [List.length_take, List.length_drop, h]
        omega
    | succ count ih =>
        have hword (back : Nat) (hpos : 0 < back) :
            ((List.range (16 + count)).map (Sha1.schedule block)).getD (16 + count - back) 0
              = Sha1.schedule block (16 + count - back) := by
          rw [List.getD_eq_getElem?_getD, List.getElem?_map, List.getElem?_range (by omega)]
          rfl
        rw [List.range'_1_concat, List.foldl_append, ih, ← Nat.add_assoc, List.range_succ,
          List.map_append]
        show extend _ (16 + count) = _
        rw [extend, hword 3 (by decide), hword 8 (by decide), hword 14 (by decide),
          hword 16 (by decide), List.map_singleton, Sha1.schedule_of_ge (Nat.le_add_right 16 count)]
        rfl
  exact hextended 64

theorem getD_words {block : Bytes} (h : block.length = 64) {time : Nat} (hlt : time < 80) :
    (words block).getD time 0 = Sha1.schedule block time := by
  rw [words_eq h, List.getD_eq_getElem?_getD, List.getElem?_map, List.getElem?_range hlt]
  rfl

section Rounds

variable {mix : UInt32 → UInt32 → UInt32 → UInt32} {constant : UInt32} {block : Bytes}

theorem roundBody_eq (words : List UInt32) (hash : Sha1.Registers) (i : Nat) :
    roundBody mix constant words hash i
      = (List.range' (5 * i) 5).foldl
          (fun registers time => Sha1.round mix constant (words.getD time 0) registers) hash := by
  have hround (x y z w : UInt32) : x + (y + z + w + constant) = y + z + x + constant + w := by
    ac_rfl
  simp only [List.range', List.foldl_cons, List.foldl_nil, roundBody, Sha1.round, hround]
  rfl

/-- The loop of one round function. -/
theorem foldl_roundBody (h : block.length = 64) (first count : Nat) (hbound : first + count ≤ 16)
    (hmix : ∀ time, 5 * first ≤ time → time < 5 * (first + count) →
      Sha1.mix time = mix ∧ Sha1.constant time = constant)
    (hash : Sha1.Registers) :
    (List.range' first count).foldl (roundBody mix constant (words block)) hash
      = (List.range' (5 * first) (5 * count)).foldl (Sha1.step block) hash := by
  induction count generalizing first hash with
  | zero => rfl
  | succ count ih =>
      have hbody : roundBody mix constant (words block) hash first
          = (List.range' (5 * first) 5).foldl (Sha1.step block) hash := by
        rw [roundBody_eq]
        apply List.foldl_ext
        intro registers time htime
        have hrange := List.mem_range'_1.mp htime
        obtain ⟨hm, hc⟩ := hmix time (by omega) (by omega)
        rw [Sha1.step, hm, hc, getD_words h (by omega)]
      rw [List.range'_succ, List.foldl_cons, hbody, ih (first + 1) (by omega)
        (fun time hlow hhigh => hmix time (by omega) (by omega)), ← List.foldl_append]
      congr 1

end Rounds

@[simp]
theorem processBlock_bufferSize (sha1 : SHA1) (block : Bytes) :
    (sha1.processBlock block).bufferSize = sha1.bufferSize := by
  rw [processBlock]

@[simp]
theorem processBlock_buffer (sha1 : SHA1) (block : Bytes) :
    (sha1.processBlock block).buffer = sha1.buffer := by
  rw [processBlock]

@[simp]
theorem processBlock_numBytes (sha1 : SHA1) (block : Bytes) :
    (sha1.processBlock block).numBytes = sha1.numBytes := by
  rw [processBlock]

theorem processBlock_hash (sha1 : SHA1) {block : Bytes} (h : block.length = 64) :
    (sha1.processBlock block).hash = Sha1.digest.compress sha1.hash block := by
  have hfirst (hash : Sha1.Registers) : firstRound (words block) hash
      = (List.range' 0 20).foldl (Sha1.step block) hash := by
    refine foldl_roundBody h 0 4 (by decide) (fun time hlow hhigh => ?_) hash
    rw [f1_eq]
    exact ⟨if_pos (by omega), if_pos (by omega)⟩
  have hsecond (hash : Sha1.Registers) : secondRound (words block) hash
      = (List.range' 20 20).foldl (Sha1.step block) hash := by
    refine foldl_roundBody h 4 4 (by decide) (fun time hlow hhigh => ?_) hash
    rw [Sha1.mix, if_neg (by omega), if_pos (by omega), Sha1.constant, if_neg (by omega),
      if_pos (by omega)]
    exact ⟨rfl, rfl⟩
  have hthird (hash : Sha1.Registers) : thirdRound (words block) hash
      = (List.range' 40 20).foldl (Sha1.step block) hash := by
    refine foldl_roundBody h 8 4 (by decide) (fun time hlow hhigh => ?_) hash
    rw [Sha1.mix, if_neg (by omega), if_neg (by omega), if_pos (by omega), Sha1.constant,
      if_neg (by omega), if_neg (by omega), if_pos (by omega), f3_eq]
    exact ⟨rfl, rfl⟩
  have hfourth (hash : Sha1.Registers) : fourthRound (words block) hash
      = (List.range' 60 20).foldl (Sha1.step block) hash := by
    refine foldl_roundBody h 12 4 (by decide) (fun time hlow hhigh => ?_) hash
    rw [Sha1.mix, if_neg (by omega), if_neg (by omega), if_neg (by omega), Sha1.constant,
      if_neg (by omega), if_neg (by omega), if_neg (by omega)]
    exact ⟨rfl, rfl⟩
  have hrange : List.range 80
      = List.range' 0 20 ++ List.range' 20 20 ++ List.range' 40 20 ++ List.range' 60 20 := by
    rw [List.range_eq_range', List.range'_append_1, List.range'_append_1, List.range'_append_1]
  show sha1.hash.add _ = sha1.hash.add _
  rw [hfirst, hsecond, hthird, hfourth, hrange, List.foldl_append, List.foldl_append,
    List.foldl_append]

theorem processBlock_read_hash (sha1 : SHA1) (memory : Memory) :
    (sha1.processBlock (memory.read 0 blockSize)).hash
      = Sha1.digest.compress sha1.hash (memory.read 0 blockSize) :=
  processBlock_hash sha1 Memory.length_read

/-! ### What the buffer holds -/

/-- The hash and the buffer stand for `message`. -/
structure Streams (sha1 : SHA1) (message : Bytes) : Prop where
  holds : Sha1.digest.Holds sha1.hash (sha1.buffer.read 0 sha1.bufferSize) message
  numBytes : sha1.numBytes = UInt64.ofNat (64 * (message.length / 64))

variable {sha1 : SHA1} {message : Bytes}

theorem streams_reset (sha1 : SHA1) : sha1.reset.Streams [] := ⟨Digest.holds_nil, rfl⟩

namespace Streams

theorem bufferSize (h : sha1.Streams message) : sha1.bufferSize = message.length % 64 := by
  have hlength := h.holds.length
  rwa [Memory.length_read] at hlength

theorem bufferSize_lt (h : sha1.Streams message) : sha1.bufferSize < 64 := by
  rw [h.bufferSize]
  exact Nat.mod_lt _ (by decide)

/-- A block more. -/
theorem numBytes_add (h : sha1.Streams message) {data : Bytes}
    (hfull : sha1.bufferSize + data.length = 64) :
    sha1.numBytes + 64 = UInt64.ofNat (64 * ((message ++ data).length / 64)) := by
  have hsize := h.bufferSize
  rw [h.numBytes, show (64 : UInt64) = UInt64.ofNat 64 from rfl, ← UInt64.ofNat_add,
    List.length_append]
  congr 1
  omega

end Streams

theorem foldl_put (data : Bytes) (sha1 : SHA1) :
    data.foldl put sha1 = { sha1 with
      buffer := sha1.buffer.write sha1.bufferSize data
      bufferSize := sha1.bufferSize + data.length } := by
  induction data generalizing sha1 with
  | nil =>
      rw [Memory.write_nil]
      rfl
  | cons byte rest ih =>
      rw [List.foldl_cons, ih, Memory.write_cons byte]
      simp only [put, List.length_cons, Nat.add_assoc, Nat.add_comm 1]

theorem read_foldl_put (data : Bytes) (sha1 : SHA1) :
    (data.foldl put sha1).buffer.read 0 (data.foldl put sha1).bufferSize
      = sha1.buffer.read 0 sha1.bufferSize ++ data := by
  rw [foldl_put]
  exact Memory.read_write_after _ _ _

theorem fillBuffer_eq (sha1 : SHA1) (data : Bytes) :
    sha1.fillBuffer data = ((data.take (blockSize - sha1.bufferSize)).foldl put sha1,
      data.drop (blockSize - sha1.bufferSize)) := by
  induction data generalizing sha1 with
  | nil =>
      rw [List.take_nil, List.drop_nil]
      rfl
  | cons byte rest ih =>
      rw [fillBuffer]
      split
      · next hlt =>
          have hroom : blockSize - sha1.bufferSize
              = (blockSize - (sha1.put byte).bufferSize) + 1 := by
            show _ = blockSize - (sha1.bufferSize + 1) + 1
            omega
          rw [ih, hroom]
          rfl
      · next hge =>
          rw [Nat.sub_eq_zero_of_le (Nat.not_lt.mp hge)]
          rfl

namespace Streams

/-- Bytes that do not fill the buffer. -/
theorem keep (h : sha1.Streams message) {data : Bytes}
    (hfits : sha1.bufferSize + data.length < 64) :
    (data.foldl put sha1).Streams (message ++ data) := by
  have hsize := h.bufferSize
  constructor
  · rw [read_foldl_put, foldl_put]
    apply h.holds.push
    rwa [Memory.length_read]
  · rw [foldl_put]
    show sha1.numBytes = _
    rw [h.numBytes, List.length_append]
    congr 2
    omega

/-- Bytes that fill the buffer. -/
theorem flush (h : sha1.Streams message) {data : Bytes}
    (hfull : sha1.bufferSize + data.length = 64) :
    (data.foldl put sha1).flushBuffer.Streams (message ++ data) := by
  have hread := read_foldl_put data sha1
  have hsize : (data.foldl put sha1).bufferSize = blockSize := by
    rw [foldl_put]
    exact hfull
  rw [hsize] at hread
  constructor
  · show Sha1.digest.Holds ((data.foldl put sha1).processBlock _).hash [] _
    rw [processBlock_read_hash, hread, show (data.foldl put sha1).hash = sha1.hash by
      rw [foldl_put]]
    apply h.holds.block
    rwa [Memory.length_read]
  · show (data.foldl put sha1).numBytes + 64 = _
    rw [← h.numBytes_add hfull, foldl_put]

/-- The loop over full blocks, and the loop over what it leaves. -/
theorem fullBlocks (h : sha1.Streams message) (hempty : sha1.bufferSize = 0) (data : Bytes) :
    ((sha1.fullBlocks data).2.foldl put (sha1.fullBlocks data).1).Streams (message ++ data) := by
  fun_induction sha1.fullBlocks data generalizing message with
  | case1 sha1 data hle ih =>
      have hlength : (data.take SHA1.blockSize).length = 64 := by
        rw [List.length_take]
        exact Nat.min_eq_left hle
      have hnext : ({ (sha1.processBlock (data.take SHA1.blockSize)) with
          numBytes := sha1.numBytes + 64 } : SHA1).Streams
            (message ++ data.take SHA1.blockSize) := by
        have hblock := h.holds
        rw [hempty, Memory.read_zero] at hblock
        refine ⟨?_, h.numBytes_add (by rw [hempty, hlength])⟩
        simp only [processBlock_buffer, processBlock_bufferSize,
          processBlock_hash _ hlength, hempty, Memory.read_zero]
        exact hblock.block (by rw [List.length_nil, hlength]; rfl)
      have hall := ih hnext (by rw [processBlock_bufferSize, hempty])
      rwa [List.append_assoc, List.take_append_drop] at hall
  | case2 sha1 data hlt =>
      apply h.keep
      rw [hempty, Nat.zero_add]
      exact Nat.not_le.mp hlt

theorem add (h : sha1.Streams message) (data : Bytes) :
    (sha1.add data).Streams (message ++ data) := by
  have hlt := h.bufferSize_lt
  -- what follows the loop that fills the buffer
  have hrest {sha1 : SHA1} {message : Bytes} (h : sha1.Streams message) (data : Bytes)
      (hempty : sha1.bufferSize = 0 ∨ data = []) :
      (if data = [] then sha1
        else (sha1.fullBlocks data).2.foldl put (sha1.fullBlocks data).1).Streams
        (message ++ data) := by
    split
    · next hnil => rwa [hnil, List.append_nil]
    · next hne => exact h.fullBlocks (hempty.resolve_right hne) data
  rw [SHA1.add]
  rcases Nat.eq_zero_or_pos sha1.bufferSize with hzero | hpos
  · rw [if_neg (by omega)]
    simp only [if_neg (show ¬sha1.bufferSize = SHA1.blockSize from Nat.ne_of_lt hlt)]
    exact hrest h data (Or.inl hzero)
  · rw [if_pos hpos, fillBuffer_eq]
    have hsplit := List.take_append_drop (SHA1.blockSize - sha1.bufferSize) data
    rcases Nat.lt_or_ge data.length (SHA1.blockSize - sha1.bufferSize) with hfew | hmany
    · rw [List.take_of_length_le (Nat.le_of_lt hfew), List.drop_of_length_le (Nat.le_of_lt hfew)]
      have hkept := h.keep (Nat.add_lt_of_lt_sub' hfew)
      simp only [if_neg (show ¬(data.foldl put sha1).bufferSize = SHA1.blockSize from
        Nat.ne_of_lt hkept.bufferSize_lt)]
      rwa [if_pos trivial]
    · have hfull : sha1.bufferSize + (data.take (SHA1.blockSize - sha1.bufferSize)).length
          = 64 := by
        rw [List.length_take, Nat.min_eq_left hmany]
        exact Nat.add_sub_cancel' (Nat.le_of_lt hlt)
      have hsize : ((data.take (SHA1.blockSize - sha1.bufferSize)).foldl put sha1).bufferSize
          = SHA1.blockSize := by
        rw [foldl_put]
        exact hfull
      have hflushed :=
        hrest (h.flush hfull) (data.drop (SHA1.blockSize - sha1.bufferSize)) (Or.inl rfl)
      rw [List.append_assoc, hsplit] at hflushed
      simp only [if_pos hsize]
      exact hflushed

end Streams

/-! ### The last block -/

theorem paddedLength_of_short {size : Nat} (h : size < 56) : paddedLength size = 56 := by
  unfold paddedLength
  have hlow : size * 8 + 1 &&& 511 = size * 8 + 1 := by
    rw [show 511 = 2 ^ 9 - 1 from rfl, Nat.and_two_pow_sub_one_eq_mod]
    exact Nat.mod_eq_of_lt (by omega)
  simp only [hlow]
  rw [if_pos (by omega)]
  omega

theorem paddedLength_of_long {size : Nat} (h : 56 ≤ size) (hlt : size < 64) :
    paddedLength size = 120 := by
  unfold paddedLength
  have hlow : size * 8 + 1 &&& 511 = size * 8 + 1 := by
    rw [show 511 = 2 ^ 9 - 1 from rfl, Nat.and_two_pow_sub_one_eq_mod]
    exact Nat.mod_eq_of_lt (by omega)
  simp only [hlow]
  rw [if_neg (by omega)]
  omega

theorem lengthBytes_eq (bits : Nat) : lengthBytes (UInt64.ofNat bits) = be64 bits := by
  have hbyte (shift : UInt64) (place : Nat) (hshift : shift.toNat = 8 * place)
      (hplace : place < 8) :
      (UInt64.ofNat bits >>> shift).toUInt8 = UInt8.ofNat (bits / 256 ^ place) := by
    apply UInt8.toNat_inj.mp
    rw [UInt64.toNat_toUInt8, UInt64.toNat_shiftRight, UInt64.toNat_ofNat',
      UInt8.toNat_ofNat', hshift, Nat.shiftRight_eq_div_pow]
    interval_cases place <;> simp only [Nat.reduceMul, Nat.reduceMod, Nat.reducePow] <;> omega
  have hlow : (UInt64.ofNat bits).toUInt8 = UInt8.ofNat bits := by
    apply UInt8.toNat_inj.mp
    rw [UInt64.toNat_toUInt8, UInt64.toNat_ofNat', UInt8.toNat_ofNat']
    omega
  rw [lengthBytes, hbyte 56 7 rfl (by decide), hbyte 48 6 rfl (by decide),
    hbyte 40 5 rfl (by decide),
    hbyte 32 4 rfl (by decide), hbyte 24 3 rfl (by decide), hbyte 16 2 rfl (by decide),
    hbyte 8 1 rfl (by decide), hlow]
  simp [be64, leBytes, List.range_succ]

theorem wordBytes_eq (word : UInt32) : wordBytes word = be32 word := by
  rw [be32, le32_eq]
  rfl

namespace Streams

theorem msgBits (h : sha1.Streams message) :
    8 * (sha1.numBytes + UInt64.ofNat sha1.bufferSize) = UInt64.ofNat (8 * message.length) := by
  rw [h.numBytes, h.bufferSize, ← UInt64.ofNat_add, show (8 : UInt64) = UInt64.ofNat 8 from rfl,
    ← UInt64.ofNat_mul]
  congr 1
  omega

end Streams

theorem read_padded (memory : Memory) {size : Nat} (h : size < 64) :
    ((memory.write size [128]).write (size + 1)
      (List.replicate (blockSize - (size + 1)) 0)).read 0 blockSize
      = memory.read 0 size ++ 0x80 :: List.replicate (63 - size) 0 := by
  have hzeros : blockSize - (size + 1) = 63 - size := by
    unfold blockSize
    omega
  have hafter := Memory.read_write_after memory size (128 :: List.replicate (63 - size) 0)
  rw [hzeros]
  rwa [Memory.write_cons, List.length_cons, List.length_replicate,
    show size + (63 - size + 1) = blockSize by unfold blockSize; omega] at hafter

theorem processBuffer_short (sha1 : SHA1) (extra : Memory) (h : sha1.bufferSize < 56) :
    (sha1.processBuffer extra).hash = Sha1.digest.compress sha1.hash
      (sha1.buffer.read 0 sha1.bufferSize
        ++ (0x80 :: List.replicate (55 - sha1.bufferSize) 0
          ++ lengthBytes (8 * (sha1.numBytes + UInt64.ofNat sha1.bufferSize)))) := by
  have hlt : sha1.bufferSize < blockSize := Nat.lt_trans h (by decide)
  unfold processBuffer
  simp only [paddedLength_of_short h, if_pos hlt, if_pos (show 56 < blockSize by decide),
    if_neg (show ¬blockSize < 56 by decide), processBlock_read_hash]
  generalize hlength : lengthBytes (8 * (sha1.numBytes + UInt64.ofNat sha1.bufferSize)) = length
  have height : length.length = 8 := by
    rw [← hlength]
    rfl
  have hpadded : List.replicate (63 - sha1.bufferSize) (0 : UInt8)
      = List.replicate (55 - sha1.bufferSize) 0 ++ List.replicate 8 0 := by
    rw [← List.replicate_add]
    congr 1
    omega
  have hwritten :=
    Memory.read_write_after ((sha1.buffer.write sha1.bufferSize [128]).write (sha1.bufferSize + 1)
    (List.replicate (blockSize - (sha1.bufferSize + 1)) 0)) 56 length
  rw [height, ← Memory.read_take (show 56 ≤ blockSize by decide), read_padded _ hlt, hpadded,
    ← List.cons_append, ← List.append_assoc, List.take_left' (by
      simp only [List.length_append, Memory.length_read, List.length_cons, List.length_replicate]
      omega)] at hwritten
  congr 1
  rw [← List.append_assoc]
  exact hwritten

theorem processBuffer_long (sha1 : SHA1) (extra : Memory) (h : 56 ≤ sha1.bufferSize)
    (hlt : sha1.bufferSize < 64) :
    (sha1.processBuffer extra).hash = Sha1.digest.compress
      (Sha1.digest.compress sha1.hash (sha1.buffer.read 0 sha1.bufferSize
        ++ 0x80 :: List.replicate (63 - sha1.bufferSize) 0))
      (List.replicate 56 0
        ++ lengthBytes (8 * (sha1.numBytes + UInt64.ofNat sha1.bufferSize))) := by
  have hmax : max (sha1.bufferSize + 1) blockSize = blockSize := Nat.max_eq_right hlt
  have hextra (length : Bytes) (height : length.length = 8) :
      ((extra.write (blockSize - blockSize) (List.replicate (120 - blockSize) 0)).write
        (120 - blockSize) length).read 0 blockSize = List.replicate 56 0 ++ length := by
    have hwritten := Memory.read_write_after (extra.write 0 (List.replicate 56 0)) 56 length
    rwa [height, Memory.read_write_of_length List.length_replicate] at hwritten
  unfold processBuffer
  simp only [paddedLength_of_long h hlt, if_pos (show sha1.bufferSize < blockSize from hlt),
    if_neg (show ¬120 < blockSize by decide), if_pos (show blockSize < 120 by decide),
    processBlock_read_hash, hmax]
  rw [read_padded _ hlt, hextra _ rfl]

/-- Only what follows the bytes in the buffer is written over. -/
theorem processBuffer_frame (sha1 : SHA1) (extra : Memory) (hlt : sha1.bufferSize < 64) :
    (sha1.processBuffer extra).numBytes = sha1.numBytes
      ∧ (sha1.processBuffer extra).bufferSize = sha1.bufferSize
      ∧ (sha1.processBuffer extra).buffer.read 0 sha1.bufferSize
          = sha1.buffer.read 0 sha1.bufferSize := by
  have hkept (first second third : Bytes) (later : Nat) (hlater : sha1.bufferSize ≤ later) :
      (((sha1.buffer.write sha1.bufferSize first).write (sha1.bufferSize + 1) second).write later
        third).read 0 sha1.bufferSize = sha1.buffer.read 0 sha1.bufferSize := by
    rw [Memory.read_write_disjoint (Or.inl (by omega)),
      Memory.read_write_disjoint (Or.inl (by omega)),
      Memory.read_write_disjoint (Or.inl (by omega))]
  rcases Nat.lt_or_ge sha1.bufferSize 56 with hshort | hlong
  · unfold processBuffer
    simp only [paddedLength_of_short hshort, if_pos (show sha1.bufferSize < blockSize from hlt),
      if_pos (show 56 < blockSize by decide), if_neg (show ¬blockSize < 56 by decide),
      processBlock_buffer, processBlock_bufferSize, processBlock_numBytes]
    exact ⟨trivial, trivial, hkept _ _ _ _ (Nat.le_of_lt hshort)⟩
  · unfold processBuffer
    simp only [paddedLength_of_long hlong hlt, if_pos (show sha1.bufferSize < blockSize from hlt),
      if_neg (show ¬120 < blockSize by decide), if_pos (show blockSize < 120 by decide),
      processBlock_buffer, processBlock_bufferSize, processBlock_numBytes]
    have hpadded :=
      hkept [128] (List.replicate (blockSize - (sha1.bufferSize + 1)) 0) [] _ (Nat.le_refl _)
    rw [Memory.write_nil] at hpadded
    exact ⟨trivial, trivial, hpadded⟩

namespace Streams

theorem processBuffer_hash (h : sha1.Streams message) (extra : Memory) :
    (sha1.processBuffer extra).hash.bytes = Sha1.hash message := by
  rcases Nat.lt_or_ge sha1.bufferSize 56 with hshort | hlong
  · rw [processBuffer_short sha1 extra hshort, h.msgBits, lengthBytes_eq, Sha1.hash,
      h.holds.hash_of_short (by rwa [Memory.length_read]), Memory.length_read]
    rfl
  · rw [processBuffer_long sha1 extra hlong h.bufferSize_lt, h.msgBits, lengthBytes_eq, Sha1.hash,
      h.holds.hash_of_long (by rwa [Memory.length_read]), Memory.length_read]
    rfl

theorem getHash_fst (h : sha1.Streams message) (extra : Memory) :
    (sha1.getHash extra).1 = Sha1.hash message := by
  rw [← h.processBuffer_hash extra]
  unfold getHash Sha1.Registers.bytes
  simp only [wordBytes_eq]

theorem getHashText_fst (h : sha1.Streams message) (extra : Memory) :
    (sha1.getHashText extra).1 = Base64.toHex (Sha1.hash message) :=
  congrArg Base64.toHex (h.getHash_fst extra)

/-- The hash can be asked for, and more added. -/
theorem getHash_snd (h : sha1.Streams message) (extra : Memory) :
    (sha1.getHash extra).2.Streams message := by
  obtain ⟨hbytes, hsize, hread⟩ := processBuffer_frame sha1 extra h.bufferSize_lt
  constructor
  · show Sha1.digest.Holds sha1.hash (Memory.read _ 0 (sha1.processBuffer extra).bufferSize) message
    rw [hsize]
    show Sha1.digest.Holds sha1.hash
      ((sha1.processBuffer extra).buffer.read 0 sha1.bufferSize) message
    rw [hread]
    exact h.holds
  · exact hbytes.trans h.numBytes

end Streams

/-! ### Runs -/

/-- What the calls should return when `message` has been added since the last reset. -/
def hashes (message : Bytes) : List Op → List Bytes
  | [] => []
  | .add data :: ops => hashes (message ++ data) ops
  | .getHash _ :: ops => Sha1.hash message :: hashes message ops
  | .getHashText _ :: ops => Base64.toHex (Sha1.hash message) :: hashes message ops
  | .call data _ :: ops => Base64.toHex (Sha1.hash data) :: hashes data ops
  | .reset :: ops => hashes [] ops

theorem Streams.run_eq (h : sha1.Streams message) (ops : List Op) :
    sha1.run ops = hashes message ops := by
  induction ops generalizing sha1 message with
  | nil => rfl
  | cons op ops ih =>
      cases op with
      | add data => exact ih (h.add data)
      | getHash extra => rw [run, hashes, h.getHash_fst, ih (h.getHash_snd extra)]
      | getHashText extra =>
          have hnext : (sha1.getHashText extra).2.Streams message := h.getHash_snd extra
          rw [run, hashes, h.getHashText_fst, ih hnext]
      | call data extra =>
          have hadded := (streams_reset sha1).add data
          rw [List.nil_append] at hadded
          have hnext : (sha1.call data extra).2.Streams data := hadded.getHash_snd extra
          rw [run, hashes, ih hnext, call, hadded.getHashText_fst]
      | reset => exact ih (streams_reset sha1)

/-- Whatever the pieces are in which the bytes are added, whatever memory holds and whenever the
hash is asked for, it is the SHA-1 of the bytes added since the last reset. -/
theorem run_new (memory : Memory) (ops : List Op) : (new memory).run ops = hashes [] ops :=
  (streams_reset _).run_eq ops

end SHA1

end TapSdk
