import Mathlib.Tactic.IntervalCases
import TapSdk.Base.Md5

/-!
# What `MD5` computes

The digest of the standard when it is asked for first. What is asked for afterwards is the digest of
what the padding has left in the buffer, because `init` unsets the flag that the digest is finished.
-/

namespace TapSdk

open Library

namespace MD5

/-! ### A block -/

theorem decodeWord_eq (a b c d : UInt8) (rest : Bytes) :
    decodeWord (a :: b :: c :: d :: rest) = fromLe32 [a, b, c, d] := by
  apply UInt32.eq_of_toBitVec_eq
  apply BitVec.eq_of_getLsbD_eq
  intro bit hbit
  rw [getLsbD_fromLe32]
  unfold decodeWord
  simp only [List.getD_cons_zero, List.getD_cons_succ, UInt32.toBitVec_or,
    UInt32.toBitVec_shiftLeft, UInt8.toBitVec_toUInt32]
  interval_cases bit <;> simp [-BitVec.getLsbD_eq_getElem]

theorem encodeWord_eq (word : UInt32) : encodeWord word = le32 word :=
  (le32_eq word).symm

theorem index_lt (time : Nat) : Md5.index time < 16 := by
  unfold Md5.index
  split
  · assumption
  · split
    · omega
    · split <;> omega

section Lines

variable {f : UInt32 → UInt32 → UInt32 → UInt32} {s : UInt32 × UInt32 × UInt32 × UInt32}

/-- Four lines are four steps. -/
theorem lines_four (x : List UInt32) (first second third fourth : Nat × UInt32)
    (rest : List (Nat × UInt32)) (registers : Md5.Registers) :
    lines f s x (first :: second :: third :: fourth :: rest) registers
      = lines f s x rest (Md5.turn f s.2.2.2 (x.getD fourth.1 0) fourth.2
          (Md5.turn f s.2.2.1 (x.getD third.1 0) third.2
            (Md5.turn f s.2.1 (x.getD second.1 0) second.2
              (Md5.turn f s.1 (x.getD first.1 0) first.2 registers)))) := by
  have hline (a b c d x s ac : UInt32) :
      line f a b c d x s ac = b + Md5.rotl (a + f b c d + x + ac) s := by
    unfold line
    rw [UInt32.add_comm _ b, ← UInt32.add_assoc, ← UInt32.add_assoc]
    rfl
  rw [lines]
  simp only [hline, Md5.turn]

theorem getD_decode {block : Bytes} (h : block.length = 64) {i : Nat} (hi : i < 16) :
    (decode block).getD i 0 = Md5.word block i := by
  rw [decode, List.getD_eq_getElem?_getD, List.getElem?_map, List.getElem?_range hi]
  show decodeWord (block.drop (4 * i)) = fromLe32 ((block.drop (4 * i)).take 4)
  have hlong : 4 ≤ (block.drop (4 * i)).length := by
    rw [List.length_drop, h]
    omega
  match block.drop (4 * i), hlong with
  | a :: b :: c :: d :: rest, _ => exact decodeWord_eq a b c d rest

/-- Lines whose words, constants and rotations are those of the steps from `4 * first` on. -/
theorem lines_eq {block : Bytes} (h : block.length = 64) (first count : Nat)
    (hmix : ∀ time, 4 * first ≤ time → time < 4 * (first + count) → Md5.mix time = f)
    (hshift : ∀ four, first ≤ four → four < first + count →
      (Md5.shift (4 * four), Md5.shift (4 * four + 1), Md5.shift (4 * four + 2),
        Md5.shift (4 * four + 3)) = s)
    (registers : Md5.Registers) :
    lines f s (decode block)
        ((List.range' (4 * first) (4 * count)).map fun time => (Md5.index time, Md5.sine time))
        registers
      = (List.range' (4 * first) (4 * count)).foldl (Md5.step block) registers := by
  induction count generalizing first registers with
  | zero => rfl
  | succ count ih =>
      have hfour : List.range' (4 * first) (4 * (count + 1))
          = 4 * first :: (4 * first + 1) :: (4 * first + 2) :: (4 * first + 3)
            :: List.range' (4 * (first + 1)) (4 * count) := rfl
      have hstep (offset : Nat) (ho : offset < 4) : Md5.mix (4 * first + offset) = f :=
        hmix _ (by omega) (by omega)
      rw [hfour]
      simp only [List.map_cons, List.foldl_cons, lines_four]
      rw [ih (first + 1) (fun time hlow hhigh => hmix time (by omega) (by omega))
        (fun four hlow hhigh => hshift four (by omega) (by omega)),
        ← hshift first (Nat.le_refl _) (by omega)]
      simp only [getD_decode h (index_lt _), Md5.step, hstep 1 (by decide), hstep 2 (by decide),
        hstep 3 (by decide), show Md5.mix (4 * first) = f from hstep 0 (by decide)]

end Lines

theorem transform_eq (md5 : MD5) {block : Bytes} (h : block.length = 64) :
    md5.transform block = { md5 with state := Md5.digest.compress md5.state block } := by
  have hround1 (registers : Md5.Registers) : lines F (7, 12, 17, 22) (decode block) lines1 registers
      = (List.range' 0 16).foldl (Md5.step block) registers := by
    refine lines_eq h 0 4 (fun time hlow hhigh => ?_) (fun four hlow hhigh => ?_) registers
    · funext x y z
      exact if_pos (by omega)
    · interval_cases four <;> rfl
  have hround2 (registers : Md5.Registers) : lines G (5, 9, 14, 20) (decode block) lines2 registers
      = (List.range' 16 16).foldl (Md5.step block) registers := by
    refine lines_eq h 4 4 (fun time hlow hhigh => ?_) (fun four hlow hhigh => ?_) registers
    · funext x y z
      rw [Md5.mix, if_neg (by omega), if_pos (by omega)]
      rfl
    · interval_cases four <;> rfl
  have hround3 (registers : Md5.Registers) : lines H (4, 11, 16, 23) (decode block) lines3 registers
      = (List.range' 32 16).foldl (Md5.step block) registers := by
    refine lines_eq h 8 4 (fun time hlow hhigh => ?_) (fun four hlow hhigh => ?_) registers
    · funext x y z
      rw [Md5.mix, if_neg (by omega), if_neg (by omega), if_pos (by omega)]
      rfl
    · interval_cases four <;> rfl
  have hround4 (registers : Md5.Registers) : lines I (6, 10, 15, 21) (decode block) lines4 registers
      = (List.range' 48 16).foldl (Md5.step block) registers := by
    refine lines_eq h 12 4 (fun time hlow hhigh => ?_) (fun four hlow hhigh => ?_) registers
    · funext x y z
      rw [Md5.mix, if_neg (by omega), if_neg (by omega), if_neg (by omega)]
      rfl
    · interval_cases four <;> rfl
  have hrange : List.range 64
      = List.range' 0 16 ++ List.range' 16 16 ++ List.range' 32 16 ++ List.range' 48 16 := by
    rw [List.range_eq_range', List.range'_append_1, List.range'_append_1, List.range'_append_1]
  show ({ md5 with state := md5.state.add _ } : MD5) = { md5 with state := md5.state.add _ }
  rw [hround1, hround2, hround3, hround4, hrange, List.foldl_append, List.foldl_append,
    List.foldl_append]

/-! ### `init` -/

/-- Past this length the counter of the loop comes round. -/
def maxLength : Nat := 4294967232

theorem transformFrom_eq (md5 : MD5) (input : Bytes) (hlength : input.length ≤ maxLength) (i : Nat)
    (hi : i ≤ input.length) :
    ∃ j, md5.transformFrom input i
        = some ({ md5 with state := (Md5.digest.absorb md5.state (input.drop i)).1 }, j)
      ∧ input.drop j = (Md5.digest.absorb md5.state (input.drop i)).2 := by
  unfold maxLength at hlength
  fun_induction md5.transformFrom input i with
  | case1 md5 i hmore hfits ih =>
      have hblock : ((input.drop i).take 64).length = 64 := by
        rw [List.length_take, List.length_drop]
        omega
      have habsorb : Md5.digest.absorb md5.state (input.drop i)
          = Md5.digest.absorb (md5.transform ((input.drop i).take 64)).state
            (input.drop (i + 64)) := by
        rw [transform_eq md5 hblock, ← Digest.absorb_block hblock, ← List.drop_drop,
          List.take_append_drop]
      obtain ⟨j, hresult, hrest⟩ := ih hfits.2
      refine ⟨j, ?_, by rw [habsorb, hrest]⟩
      rw [hresult, habsorb, transform_eq md5 hblock]
  | case2 md5 i hmore hpast =>
      -- the counter has not come round
      rw [Nat.mod_eq_of_lt (by omega)] at hmore
      omega
  | case3 md5 i hend =>
      rw [Nat.mod_eq_of_lt (by omega)] at hend
      have hrest : Md5.digest.absorb md5.state (input.drop i) = (md5.state, input.drop i) :=
        Digest.absorb_of_lt (by rw [List.length_drop, Digest.blockSize]; omega) md5.state
      exact ⟨i, by rw [hrest], by rw [hrest]⟩

/-- What `init` leaves in the buffer: the input behind what is there, or else the rest of it at the
front. -/
def nextBuffer (md5 : MD5) (input rest : Bytes) : Memory :=
  if md5.bufferIndex + input.length < 64 then md5.buffer.write md5.bufferIndex input
  else (md5.buffer.write md5.bufferIndex (input.take (64 - md5.bufferIndex))).write 0 rest

theorem init_eq (md5 : MD5) {input : Bytes} (hlength : input.length ≤ maxLength)
    (hindex : md5.bufferIndex < 64) {next : Md5.Registers} {rest : Bytes}
    (habsorb : Md5.digest.absorb md5.state (md5.buffer.read 0 md5.bufferIndex ++ input)
      = (next, rest)) :
    md5.init input = some
      { md5 with
        finished := false
        state := next
        count := addCount md5.count input.length
        buffer := md5.nextBuffer input rest } := by
  unfold init nextBuffer
  by_cases hpart : 64 - md5.bufferIndex ≤ input.length
  · have hfull : md5.bufferIndex + (input.take (64 - md5.bufferIndex)).length = 64 := by
      rw [List.length_take]
      omega
    have hread :=
      Memory.read_write_after md5.buffer md5.bufferIndex (input.take (64 - md5.bufferIndex))
    rw [hfull] at hread
    have hblock : (md5.buffer.read 0 md5.bufferIndex ++ input.take (64 - md5.bufferIndex)).length
        = 64 := by
      rw [List.length_append, Memory.length_read]
      exact hfull
    rw [← List.take_append_drop (64 - md5.bufferIndex) input, ← List.append_assoc,
      Digest.absorb_block hblock] at habsorb
    rw [if_pos hpart, if_neg (by omega)]
    simp only [hread, transform_eq _ hblock]
    obtain ⟨j, hresult, hrest⟩ := transformFrom_eq ({ md5 with
        finished := false
        count := addCount md5.count input.length
        buffer := md5.buffer.write md5.bufferIndex (input.take (64 - md5.bufferIndex))
        state := Md5.digest.compress md5.state
          (md5.buffer.read 0 md5.bufferIndex ++ input.take (64 - md5.bufferIndex)) } : MD5)
      input hlength (64 - md5.bufferIndex) hpart
    rw [hresult]
    simp only [habsorb] at hrest ⊢
    rw [← hrest]
    rfl
  · rw [Digest.absorb_of_lt] at habsorb
    · cases habsorb
      rw [if_neg hpart, if_pos (by omega)]
    · rw [List.length_append, Memory.length_read, Digest.blockSize]
      omega

theorem read_nextBuffer (md5 : MD5) {input rest : Bytes} {next : Md5.Registers}
    (habsorb : Md5.digest.absorb md5.state (md5.buffer.read 0 md5.bufferIndex ++ input)
      = (next, rest)) :
    (md5.nextBuffer input rest).read 0 rest.length = rest := by
  unfold nextBuffer
  split
  · rw [Digest.absorb_of_lt] at habsorb
    · cases habsorb
      rw [List.length_append, Memory.length_read]
      exact Memory.read_write_after _ _ _
    · rw [List.length_append, Memory.length_read, Digest.blockSize]
      assumption
  · exact Memory.read_write_self

/-- The state, the buffer and the count of bits stand for `message`. -/
structure Streams (md5 : MD5) (message : Bytes) : Prop where
  holds : Md5.digest.Holds md5.state (md5.buffer.read 0 (message.length % 64)) message
  count : md5.count.1.toNat + 4294967296 * md5.count.2.toNat
    = 8 * message.length % 18446744073709551616

theorem addCount_eq {count : UInt32 × UInt32} {bits len : Nat} (hlen : len ≤ maxLength)
    (h : count.1.toNat + 4294967296 * count.2.toNat = bits % 18446744073709551616) :
    (addCount count len).1.toNat + 4294967296 * (addCount count len).2.toNat
      = (bits + 8 * len) % 18446744073709551616 := by
  have hlow := count.1.toNat_lt
  have hhigh := count.2.toNat_lt
  unfold maxLength at hlen
  have hadded : (UInt32.ofNat len <<< 3).toNat = len * 8 % 4294967296 := by
    rw [UInt32.toNat_shiftLeft, UInt32.toNat_ofNat', Nat.mod_eq_of_lt (by omega : len < 2 ^ 32),
      Nat.shiftLeft_eq]
    rfl
  have hcarried : (UInt32.ofNat len >>> 29).toNat = len / 536870912 := by
    rw [UInt32.toNat_shiftRight, UInt32.toNat_ofNat', Nat.mod_eq_of_lt (by omega : len < 2 ^ 32),
      Nat.shiftRight_eq_div_pow]
    rfl
  unfold addCount
  simp only [UInt32.lt_iff_toNat_lt, UInt32.toNat_add, hadded, hcarried]
  split
  · rw [UInt32.toNat_add, show (1 : UInt32).toNat = 1 from rfl]
    omega
  · omega

namespace Streams

variable {md5 : MD5} {message : Bytes}

theorem bufferIndex (h : md5.Streams message) : md5.bufferIndex = message.length % 64 := by
  have hcount := h.count
  have hlow := md5.count.1.toNat_lt
  rw [MD5.bufferIndex, UInt32.toNat_and, UInt32.toNat_shiftRight]
  show md5.count.1.toNat >>> 3 &&& 2 ^ 6 - 1 = _
  rw [Nat.and_two_pow_sub_one_eq_mod, Nat.shiftRight_eq_div_pow]
  omega

/-- Input is taken as if it had been part of the message. -/
theorem init (h : md5.Streams message) {input : Bytes} (hlength : input.length ≤ maxLength) :
    ∃ next, md5.init input = some next ∧ next.Streams (message ++ input)
      ∧ next.finished = false
      ∧ next.buffer = md5.nextBuffer input (Md5.digest.absorb md5.state
          (md5.buffer.read 0 md5.bufferIndex ++ input)).2 := by
  have hindex := h.bufferIndex
  have hholds := h.holds
  rw [← hindex] at hholds
  have hnext : Md5.digest.Holds _ (Md5.digest.absorb md5.state
      (md5.buffer.read 0 md5.bufferIndex ++ input)).2 (message ++ input) := hholds.append rfl
  refine ⟨_, init_eq md5 hlength (by omega) rfl, ⟨?_, ?_⟩, rfl, rfl⟩
  · rw [← hnext.length]
    simp only [read_nextBuffer md5 rfl]
    exact hnext
  · rw [List.length_append, Nat.mul_add]
    exact addCount_eq hlength h.count

end Streams

/-! ### The digest -/

theorem bits_eq {count : UInt32 × UInt32} {bits : Nat}
    (h : count.1.toNat + 4294967296 * count.2.toNat = bits % 18446744073709551616) :
    encodeWord count.1 ++ encodeWord count.2 = leBytes 8 bits := by
  have hlow := count.1.toNat_lt
  have hhigh := count.2.toNat_lt
  rw [encodeWord_eq, encodeWord_eq, le32, le32, show leBytes 8 bits = leBytes (4 + 4) bits from rfl,
    leBytes_add, ← leBytes_mod 4 bits, ← leBytes_mod 4 (bits / 256 ^ 4)]
  congr 2 <;> omega

theorem padding_eq (length : Nat) : Md5.digest.padding length
    = padding.take (if length % 64 < 56 then 56 - length % 64 else 120 - length % 64)
      ++ leBytes 8 (8 * length) := by
  have hzeros : (if length % 64 < 56 then 56 - length % 64 else 120 - length % 64)
      = (119 - length % 64) % 64 + 1 := by
    split <;> omega
  rw [hzeros, Digest.padding, padding, List.take_succ_cons, List.take_replicate,
    Nat.min_eq_left (by omega)]
  rfl

/-- What the message is taken for after the padding of its last block has been written over it. -/
def overwritten (message : Bytes) : Bytes :=
  if message.length % 64 < 56 then message
  else message.take (64 * (message.length / 64))
    ++ (List.replicate 56 0 ++ leBytes 8 (8 * message.length)).take (message.length % 64)

theorem length_overwritten (message : Bytes) : (overwritten message).length = message.length := by
  unfold overwritten
  split
  · rfl
  · rw [List.length_append, List.length_take, List.length_take, List.length_append,
      List.length_replicate, length_leBytes]
    omega

/-- The bytes of the padding. -/
def padBytes (message : Bytes) : Bytes :=
  padding.take
    (if message.length % 64 < 56 then 56 - message.length % 64 else 120 - message.length % 64)

theorem length_padBytes (message : Bytes) : (padBytes message).length
    = if message.length % 64 < 56 then 56 - message.length % 64 else 120 - message.length % 64 := by
  rw [padBytes, List.length_take, show padding.length = 64 from rfl]
  split <;> omega

namespace Streams

variable {md5 padded last : MD5} {message : Bytes}

/-- The length of the message is written behind the padding. -/
theorem lastBuffer (h : padded.Streams (message ++ padBytes message))
    (hbuffer : last.buffer = padded.nextBuffer (leBytes 8 (8 * message.length))
      (Md5.digest.absorb padded.state (padded.buffer.read 0 padded.bufferIndex
        ++ leBytes 8 (8 * message.length))).2) :
    last.buffer = padded.buffer.write 56 (leBytes 8 (8 * message.length)) := by
  have hindex : padded.bufferIndex = 56 := by
    rw [h.bufferIndex, List.length_append, length_padBytes]
    split <;> omega
  have hrest : (Md5.digest.absorb padded.state (padded.buffer.read 0 padded.bufferIndex
      ++ leBytes 8 (8 * message.length))).2 = [] := by
    apply List.eq_nil_of_length_eq_zero
    rw [Digest.length_absorb, List.length_append, Memory.length_read, length_leBytes, hindex]
  rw [hbuffer, hrest, nextBuffer, hindex, length_leBytes, if_neg (by decide), Memory.write_nil,
    List.take_of_length_le (Nat.le_of_eq (length_leBytes _ _))]

theorem holds_overwritten (h : md5.Streams message)
    (hpadded : padded.buffer = md5.nextBuffer (padBytes message)
      (Md5.digest.absorb md5.state (md5.buffer.read 0 md5.bufferIndex ++ padBytes message)).2)
    (hlast : last.buffer = padded.buffer.write 56 (leBytes 8 (8 * message.length))) :
    Md5.digest.Holds md5.state (last.buffer.read 0 (message.length % 64))
    (overwritten message) := by
  have hindex := h.bufferIndex
  have hlength := length_padBytes message
  unfold overwritten
  split
  · next hshort =>
      rw [if_pos hshort] at hlength
      rw [hlast, hpadded, nextBuffer, hindex, hlength, if_pos (by omega),
        Memory.read_write_disjoint (Or.inl (by omega)),
        Memory.read_write_disjoint (Or.inl (by omega))]
      exact h.holds
  · next hlong =>
      rw [if_neg hlong] at hlength
      have hzeros : (Md5.digest.absorb md5.state
          (md5.buffer.read 0 md5.bufferIndex ++ padBytes message)).2 = List.replicate 56 0 := by
        have htotal : (md5.buffer.read 0 md5.bufferIndex ++ padBytes message).length = 120 := by
          rw [List.length_append, Memory.length_read, hlength, hindex]
          omega
        rw [Digest.absorb_snd, htotal, List.drop_append, List.drop_of_length_le (by
          rw [Memory.length_read]
          omega), Memory.length_read, List.nil_append, hindex, padBytes, if_neg hlong, padding,
          show 64 * (120 / 64) - message.length % 64 = (63 - message.length % 64) + 1 by omega,
          show 120 - message.length % 64 = (119 - message.length % 64) + 1 by omega,
          List.take_succ_cons, List.drop_succ_cons, List.take_replicate, List.drop_replicate]
        congr 1
        omega
      have hread : last.buffer.read 0 (message.length % 64)
          = (List.replicate 56 0 ++ leBytes 8 (8 * message.length)).take (message.length % 64) := by
        have hwritten := Memory.read_write_after padded.buffer 56 (leBytes 8 (8 * message.length))
        have hfront : padded.buffer.read 0 56 = List.replicate 56 0 := by
          rw [hpadded, nextBuffer, hzeros, hindex, hlength, if_neg (by omega)]
          exact Memory.read_write_of_length List.length_replicate
        rw [hfront, length_leBytes, ← hlast] at hwritten
        rw [← hwritten, Memory.read_take (by omega)]
      rw [hread]
      apply h.holds.replace
      rw [← hread, Memory.length_read, Memory.length_read]

theorem getDigest (h : md5.Streams message) (hfinished : md5.finished = false) :
    ∃ next, md5.getDigest = some (Md5.hash message, next) ∧ next.finished = false
      ∧ next.Streams (overwritten message) := by
  have hindex := h.bufferIndex
  have hpad : (padBytes message).length ≤ maxLength :=
    Nat.le_trans (List.length_take_le' _ _) (by decide)
  have hstart : ({ md5 with finished := true } : MD5).Streams message := ⟨h.holds, h.count⟩
  obtain ⟨padded, hpadded, hstreams, -, hbuffer⟩ := hstart.init hpad
  have hbits : (leBytes 8 (8 * message.length)).length ≤ maxLength := by
    rw [length_leBytes]
    decide
  obtain ⟨last, hlast, hall, hunfinished, hlastBuffer⟩ := hstreams.init hbits
  have hhash : Md5.hash message = last.state.bytes := by
    have hholds := hall.holds
    rw [List.append_assoc, padBytes, ← padding_eq] at hholds
    rw [Md5.hash, Digest.hash, hholds]
    rfl
  refine ⟨{ last with digest := Md5.hash message, state := md5.state, count := md5.count }, ?_,
    hunfinished, ?_, ?_⟩
  · rw [MD5.getDigest, hfinished]
    simp only [Bool.false_eq_true, if_false, bits_eq h.count, hindex]
    change (MD5.init { md5 with finished := true } (padBytes message)).bind _ = _
    rw [hpadded, Option.bind_some, hlast]
    change some _ = some _
    simp only [encodeWord_eq]
    rw [hhash]
    rfl
  · rw [length_overwritten]
    exact hstart.holds_overwritten hbuffer (hstreams.lastBuffer hlastBuffer)
  · rw [length_overwritten]
    exact h.count

theorem toStr (h : md5.Streams message) (hfinished : md5.finished = false) :
    ∃ next, md5.toStr = some (Base64.toHex (Md5.hash message), next) ∧ next.finished = false
      ∧ next.Streams (overwritten message) := by
  obtain ⟨next, hdigest, hnext⟩ := h.getDigest hfinished
  refine ⟨next, ?_, hnext⟩
  rw [MD5.toStr, hdigest]
  rfl

end Streams

theorem new_streams (buffer : Memory) (digest : Bytes) {message : Bytes}
    (h : message.length ≤ maxLength) :
    ∃ md5, new buffer digest message = some md5 ∧ md5.finished = false ∧ md5.Streams message := by
  have hempty : (⟨false, Md5.digest.start, (0, 0), buffer, digest⟩ : MD5).Streams [] :=
    ⟨Digest.holds_nil, rfl⟩
  obtain ⟨next, hnext, hstreams, hfinished, -⟩ := hempty.init h
  exact ⟨next, hnext, hfinished, hstreams⟩

theorem toStr_new (buffer : Memory) (digest : Bytes) {message : Bytes}
    (h : message.length ≤ maxLength) :
    ∃ md5 next, new buffer digest message = some md5
      ∧ md5.toStr = some (Base64.toHex (Md5.hash message), next) := by
  obtain ⟨md5, hnew, hfinished, hstreams⟩ := new_streams buffer digest h
  obtain ⟨next, hstr, -⟩ := hstreams.toStr hfinished
  exact ⟨md5, next, hnew, hstr⟩

theorem overwritten_overwritten (message : Bytes) :
    overwritten (overwritten message) = overwritten message := by
  have hlength := length_overwritten message
  by_cases hshort : message.length % 64 < 56
  · have hsame : overwritten message = message := if_pos hshort
    rw [hsame, hsame]
  · have hlong : overwritten message = message.take (64 * (message.length / 64))
        ++ (List.replicate 56 0 ++ leBytes 8 (8 * message.length)).take (message.length % 64) :=
          if_neg hshort
    have hblocks : (message.take (64 * (message.length / 64))).length
        = 64 * (message.length / 64) := by
      rw [List.length_take]
      omega
    calc overwritten (overwritten message)
        = (overwritten message).take (64 * (message.length / 64))
            ++ (List.replicate 56 0 ++ leBytes 8 (8 * message.length)).take
              (message.length % 64) := by
          conv_lhs => rw [overwritten, hlength, if_neg hshort]
      _ = overwritten message := by
          rw [hlong, List.take_left' hblocks]

/-- From the second digest on, nothing more changes. -/
theorem Streams.toStrs {md5 : MD5} {message : Bytes} (h : md5.Streams message)
    (hsame : overwritten message = message) (hfinished : md5.finished = false) (count : Nat) :
    md5.toStrs count = some (List.replicate count (Base64.toHex (Md5.hash message))) := by
  induction count generalizing md5 with
  | zero => rfl
  | succ count ih =>
      obtain ⟨next, hstr, hunfinished, hnext⟩ := h.toStr hfinished
      rw [hsame] at hnext
      rw [MD5.toStrs, hstr]
      change (next.toStrs count).bind _ = _
      rw [ih hnext hunfinished]
      rfl

/-- The digest that is asked for first is the one of the standard. After that it is the one of the
message with the length of the message written over the end of it, when its last bytes left no room
for the length. -/
theorem toStrs_new (buffer : Memory) (digest : Bytes) (message : Bytes)
    (h : message.length ≤ maxLength) (count : Nat) :
    (new buffer digest message).bind (fun md5 => md5.toStrs (count + 1))
      = some (Base64.toHex (Md5.hash message)
          :: List.replicate count (Base64.toHex (Md5.hash (overwritten message)))) := by
  obtain ⟨md5, hnew, hfinished, hstreams⟩ := new_streams buffer digest h
  obtain ⟨next, hfirst, hunfinished, hnext⟩ := hstreams.toStr hfinished
  rw [hnew, Option.bind_some, toStrs, hfirst]
  change (next.toStrs count).bind _ = _
  rw [hnext.toStrs (overwritten_overwritten message) hunfinished]
  rfl

/-- At a message of sixty bytes. -/
theorem toStrs_new_sixty :
    (List.replicate 60 (0x61 : UInt8)).length ≤ maxLength
      ∧ (new (fun _ => 0) [] (List.replicate 60 0x61)).bind (fun md5 => md5.toStrs (1 + 1))
        = some (Base64.toHex (Md5.hash (List.replicate 60 0x61))
            :: List.replicate 1 (Base64.toHex (Md5.hash (overwritten (List.replicate 60 0x61))))) :=
  ⟨by decide, toStrs_new (fun _ => 0) [] (List.replicate 60 0x61) (by decide) 1⟩

end MD5

end TapSdk
