import TapSdk.Base.PositionalIo

/-!
# The two builds compared

The stream build seeks from where the last call left it and compares a count of items with a size in
bytes. A call that stays in the file agrees with `pread` or `pwrite` only if it transfers at most
one byte, and only at the right place or at one that holds the same byte. Along a sequence of calls
the two builds agree exactly as long as every call is of that kind.
-/

namespace TapSdk

open Library

namespace FileData

variable {disk : FileData} {offset target size : Nat} {byte : UInt8}

theorem eq_of_size_of_byte {other : FileData} (hsize : disk.size = other.size)
    (hbyte : disk.byte = other.byte) : disk = other := by
  cases disk
  cases other
  simp only at hsize hbyte
  subst hsize
  subst hbyte
  rfl

theorem pread_within (h : offset + size ≤ disk.size) :
    disk.pread offset size = disk.byte.read offset size := by
  rw [pread, Nat.min_eq_left (by omega)]

theorem pread_one :
    disk.pread offset 1 = if offset < disk.size then [disk.byte offset] else [] := by
  unfold pread
  split
  · rw [Nat.min_eq_left (by omega)]
    rfl
  · rw [Nat.min_eq_right (by omega), Nat.sub_eq_zero_of_le (by omega)]
    rfl

/-- Where one byte can be written instead of at `offset` without a difference. -/
theorem pwrite_one_eq_iff (h : offset < disk.size) :
    disk.pwrite target [byte] = disk.pwrite offset [byte] ↔
      target = offset ∨ target < disk.size ∧ disk.byte target = byte ∧ disk.byte offset = byte := by
  have hleft : disk.byte.write target [byte] target = byte :=
    @Memory.write_of_inside disk.byte target [byte] 0 Nat.one_pos
  have hright : disk.byte.write offset [byte] offset = byte :=
    @Memory.write_of_inside disk.byte offset [byte] 0 Nat.one_pos
  constructor
  · intro heq
    by_cases hsame : target = offset
    · exact Or.inl hsame
    have hsize : max disk.size (target + 1) = max disk.size (offset + 1) :=
      congrArg FileData.size heq
    have hbyte : disk.byte.write target [byte] = disk.byte.write offset [byte] :=
      congrArg FileData.byte heq
    refine Or.inr ⟨by omega, ?_, ?_⟩
    · rw [← @Memory.write_of_outside disk.byte offset [byte] target
        (by simp only [List.length_singleton]; omega), ← hbyte, hleft]
    · rw [← @Memory.write_of_outside disk.byte target [byte] offset
        (by simp only [List.length_singleton]; omega), hbyte, hright]
  · rintro (rfl | ⟨htarget, hat, hoffset⟩)
    · rfl
    apply eq_of_size_of_byte
    · show max disk.size (target + 1) = max disk.size (offset + 1)
      omega
    · show disk.byte.write target [byte] = disk.byte.write offset [byte]
      have hsame {i : Nat} (hi : disk.byte i = byte) : disk.byte.read i [byte].length = [byte] :=
        congrArg (fun found => [found]) hi
      rw [Memory.write_of_read (hsame hat), Memory.write_of_read (hsame hoffset)]

end FileData

/-! ### One call -/

namespace FileCall

/-- The offset can be sought, and the call stays within the file. -/
def Within (disk : FileData) (call : FileCall) : Prop :=
  call.offset ≤ Stdio.seekLimit ∧ call.offset + call.size ≤ disk.size

/-- At `target` the call does what it does at its own offset, and one item is as many as there are
bytes. -/
def SameAt (disk : FileData) (target : Nat) : FileCall → Prop
  | .read offset size =>
      size = 0 ∨ size = 1 ∧ target < disk.size ∧ disk.byte target = disk.byte offset
  | .write offset src =>
      src = [] ∨ ∃ byte, src = [byte] ∧
        (target = offset ∨ target < disk.size ∧ disk.byte target = byte ∧ disk.byte offset = byte)

end FileCall

namespace Stdio

variable {longBits : Nat} {stream : Stream} {offset size : Nat} {src : List UInt8}

theorem Stream.fseek_eq_some_iff {displacement : Int} {sought : Stream} :
    stream.fseek displacement = some sought ↔
      ∃ target : Nat, (target : Int) = stream.position + displacement ∧
        sought = ⟨stream.disk, target⟩ := by
  unfold Stream.fseek
  simp only
  constructor
  · intro h
    split at h
    · cases h
      exact ⟨_, Int.toNat_of_nonneg ‹_›, rfl⟩
    · cases h
  · rintro ⟨target, htarget, rfl⟩
    rw [← htarget, if_pos (Int.natCast_nonneg target), Int.toNat_natCast]

/-- More than one byte is never one item. -/
theorem items_ne {length : Nat} (hlength : length ≤ size) (h : 1 < size) :
    length / size ≠ size := by
  have hle : length / size ≤ 1 := by
    calc
      length / size ≤ size / size := Nat.div_le_div_right hlength
      _ = 1 := Nat.div_self (by omega)
  omega

theorem read_sought_eq_iff (hwithin : offset + size ≤ stream.disk.size) :
    (⟨(stream.fread size 1).1 = size, (stream.fread size 1).2.1⟩ : FileReply)
        = UnixFd.read stream.disk offset size ↔
      (FileCall.read offset size).SameAt stream.disk stream.position := by
  have hunix : UnixFd.read stream.disk offset size
      = ⟨true, stream.disk.byte.read offset size⟩ := by
    simp [UnixFd.read, FileData.pread_within hwithin]
  rw [hunix, FileReply.mk.injEq, decide_eq_true_eq]
  simp only [Stream.fread, Nat.mul_one, FileCall.SameAt]
  rcases Nat.lt_trichotomy size 1 with hzero | hone | hmore
  · have hsize : size = 0 := by omega
    subst hsize
    simp [FileData.pread]
  · subst hone
    rw [FileData.pread_one]
    by_cases hposition : stream.position < stream.disk.size
    · simp [hposition, Memory.read]
    · simp [hposition]
  · have hlength : (stream.disk.pread stream.position size).length ≤ size := by
      simp [FileData.pread]
    constructor
    · intro h
      exact absurd h.1 (items_ne hlength hmore)
    · intro h
      omega

theorem write_sought_eq_iff (hwithin : offset + src.length ≤ stream.disk.size) :
    (⟨(stream.fwrite src src.length 1).1 = src.length, []⟩,
        (stream.fwrite src src.length 1).2.disk) = UnixFd.write stream.disk offset src ↔
      (FileCall.write offset src).SameAt stream.disk stream.position := by
  have hunix : UnixFd.write stream.disk offset src
      = (⟨true, []⟩, stream.disk.pwrite offset src) := rfl
  rw [hunix, Prod.mk.injEq, FileReply.mk.injEq, decide_eq_true_eq]
  simp only [Stream.fwrite, Nat.mul_one, List.take_length, and_true, FileCall.SameAt]
  match src with
  | [] => simp [FileData.pwrite]
  | [byte] =>
      rw [FileData.pwrite_one_eq_iff hwithin]
      simp
  | byte :: next :: rest =>
      have hitems : (byte :: next :: rest).length / (byte :: next :: rest).length
          ≠ (byte :: next :: rest).length :=
        items_ne Nat.le.refl (by simp)
      simp only [hitems, false_and, List.cons_ne_nil, false_or, false_iff]
      rintro ⟨other, hother, -⟩
      cases hother

/-- What the state of the stream must be for a call: the seek from the current position ends at a
place where the call does the same. -/
def Fits (longBits : Nat) (stream : Stream) (call : FileCall) : Prop :=
  ∃ target : Nat, (target : Int) = stream.position + toLong longBits call.offset ∧
    call.SameAt stream.disk target

section Fits

variable {call : FileCall}

theorem not_fits_of_fseek (h : stream.fseek (toLong longBits call.offset) = none) :
    ¬Fits longBits stream call := by
  rintro ⟨target, htarget, -⟩
  rw [Stream.fseek_eq_some_iff.mpr ⟨target, htarget, rfl⟩] at h
  cases h

theorem fits_iff_of_fseek {sought : Stream}
    (h : stream.fseek (toLong longBits call.offset) = some sought) :
    Fits longBits stream call ↔ call.SameAt sought.disk sought.position := by
  obtain ⟨target, htarget, rfl⟩ := Stream.fseek_eq_some_iff.mp h
  constructor
  · rintro ⟨other, hother, hsame⟩
    rwa [show other = target by omega] at hsame
  · intro hsame
    exact ⟨target, htarget, hsame⟩

theorem fseek_disk {sought : Stream} {displacement : Int}
    (h : stream.fseek displacement = some sought) : sought.disk = stream.disk := by
  obtain ⟨target, -, rfl⟩ := Stream.fseek_eq_some_iff.mp h
  rfl

/-- In the other build a call within the file succeeds. -/
theorem unix_returned (hwithin : call.Within stream.disk) :
    (UnixFd.perform stream.disk call).1.returned = true := by
  cases call with
  | read offset size =>
      have hsize : offset + size ≤ stream.disk.size := hwithin.2
      simp [UnixFd.perform, UnixFd.read, FileData.pread_within hsize]
  | write offset src => rfl

theorem perform_of_fseek_none (hlimit : call.offset ≤ seekLimit)
    (hseek : stream.fseek (toLong longBits call.offset) = none) :
    perform longBits stream call = some (⟨false, []⟩, stream) := by
  cases call with
  | read offset size =>
      rw [FileCall.offset] at hlimit hseek
      rw [perform, read, if_pos hlimit, hseek]
  | write offset src =>
      rw [FileCall.offset] at hlimit hseek
      rw [perform, write, if_pos hlimit, hseek]

theorem perform_eq_iff (hwithin : call.Within stream.disk) :
    (perform longBits stream call).map (fun (reply, next) => (reply, next.disk))
        = some (UnixFd.perform stream.disk call) ↔ Fits longBits stream call := by
  obtain ⟨hlimit, hsize⟩ := hwithin
  cases hseek : stream.fseek (toLong longBits call.offset) with
  | none =>
      rw [perform_of_fseek_none hlimit hseek]
      refine iff_of_false (fun h => ?_) (not_fits_of_fseek hseek)
      have hreturned := unix_returned ⟨hlimit, hsize⟩
      rw [← Option.some.inj h] at hreturned
      cases hreturned
  | some sought =>
      rw [fits_iff_of_fseek hseek, ← fseek_disk hseek]
      rw [← fseek_disk hseek] at hsize
      cases call with
      | read offset size =>
          simp only [FileCall.offset, FileCall.size] at hlimit hsize hseek
          rw [← read_sought_eq_iff hsize, perform, read, if_pos hlimit, hseek]
          simp [UnixFd.perform, Stream.fread]
      | write offset src =>
          simp only [FileCall.offset, FileCall.size] at hlimit hsize hseek
          rw [← write_sought_eq_iff hsize, perform, write, if_pos hlimit, hseek]
          simp [UnixFd.perform]

end Fits

/-! ### A sequence of calls -/

/-- A call within the file does not make it longer. -/
theorem unix_size {disk : FileData} {call : FileCall} (hwithin : call.Within disk) :
    (UnixFd.perform disk call).2.size = disk.size := by
  cases call with
  | read offset size => rfl
  | write offset src => exact FileData.pwrite_size hwithin.2

theorem perform_isSome {call : FileCall} (hlimit : call.offset ≤ seekLimit) :
    ∃ reply next, perform longBits stream call = some (reply, next) := by
  cases call with
  | read offset size =>
      rw [FileCall.offset] at hlimit
      simp only [perform, read, if_pos hlimit]
      split
      · exact ⟨_, _, rfl⟩
      · exact ⟨_, _, rfl⟩
  | write offset src =>
      rw [FileCall.offset] at hlimit
      simp only [perform, write, if_pos hlimit]
      split
      · exact ⟨_, _, rfl⟩
      · exact ⟨_, _, rfl⟩

/-- Both builds give the same replies and leave the same contents after every call, exactly if every
call fits the position it is made at. -/
theorem trace_eq_iff {calls : List FileCall} (hwithin : ∀ call ∈ calls, call.Within stream.disk) :
    trace longBits stream calls = some (UnixFd.trace stream.disk calls) ↔
      (system longBits).AlongSteps (Fits longBits) stream calls := by
  induction calls generalizing stream with
  | nil => exact iff_of_true rfl trivial
  | cons call calls ih =>
      obtain ⟨hfirst, hrest⟩ := List.forall_mem_cons.mp hwithin
      obtain ⟨reply, next, hperform⟩ := @perform_isSome longBits stream call hfirst.1
      have hcall := @perform_eq_iff longBits stream call hfirst
      rw [hperform, Option.map_some, Option.some.injEq] at hcall
      -- A call that fits leaves both files the same, so the rest is within the file as well.
      have hlater (heq : (reply, next.disk) = UnixFd.perform stream.disk call) :
          trace longBits next calls = some (UnixFd.trace (UnixFd.perform stream.disk call).2 calls)
            ↔
            (system longBits).AlongSteps (Fits longBits) next calls := by
        have hsize : next.disk.size = stream.disk.size := by
          rw [show next.disk = _ from congrArg Prod.snd heq, unix_size hfirst]
        rw [← heq]
        apply ih
        intro other hother
        rw [FileCall.Within, hsize]
        exact hrest other hother
      have hstep : (system longBits).step stream call = some next := by
        simp [system, hperform]
      simp only [trace, hperform, UnixFd.trace, System.AlongSteps, hstep, Option.some.injEq,
        forall_eq', Option.map_eq_some_iff, List.cons.injEq]
      constructor
      · rintro ⟨later, htrace, heq, rfl⟩
        exact ⟨hcall.mp heq, (hlater heq).mp htrace⟩
      · rintro ⟨hfits, halong⟩
        have heq := hcall.mpr hfits
        exact ⟨_, (hlater heq).mpr halong, heq, rfl⟩

/-- A file of four bytes, just opened. -/
def opened : Stream := ⟨FileData.empty.pwrite 0 [10, 20, 30, 40], 0⟩

/-- An empty read leaves the position at zero, and one byte is written from there. -/
theorem trace_eq_iff_oneByte :
    (∀ call ∈ [FileCall.read 0 0, .write 2 [50]], call.Within opened.disk) ∧
      trace 32 opened [.read 0 0, .write 2 [50]]
        = some (UnixFd.trace opened.disk [.read 0 0, .write 2 [50]]) := by
  have hwithin : ∀ call ∈ [FileCall.read 0 0, .write 2 [50]], call.Within opened.disk := by
    intro call hcall
    simp only [List.mem_cons, List.not_mem_nil, or_false] at hcall
    rcases hcall with rfl | rfl
    · exact ⟨by decide, by decide⟩
    · exact ⟨by decide, by decide⟩
  refine ⟨hwithin, (trace_eq_iff hwithin).mpr fun next hnext => ⟨⟨0, by decide, Or.inl rfl⟩, ?_⟩⟩
  obtain rfl := Option.some.inj hnext
  exact fun _ _ => ⟨⟨2, by decide, Or.inr ⟨50, rfl, Or.inl rfl⟩⟩, trivial⟩

/-- A word of four bytes is read and reported as a failure, and of two reads of the first byte the
second one reads the next. -/
theorem stream_reads_differ :
    (FileCall.read 0 4).Within opened.disk ∧
    (trace 32 opened [.read 0 4]).map (·.map Prod.fst) = some [⟨false, [10, 20, 30, 40]⟩] ∧
    (UnixFd.trace opened.disk [.read 0 4]).map Prod.fst = [⟨true, [10, 20, 30, 40]⟩] ∧
    (FileCall.read 0 1).Within opened.disk ∧
    (trace 32 opened [.read 0 1, .read 0 1]).map (·.map Prod.fst)
        = some [⟨true, [10]⟩, ⟨true, [20]⟩] ∧
    (UnixFd.trace opened.disk [.read 0 1, .read 0 1]).map Prod.fst
        = [⟨true, [10]⟩, ⟨true, [10]⟩] := by
  simp only [FileCall.Within]
  decide +kernel

end Stdio

end TapSdk
