import Mathlib.Data.List.Basic
import Mathlib.Tactic.Ring

/-!
# Byte memories and little-endian words

A memory holds a byte at every offset. What the proofs need of it is a frame rule, that a write
changes nothing outside its own range, and that a word of fixed width survives being written out
and read back.
-/

namespace TapSdk.Library

/-- A byte at every offset. -/
abbrev Memory := Nat → UInt8

namespace Memory

def read (memory : Memory) (offset size : Nat) : List UInt8 :=
  (List.range size).map fun i => memory (offset + i)

def write (memory : Memory) (offset : Nat) (bytes : List UInt8) : Memory :=
  fun i => if offset ≤ i then (bytes[i - offset]?).getD (memory i) else memory i

variable {memory memory' : Memory} {offset offset' size : Nat} {bytes : List UInt8}

@[simp]
theorem length_read : (memory.read offset size).length = size := by
  simp [read]

@[simp]
theorem read_zero : memory.read offset 0 = [] := rfl

theorem read_congr (h : ∀ i, offset ≤ i → i < offset + size → memory i = memory' i) :
    memory.read offset size = memory'.read offset size := by
  apply List.map_congr_left
  intro i hi
  have hlt := List.mem_range.mp hi
  exact h (offset + i) (by omega) (by omega)

theorem read_add (first second : Nat) :
    memory.read offset (first + second)
      = memory.read offset first ++ memory.read (offset + first) second := by
  simp [read, List.range_add, Function.comp_def, Nat.add_assoc]

theorem read_take {count : Nat} (h : count ≤ size) :
    (memory.read offset size).take count = memory.read offset count := by
  obtain ⟨rest, rfl⟩ := Nat.exists_eq_add_of_le h
  rw [read_add, List.take_left' length_read]

theorem read_drop {count : Nat} (h : count ≤ size) :
    (memory.read offset size).drop count = memory.read (offset + count) (size - count) := by
  obtain ⟨rest, rfl⟩ := Nat.exists_eq_add_of_le h
  rw [read_add, List.drop_left' length_read, Nat.add_sub_cancel_left]

/-! ### The frame rule -/

theorem write_of_outside {i : Nat} (h : i < offset ∨ offset + bytes.length ≤ i) :
    memory.write offset bytes i = memory i := by
  unfold write
  split
  · rw [List.getElem?_eq_none (by omega), Option.getD_none]
  · rfl

theorem write_of_inside {i : Nat} (h : i < bytes.length) :
    memory.write offset bytes (offset + i) = bytes[i] := by
  simp [write, h]

@[simp]
theorem write_nil : memory.write offset [] = memory := by
  funext i
  exact write_of_outside (by simp only [List.length_nil]; omega)

theorem read_write_self : (memory.write offset bytes).read offset bytes.length = bytes := by
  apply List.ext_getElem
  · exact length_read
  · intro i _ hi
    simp only [read, List.getElem_map, List.getElem_range]
    exact write_of_inside hi

theorem read_write_of_length (h : bytes.length = size) :
    (memory.write offset bytes).read offset size = bytes := by
  rw [← h, read_write_self]

theorem read_write_disjoint
    (h : offset' + size ≤ offset ∨ offset + bytes.length ≤ offset') :
    (memory.write offset bytes).read offset' size = memory.read offset' size := by
  apply read_congr
  intro i hlow hhigh
  exact write_of_outside (by omega)

/-- The bytes up to an offset, and those written there. -/
theorem read_write_after (memory : Memory) (size : Nat) (bytes : List UInt8) :
    (memory.write size bytes).read 0 (size + bytes.length) = memory.read 0 size ++ bytes := by
  rw [read_add, Nat.zero_add, read_write_self,
    read_write_disjoint (Or.inl (Nat.le_of_eq (Nat.zero_add _)))]

theorem write_congr {i : Nat} (h : memory i = memory' i) :
    memory.write offset bytes i = memory'.write offset bytes i := by
  simp only [write, h]

theorem write_cons (byte : UInt8) :
    memory.write offset (byte :: bytes)
      = (memory.write offset [byte]).write (offset + 1) bytes := by
  funext i
  rcases Nat.lt_trichotomy i offset with hlt | heq | hgt
  · rw [write_of_outside (Or.inl hlt), write_of_outside (Or.inl (by omega)),
      write_of_outside (Or.inl hlt)]
  · subst heq
    rw [@write_of_outside (memory.write i [byte]) (i + 1) bytes i (Or.inl (by omega))]
    simp [write]
  · obtain ⟨j, rfl⟩ := Nat.exists_eq_add_of_lt hgt
    have hself : memory.write offset [byte] (offset + j + 1) = memory (offset + j + 1) :=
      write_of_outside (Or.inr (by simp only [List.length_singleton]; omega))
    have hle : offset ≤ offset + j + 1 := by omega
    have hle' : offset + 1 ≤ offset + j + 1 := by omega
    simp only [write, hle, hle', if_true, show offset + j + 1 - offset = j + 1 by omega,
      show offset + j + 1 - (offset + 1) = j by omega, List.getElem?_cons_succ] at hself ⊢
    rw [hself]

theorem eq_getElem_of_read {i : Nat} (h : memory.read offset bytes.length = bytes)
    (hi : i < bytes.length) : memory (offset + i) = bytes[i] := by
  have hbyte : (memory.read offset bytes.length)[i]? = bytes[i]? := by rw [h]
  simpa only [read, List.getElem?_map, List.getElem?_range hi, Option.map_some,
    List.getElem?_eq_getElem hi, Option.some.injEq] using hbyte

/-- Writing what is there already changes nothing. -/
theorem write_of_read (h : memory.read offset bytes.length = bytes) :
    memory.write offset bytes = memory := by
  funext i
  by_cases hi : offset ≤ i ∧ i < offset + bytes.length
  · obtain ⟨j, rfl⟩ := Nat.exists_eq_add_of_le hi.1
    have hj : j < bytes.length := by omega
    rw [write_of_inside hj, eq_getElem_of_read h hj]
  · exact write_of_outside (by omega)

end Memory

/-! ### Little-endian words -/

/-- The `width` low bytes of `value`, the least significant first. -/
def leBytes (width value : Nat) : List UInt8 :=
  (List.range width).map fun i => UInt8.ofNat (value / 256 ^ i)

def leNat : List UInt8 → Nat
  | [] => 0
  | byte :: rest => byte.toNat + 256 * leNat rest

@[simp]
theorem length_leBytes (width value : Nat) : (leBytes width value).length = width := by
  simp [leBytes]

theorem leBytes_succ (width value : Nat) :
    leBytes (width + 1) value = UInt8.ofNat value :: leBytes width (value / 256) := by
  simp only [leBytes, List.range_succ_eq_map, List.map_cons, List.map_map, Nat.pow_zero,
    Nat.div_one]
  congr 1
  apply List.map_congr_left
  intro i _
  simp only [Function.comp_apply, Nat.pow_succ', Nat.div_div_eq_div_mul]

theorem leNat_leBytes (width value : Nat) : leNat (leBytes width value) = value % 256 ^ width := by
  induction width generalizing value with
  | zero => simp [leBytes, leNat, Nat.mod_one]
  | succ width ih =>
      calc leNat (leBytes (width + 1) value)
          = (UInt8.ofNat value).toNat + 256 * leNat (leBytes width (value / 256)) := by
            rw [leBytes_succ, leNat]
        _ = value % 256 + 256 * (value / 256 % 256 ^ width) := by rw [ih, UInt8.toNat_ofNat']
        _ = value % (256 * 256 ^ width) := Nat.mod_mul.symm
        _ = value % 256 ^ (width + 1) := by rw [Nat.pow_succ']

theorem leBytes_leNat (bytes : List UInt8) : leBytes bytes.length (leNat bytes) = bytes := by
  induction bytes with
  | nil => rfl
  | cons byte rest ih =>
      have hlow : UInt8.ofNat (byte.toNat + 256 * leNat rest) = byte := by
        apply UInt8.toNat_inj.mp
        rw [UInt8.toNat_ofNat']
        have hlt := byte.toNat_lt
        omega
      have hhigh : (byte.toNat + 256 * leNat rest) / 256 = leNat rest := by
        have hlt := byte.toNat_lt
        omega
      rw [List.length_cons, leBytes_succ, leNat, hlow, hhigh, ih]

theorem leBytes_mod (width value : Nat) :
    leBytes width (value % 256 ^ width) = leBytes width value := by
  have hbytes := leBytes_leNat (leBytes width value)
  rwa [length_leBytes, leNat_leBytes] at hbytes

theorem leBytes_add (first second value : Nat) :
    leBytes (first + second) value
      = leBytes first value ++ leBytes second (value / 256 ^ first) := by
  unfold leBytes
  rw [List.range_add, List.map_append, List.map_map]
  congr 1
  apply List.map_congr_left
  intro i _
  rw [Function.comp_apply, Nat.div_div_eq_div_mul, Nat.pow_add]

theorem leNat_lt (bytes : List UInt8) : leNat bytes < 256 ^ bytes.length := by
  induction bytes with
  | nil => exact Nat.one_pos
  | cons byte rest ih =>
      have hlt := byte.toNat_lt
      rw [leNat, List.length_cons, Nat.pow_succ']
      omega

def le32 (value : UInt32) : List UInt8 := leBytes 4 value.toNat

def le64 (value : UInt64) : List UInt8 := leBytes 8 value.toNat

def fromLe32 (bytes : List UInt8) : UInt32 := UInt32.ofNat (leNat bytes)

def fromLe64 (bytes : List UInt8) : UInt64 := UInt64.ofNat (leNat bytes)

@[simp]
theorem length_le32 (value : UInt32) : (le32 value).length = 4 := length_leBytes _ _

@[simp]
theorem length_le64 (value : UInt64) : (le64 value).length = 8 := length_leBytes _ _

@[simp]
theorem fromLe32_le32 (value : UInt32) : fromLe32 (le32 value) = value := by
  have hlt : value.toNat < 256 ^ 4 := value.toNat_lt
  rw [fromLe32, le32, leNat_leBytes, Nat.mod_eq_of_lt hlt, UInt32.ofNat_toNat]

@[simp]
theorem fromLe64_le64 (value : UInt64) : fromLe64 (le64 value) = value := by
  have hlt : value.toNat < 256 ^ 8 := value.toNat_lt
  rw [fromLe64, le64, leNat_leBytes, Nat.mod_eq_of_lt hlt, UInt64.ofNat_toNat]

theorem le32_fromLe32 {bytes : List UInt8} (h : bytes.length = 4) :
    le32 (fromLe32 bytes) = bytes := by
  have hlt : leNat bytes < 2 ^ 32 := by
    have hbound := leNat_lt bytes
    rw [h] at hbound
    exact hbound
  rw [le32, fromLe32, UInt32.toNat_ofNat', Nat.mod_eq_of_lt hlt, ← h, leBytes_leNat]

theorem le64_fromLe64 {bytes : List UInt8} (h : bytes.length = 8) :
    le64 (fromLe64 bytes) = bytes := by
  have hlt : leNat bytes < 2 ^ 64 := by
    have hbound := leNat_lt bytes
    rw [h] at hbound
    exact hbound
  rw [le64, fromLe64, UInt64.toNat_ofNat', Nat.mod_eq_of_lt hlt, ← h, leBytes_leNat]

/-! ### The bits of a word -/

/-- Four bytes side by side. -/
theorem toBitVec_fromLe32 (a b c d : UInt8) :
    (fromLe32 [a, b, c, d]).toBitVec = d.toBitVec ++ c.toBitVec ++ b.toBitVec ++ a.toBitVec := by
  have ha := a.toNat_lt
  have hb := b.toNat_lt
  have hc := c.toNat_lt
  have hd := d.toNat_lt
  apply BitVec.eq_of_toNat_eq
  simp only [fromLe32, leNat, UInt32.toNat_toBitVec, UInt32.toNat_ofNat', BitVec.toNat_append,
    UInt8.toNat_toBitVec]
  rw [← Nat.shiftLeft_add_eq_or_of_lt hc, ← Nat.shiftLeft_add_eq_or_of_lt hb,
    ← Nat.shiftLeft_add_eq_or_of_lt ha]
  simp only [Nat.shiftLeft_eq]
  omega

theorem getLsbD_fromLe32 (a b c d : UInt8) (bit : Nat) :
    (fromLe32 [a, b, c, d]).toBitVec.getLsbD bit
      = if bit < 8 then a.toBitVec.getLsbD bit
        else if bit < 16 then b.toBitVec.getLsbD (bit - 8)
        else if bit < 24 then c.toBitVec.getLsbD (bit - 16)
        else d.toBitVec.getLsbD (bit - 24) := by
  rw [toBitVec_fromLe32]
  rw [BitVec.getLsbD_append, BitVec.getLsbD_append, BitVec.getLsbD_append]
  simp only [Nat.sub_sub]
  grind

theorem toUInt8_shiftRight (word shift : UInt32) {place : Nat} (hshift : shift.toNat = 8 * place)
    (hplace : place < 4) : (word >>> shift).toUInt8 = UInt8.ofNat (word.toNat / 256 ^ place) := by
  have hmod : 8 * place % 32 = 8 * place := Nat.mod_eq_of_lt (by omega)
  apply UInt8.toNat_inj.mp
  rw [UInt32.toNat_toUInt8, UInt32.toNat_shiftRight, UInt8.toNat_ofNat', hshift, hmod,
    Nat.shiftRight_eq_div_pow, Nat.pow_mul]

theorem le32_eq (word : UInt32) : le32 word
    = [word.toUInt8, (word >>> 8).toUInt8, (word >>> 16).toUInt8, (word >>> 24).toUInt8] := by
  have hlow : word.toUInt8 = UInt8.ofNat word.toNat := by
    apply UInt8.toNat_inj.mp
    rw [UInt32.toNat_toUInt8, UInt8.toNat_ofNat']
  rw [toUInt8_shiftRight word 8 (show (8 : UInt32).toNat = 8 * 1 from rfl) (by decide),
    toUInt8_shiftRight word 16 (show (16 : UInt32).toNat = 8 * 2 from rfl) (by decide),
    toUInt8_shiftRight word 24 (show (24 : UInt32).toNat = 8 * 3 from rfl) (by decide), hlow]
  simp [le32, leBytes, List.range_succ]

end TapSdk.Library
