import TapSdk.Library.Memory

/-!
# Files

The part of `base/file.cpp` the tracker cache stands on. `FileData` is what the file system holds
under a path: a size, and a byte at every offset, zero from the size on, so that growing a file
fills it with zeros. `File` is the open handle with its cached size. Each operation is told whether
it succeeds; a positional write that fails may still have transferred a first part.
-/

namespace TapSdk

open Library

structure FileData where
  size : Nat
  byte : Memory
  zero_of_le : ∀ i, size ≤ i → byte i = 0

namespace FileData

def empty : FileData := ⟨0, fun _ => 0, fun _ _ => rfl⟩

def resize (disk : FileData) (newSize : Nat) : FileData :=
  ⟨newSize, fun i => if i < newSize then disk.byte i else 0, fun i hi => by
    rw [if_neg (by omega)]⟩

/-- `pwrite`: a write past the end makes the file longer, an empty one changes nothing. -/
def pwrite (disk : FileData) (offset : Nat) (bytes : List UInt8) : FileData :=
  if bytes = [] then disk
  else
    ⟨max disk.size (offset + bytes.length), disk.byte.write offset bytes, fun i hi => by
      rw [Memory.write_of_outside (Or.inr (by omega)), disk.zero_of_le i (by omega)]⟩

/-- A store through a shared mapping of `length` bytes. It does not change the size. -/
def storeMapped (disk : FileData) (length offset : Nat) (bytes : List UInt8) : FileData :=
  ⟨disk.size, fun i => if i < length ∧ i < disk.size then disk.byte.write offset bytes i
      else disk.byte i, fun i hi => by
    rw [if_neg (by omega), disk.zero_of_le i hi]⟩

variable {disk : FileData} {newSize offset length : Nat} {bytes : List UInt8}

@[simp]
theorem resize_size : (disk.resize newSize).size = newSize := rfl

@[simp]
theorem storeMapped_size : (disk.storeMapped length offset bytes).size = disk.size := rfl

theorem resize_byte {i : Nat} (h : i < newSize) : (disk.resize newSize).byte i = disk.byte i := by
  simp [resize, h]

theorem resize_byte_of_le (h : disk.size ≤ newSize) :
    (disk.resize newSize).byte = disk.byte := by
  funext i
  by_cases hi : i < newSize
  · exact resize_byte hi
  · simp [resize, hi, disk.zero_of_le i (by omega)]

theorem pwrite_byte : (disk.pwrite offset bytes).byte = disk.byte.write offset bytes := by
  unfold pwrite
  split
  · rename_i hnil
    rw [hnil, Memory.write_nil]
  · rfl

theorem pwrite_size (h : offset + bytes.length ≤ disk.size) :
    (disk.pwrite offset bytes).size = disk.size := by
  unfold pwrite
  split
  · rfl
  · exact Nat.max_eq_left h

end FileData

/-- How a positional write ends: complete, or after the first `count` bytes. -/
inductive WriteOutcome where
  | full
  | short (count : Nat)

def FileData.write (disk : FileData) (offset : Nat) (bytes : List UInt8) :
    WriteOutcome → Bool × FileData
  | .full => (true, disk.pwrite offset bytes)
  | .short count => (false, disk.pwrite offset (bytes.take count))

/-- The handle; `curSize` is zero until the size is first asked for. -/
structure File where
  curSize : Nat

def File.size (file : File) (disk : FileData) : Nat :=
  if file.curSize ≠ 0 then file.curSize else disk.size

end TapSdk
