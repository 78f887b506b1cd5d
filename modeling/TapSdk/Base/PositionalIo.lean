import Mathlib.Algebra.Group.Nat.Defs
import TapSdk.Base.File
import TapSdk.Library.Run

/-!
# Positional input and output

`File::Read` and `File::Write` of `base/file.cpp` in both builds, on a file opened with
`FileAccessMode::ReadWrite` and without device errors. The build with `HAS_UNIX_FD` calls `pread`
and `pwrite`. The other one goes through the stream, which has a position that every call moves; its
contents are what a flush leaves, as `fseek` and `fclose` do.
-/

namespace TapSdk

open Library

inductive FileCall where
  | read (offset size : Nat)
  | write (offset : Nat) (src : List UInt8)

def FileCall.offset : FileCall → Nat
  | .read offset _ => offset
  | .write offset _ => offset

def FileCall.size : FileCall → Nat
  | .read _ size => size
  | .write _ src => src.length

/-- What the caller gets: the returned boolean, and the bytes stored from `dest` on. -/
structure FileReply where
  returned : Bool
  delivered : List UInt8
  deriving DecidableEq

/-- As much as the file has. -/
def FileData.pread (disk : FileData) (offset size : Nat) : List UInt8 :=
  disk.byte.read offset (min size (disk.size - offset))

/-! ### With `HAS_UNIX_FD` -/

namespace UnixFd

def read (disk : FileData) (offset size : Nat) : FileReply :=
  let bytes := disk.pread offset size
  ⟨bytes.length = size, bytes⟩

def write (disk : FileData) (offset : Nat) (src : List UInt8) : FileReply × FileData :=
  let (returned, next) := disk.write offset src .full
  (⟨returned, []⟩, next)

def perform (disk : FileData) : FileCall → FileReply × FileData
  | .read offset size => (read disk offset size, disk)
  | .write offset src => write disk offset src

/-- The replies of a sequence of calls, each with the contents it leaves. -/
def trace : FileData → List FileCall → List (FileReply × FileData)
  | _, [] => []
  | disk, call :: calls => perform disk call :: trace (perform disk call).2 calls

end UnixFd

/-! ### Through the stream -/

namespace Stdio

structure Stream where
  disk : FileData
  position : Nat

/-- An offset as a `long`, which on Windows has 32 bits. -/
def toLong (longBits offset : Nat) : Int := Int.bmod offset (2 ^ longBits)

/-- `fseek` with `SEEK_CUR`. It may go past the end but not before the beginning. -/
def Stream.fseek (stream : Stream) (displacement : Int) : Option Stream :=
  let target := stream.position + displacement
  if 0 ≤ target then some { stream with position := target.toNat } else none

/-- Returns the number of complete items, which is zero for items of no size. -/
def Stream.fread (stream : Stream) (size count : Nat) : Nat × List UInt8 × Stream :=
  let bytes := stream.disk.pread stream.position (size * count)
  (bytes.length / size, bytes, { stream with position := stream.position + bytes.length })

def Stream.fwrite (stream : Stream) (src : List UInt8) (size count : Nat) : Nat × Stream :=
  let bytes := src.take (size * count)
  (bytes.length / size,
    ⟨stream.disk.pwrite stream.position bytes, stream.position + bytes.length⟩)

/-- The bound asserted before a seek. -/
def seekLimit : Nat := 2 * 1024 * 1024 * 1024

section

variable (longBits : Nat)

def read (stream : Stream) (offset size : Nat) : Option (FileReply × Stream) :=
  if offset ≤ seekLimit then
    match stream.fseek (toLong longBits offset) with
    | some sought =>
        let (items, bytes, next) := sought.fread size 1
        some (⟨items = size, bytes⟩, next)
    | none => some (⟨false, []⟩, stream)
  else none

def write (stream : Stream) (offset : Nat) (src : List UInt8) : Option (FileReply × Stream) :=
  if offset ≤ seekLimit then
    match stream.fseek (toLong longBits offset) with
    | some sought =>
        let (items, next) := sought.fwrite src src.length 1
        some (⟨items = src.length, []⟩, next)
    | none => some (⟨false, []⟩, stream)
  else none

def perform (stream : Stream) : FileCall → Option (FileReply × Stream)
  | .read offset size => read longBits stream offset size
  | .write offset src => write longBits stream offset src

/-- The same for the stream; nothing when an assertion fails. -/
def trace : Stream → List FileCall → Option (List (FileReply × FileData))
  | _, [] => some []
  | stream, call :: calls =>
      match perform longBits stream call with
      | some (reply, next) => (trace next calls).map ((reply, next.disk) :: ·)
      | none => none

/-- The stream as a system, from `fopen` on. -/
def system : System Stream FileCall where
  init stream := stream.position = 0
  step stream call := (perform longBits stream call).map Prod.snd

end

end Stdio

end TapSdk
