import TapSdk.Library.Digest

/-!
# SHA-1

The digest of FIPS 180-4: eighty words made of a block, and eighty rounds over five registers. Words
are written with the most significant byte first.
-/

namespace TapSdk.Library

def be32 (value : UInt32) : List UInt8 := (le32 value).reverse

def fromBe32 (bytes : List UInt8) : UInt32 := fromLe32 bytes.reverse

/-- The 64 low bits. -/
def be64 (value : Nat) : List UInt8 := (leBytes 8 value).reverse

namespace Sha1

def rotl (word : UInt32) (count : UInt32) : UInt32 := word <<< count ||| word >>> (32 - count)

structure Registers where
  a : UInt32
  b : UInt32
  c : UInt32
  d : UInt32
  e : UInt32
  deriving DecidableEq

namespace Registers

def add (first second : Registers) : Registers :=
  ⟨first.a + second.a, first.b + second.b, first.c + second.c, first.d + second.d,
    first.e + second.e⟩

def bytes (registers : Registers) : List UInt8 :=
  be32 registers.a ++ be32 registers.b ++ be32 registers.c ++ be32 registers.d ++ be32 registers.e

end Registers

def choose (x y z : UInt32) : UInt32 := (x &&& y) ^^^ (~~~x &&& z)

def parity (x y z : UInt32) : UInt32 := x ^^^ y ^^^ z

def majority (x y z : UInt32) : UInt32 := (x &&& y) ^^^ (x &&& z) ^^^ (y &&& z)

def mix (time : Nat) : UInt32 → UInt32 → UInt32 → UInt32 :=
  if time < 20 then choose else if time < 40 then parity else if time < 60 then majority else parity

def constant (time : Nat) : UInt32 :=
  if time < 20 then 0x5a827999 else if time < 40 then 0x6ed9eba1
  else if time < 60 then 0x8f1bbcdc else 0xca62c1d6

/-- The word of a block of 64 bytes, or one made of four earlier ones. -/
def schedule (block : List UInt8) (time : Nat) : UInt32 :=
  if time < 16 then fromBe32 ((block.drop (4 * time)).take 4)
  else rotl (schedule block (time - 3) ^^^ schedule block (time - 8)
    ^^^ schedule block (time - 14) ^^^ schedule block (time - 16)) 1

/-- A round with its function, constant and word. -/
def round (mix : UInt32 → UInt32 → UInt32 → UInt32) (constant word : UInt32)
    (registers : Registers) :
    Registers :=
  ⟨rotl registers.a 5 + mix registers.b registers.c registers.d + registers.e + constant + word,
    registers.a, rotl registers.b 30, registers.c, registers.d⟩

def step (block : List UInt8) (registers : Registers) (time : Nat) : Registers :=
  round (mix time) (constant time) (schedule block time) registers

def compress (registers : Registers) (block : List UInt8) : Registers :=
  registers.add ((List.range 80).foldl (step block) registers)

def digest : Digest Registers where
  start := ⟨0x67452301, 0xefcdab89, 0x98badcfe, 0x10325476, 0xc3d2e1f0⟩
  compress := compress
  lengthBytes := be64
  output := Registers.bytes
  length_lengthBytes _ := by
    rw [be64, List.length_reverse, length_leBytes]

def hash (message : List UInt8) : List UInt8 := digest.hash message

theorem length_bytes (registers : Registers) : registers.bytes.length = 20 := by
  simp only [Registers.bytes, be32, List.length_append, List.length_reverse, length_le32]

theorem length_hash (message : List UInt8) : (hash message).length = 20 := length_bytes _

theorem schedule_of_lt {time : Nat} (h : time < 16) (block : List UInt8) :
    schedule block time = fromBe32 ((block.drop (4 * time)).take 4) := by
  rw [schedule, if_pos h]

theorem schedule_of_ge {time : Nat} (h : 16 ≤ time) (block : List UInt8) :
    schedule block time = rotl (schedule block (time - 3) ^^^ schedule block (time - 8)
      ^^^ schedule block (time - 14) ^^^ schedule block (time - 16)) 1 := by
  rw [schedule, if_neg (Nat.not_lt.mpr h)]

end Sha1

end TapSdk.Library
