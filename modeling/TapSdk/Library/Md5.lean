import TapSdk.Library.Digest

/-!
# MD5

The digest of RFC 1321: sixty-four steps over four registers, four functions with sixteen steps
each. Words are written with the least significant byte first.
-/

namespace TapSdk.Library

namespace Md5

structure Registers where
  a : UInt32
  b : UInt32
  c : UInt32
  d : UInt32
  deriving DecidableEq

namespace Registers

def add (first second : Registers) : Registers :=
  ⟨first.a + second.a, first.b + second.b, first.c + second.c, first.d + second.d⟩

def bytes (registers : Registers) : List UInt8 :=
  le32 registers.a ++ le32 registers.b ++ le32 registers.c ++ le32 registers.d

end Registers

def rotl (word count : UInt32) : UInt32 := word <<< count ||| word >>> (32 - count)

def mix (time : Nat) (x y z : UInt32) : UInt32 :=
  if time < 16 then (x &&& y) ||| (~~~x &&& z)
  else if time < 32 then (x &&& z) ||| (y &&& ~~~z)
  else if time < 48 then x ^^^ y ^^^ z
  else y ^^^ (x ||| ~~~z)

/-- The word of the block that a step takes. -/
def index (time : Nat) : Nat :=
  if time < 16 then time
  else if time < 32 then (5 * time + 1) % 16
  else if time < 48 then (3 * time + 5) % 16
  else 7 * time % 16

def shifts : List UInt32 := [7, 12, 17, 22, 5, 9, 14, 20, 4, 11, 16, 23, 6, 10, 15, 21]

def shift (time : Nat) : UInt32 := shifts.getD (time / 16 * 4 + time % 4) 0

/-- The whole part of 2³² times the absolute value of the sine of 1, 2, and so on. -/
def sines : List UInt32 :=
  [
    0xd76aa478, 0xe8c7b756, 0x242070db, 0xc1bdceee, 0xf57c0faf, 0x4787c62a, 0xa8304613, 0xfd469501,
    0x698098d8, 0x8b44f7af, 0xffff5bb1, 0x895cd7be, 0x6b901122, 0xfd987193, 0xa679438e, 0x49b40821,
    0xf61e2562, 0xc040b340, 0x265e5a51, 0xe9b6c7aa, 0xd62f105d, 0x02441453, 0xd8a1e681, 0xe7d3fbc8,
    0x21e1cde6, 0xc33707d6, 0xf4d50d87, 0x455a14ed, 0xa9e3e905, 0xfcefa3f8, 0x676f02d9, 0x8d2a4c8a,
    0xfffa3942, 0x8771f681, 0x6d9d6122, 0xfde5380c, 0xa4beea44, 0x4bdecfa9, 0xf6bb4b60, 0xbebfbc70,
    0x289b7ec6, 0xeaa127fa, 0xd4ef3085, 0x04881d05, 0xd9d4d039, 0xe6db99e5, 0x1fa27cf8, 0xc4ac5665,
    0xf4292244, 0x432aff97, 0xab9423a7, 0xfc93a039, 0x655b59c3, 0x8f0ccc92, 0xffeff47d, 0x85845dd1,
    0x6fa87e4f, 0xfe2ce6e0, 0xa3014314, 0x4e0811a1, 0xf7537e82, 0xbd3af235, 0x2ad7d2bb, 0xeb86d391]

def sine (time : Nat) : UInt32 := sines.getD time 0

/-- A step with its function, rotation, word and constant. -/
def turn (mix : UInt32 → UInt32 → UInt32 → UInt32) (shift word sine : UInt32)
    (registers : Registers) :
    Registers :=
  ⟨registers.d,
    registers.b + rotl (registers.a + mix registers.b registers.c registers.d + word + sine) shift,
    registers.b, registers.c⟩

def word (block : List UInt8) (index : Nat) : UInt32 := fromLe32 ((block.drop (4 * index)).take 4)

def step (block : List UInt8) (registers : Registers) (time : Nat) : Registers :=
  turn (mix time) (shift time) (word block (index time)) (sine time) registers

def compress (registers : Registers) (block : List UInt8) : Registers :=
  registers.add ((List.range 64).foldl (step block) registers)

def digest : Digest Registers where
  start := ⟨0x67452301, 0xefcdab89, 0x98badcfe, 0x10325476⟩
  compress := compress
  lengthBytes := leBytes 8
  output := Registers.bytes
  length_lengthBytes := length_leBytes 8

def hash (message : List UInt8) : List UInt8 := digest.hash message

end Md5

end TapSdk.Library
