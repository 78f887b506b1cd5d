import TapSdk.Library.Md5
import TapSdk.Base.Base64

/-!
# MD5 of the SDK

`base/md5.cpp`. A message is taken when the object is constructed; the digest is computed when it is
asked for, on a state that is restored afterwards. What is in memory that nothing has been written
to is arbitrary.
-/

namespace TapSdk

open Library
open Md5 (Registers)

/-- The members of `MD5`; the four words of `state` by name and `count` with the low word first. -/
structure MD5 where
  finished : Bool
  state : Registers
  count : UInt32 × UInt32
  buffer : Memory
  digest : Bytes

namespace MD5

def F (x y z : UInt32) : UInt32 := (x &&& y) ||| (~~~x &&& z)

def G (x y z : UInt32) : UInt32 := (x &&& z) ||| (y &&& ~~~z)

def H (x y z : UInt32) : UInt32 := x ^^^ y ^^^ z

def I (x y z : UInt32) : UInt32 := y ^^^ (x ||| ~~~z)

def rotateLeft (num n : UInt32) : UInt32 := num <<< n ||| num >>> (32 - n)

/-- The value that the macros `FF`, `GG`, `HH` and `II` give to their first argument. -/
def line (f : UInt32 → UInt32 → UInt32 → UInt32) (a b c d x s ac : UInt32) : UInt32 :=
  let a := a + (f b c d + x + ac)
  let a := rotateLeft a s
  a + b

/-- Lines of `transform`: each has the index of its word and its constant. Every four of them take
their registers in the same four orders. -/
def lines (f : UInt32 → UInt32 → UInt32 → UInt32) (s : UInt32 × UInt32 × UInt32 × UInt32)
    (x : List UInt32) : List (Nat × UInt32) → Registers → Registers
  | first :: second :: third :: fourth :: rest, ⟨a, b, c, d⟩ =>
      let a := line f a b c d (x.getD first.1 0) s.1 first.2
      let d := line f d a b c (x.getD second.1 0) s.2.1 second.2
      let c := line f c d a b (x.getD third.1 0) s.2.2.1 third.2
      let b := line f b c d a (x.getD fourth.1 0) s.2.2.2 fourth.2
      lines f s x rest ⟨a, b, c, d⟩
  | _, registers => registers

def lines1 : List (Nat × UInt32) :=
  [(0, 0xd76aa478), (1, 0xe8c7b756), (2, 0x242070db), (3, 0xc1bdceee),
    (4, 0xf57c0faf), (5, 0x4787c62a), (6, 0xa8304613), (7, 0xfd469501),
    (8, 0x698098d8), (9, 0x8b44f7af), (10, 0xffff5bb1), (11, 0x895cd7be),
    (12, 0x6b901122), (13, 0xfd987193), (14, 0xa679438e), (15, 0x49b40821)]

def lines2 : List (Nat × UInt32) :=
  [(1, 0xf61e2562), (6, 0xc040b340), (11, 0x265e5a51), (0, 0xe9b6c7aa),
    (5, 0xd62f105d), (10, 0x2441453), (15, 0xd8a1e681), (4, 0xe7d3fbc8),
    (9, 0x21e1cde6), (14, 0xc33707d6), (3, 0xf4d50d87), (8, 0x455a14ed),
    (13, 0xa9e3e905), (2, 0xfcefa3f8), (7, 0x676f02d9), (12, 0x8d2a4c8a)]

def lines3 : List (Nat × UInt32) :=
  [(5, 0xfffa3942), (8, 0x8771f681), (11, 0x6d9d6122), (14, 0xfde5380c),
    (1, 0xa4beea44), (4, 0x4bdecfa9), (7, 0xf6bb4b60), (10, 0xbebfbc70),
    (13, 0x289b7ec6), (0, 0xeaa127fa), (3, 0xd4ef3085), (6, 0x4881d05),
    (9, 0xd9d4d039), (12, 0xe6db99e5), (15, 0x1fa27cf8), (2, 0xc4ac5665)]

def lines4 : List (Nat × UInt32) :=
  [(0, 0xf4292244), (7, 0x432aff97), (14, 0xab9423a7), (5, 0xfc93a039),
    (12, 0x655b59c3), (3, 0x8f0ccc92), (10, 0xffeff47d), (1, 0x85845dd1),
    (8, 0x6fa87e4f), (15, 0xfe2ce6e0), (6, 0xa3014314), (13, 0x4e0811a1),
    (4, 0xf7537e82), (11, 0xbd3af235), (2, 0x2ad7d2bb), (9, 0xeb86d391)]

def decodeWord (bytes : Bytes) : UInt32 :=
  (bytes.getD 0 0).toUInt32 ||| (bytes.getD 1 0).toUInt32 <<< 8 ||| (bytes.getD 2 0).toUInt32 <<< 16
    ||| (bytes.getD 3 0).toUInt32 <<< 24

/-- `decode` of a block. -/
def decode (block : Bytes) : List UInt32 :=
  (List.range 16).map fun i => decodeWord (block.drop (4 * i))

def encodeWord (word : UInt32) : Bytes :=
  [word.toUInt8, (word >>> 8).toUInt8, (word >>> 16).toUInt8, (word >>> 24).toUInt8]

def transform (md5 : MD5) (block : Bytes) : MD5 :=
  let x := decode block
  let round1 := lines F (7, 12, 17, 22) x lines1 md5.state
  let round2 := lines G (5, 9, 14, 20) x lines2 round1
  let round3 := lines H (4, 11, 16, 23) x lines3 round2
  let round4 := lines I (6, 10, 15, 21) x lines4 round3
  { md5 with state := md5.state.add round4 }

/-! ### `init` -/

/-- The loop of `init`, whose counter has 32 bits. There is no result when it reads past its input,
or when the counter comes round and the loop does not end. -/
def transformFrom (md5 : MD5) (input : Bytes) (i : Nat) : Option (MD5 × Nat) :=
  if (i + 63) % 4294967296 < input.length then
    if i + 64 < 4294967296 ∧ i + 64 ≤ input.length then
      (md5.transform ((input.drop i).take 64)).transformFrom input (i + 64)
    else none
  else some (md5, i)
termination_by input.length - i

/-- The number of bits, with `len` bytes more. -/
def addCount (count : UInt32 × UInt32) (len : Nat) : UInt32 × UInt32 :=
  let bits := UInt32.ofNat len <<< 3
  let low := count.1 + bits
  let high := if low < bits then count.2 + 1 else count.2
  (low, high + UInt32.ofNat len >>> 29)

def bufferIndex (md5 : MD5) : Nat := (md5.count.1 >>> 3 &&& (0x3f : UInt32)).toNat

def init (md5 : MD5) (input : Bytes) : Option MD5 :=
  let index := md5.bufferIndex
  let md5 := { md5 with finished := false, count := addCount md5.count input.length }
  let partLen := 64 - index
  if partLen ≤ input.length then do
    let buffer := md5.buffer.write index (input.take partLen)
    let first := ({ md5 with buffer := buffer } : MD5).transform (buffer.read 0 64)
    let (md5, i) ← first.transformFrom input partLen
    some { md5 with buffer := md5.buffer.write 0 (input.drop i) }
  else some { md5 with buffer := md5.buffer.write index input }

/-- The constructor, in this memory. -/
def new (buffer : Memory) (digest message : Bytes) : Option MD5 :=
  let start : Registers := ⟨0x67452301, 0xefcdab89, 0x98badcfe, 0x10325476⟩
  ({ finished := false, state := start, count := (0, 0), buffer := buffer, digest := digest } :
    MD5).init message

/-! ### `getDigest` -/

def padding : Bytes := 0x80 :: List.replicate 63 0

def getDigest (md5 : MD5) : Option (Bytes × MD5) :=
  if md5.finished then some (md5.digest, md5)
  else do
    let bits := encodeWord md5.count.1 ++ encodeWord md5.count.2
    let index := md5.bufferIndex
    let padLen := if index < 56 then 56 - index else 120 - index
    let last ← ({ md5 with finished := true } : MD5).init (padding.take padLen)
    let last ← last.init bits
    let digest := encodeWord last.state.a ++ encodeWord last.state.b ++ encodeWord last.state.c
      ++ encodeWord last.state.d
    some (digest, { last with digest := digest, state := md5.state, count := md5.count })

def hexNumbers : Bytes := ascii "0123456789abcdef"

def toStr (md5 : MD5) : Option (Bytes × MD5) := do
  let (digest, md5) ← md5.getDigest
  some (digest.flatMap fun t =>
    [hexNumbers.getD (t.toNat / 16) 0, hexNumbers.getD (t.toNat % 16) 0], md5)

/-- What `toStr` returns, called so many times. -/
def toStrs (md5 : MD5) : Nat → Option (List Bytes)
  | 0 => some []
  | count + 1 => do
      let (str, md5) ← md5.toStr
      let rest ← md5.toStrs count
      some (str :: rest)

end MD5

end TapSdk
