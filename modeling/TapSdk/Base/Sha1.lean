import TapSdk.Library.Sha1
import TapSdk.Base.Base64

/-!
# SHA-1 of the SDK

`base/sha1.cpp`. Bytes are added in pieces of any size; those that do not fill a block stay in
`m_buffer`. What is in memory that nothing has been written to is arbitrary.
-/

namespace TapSdk

open Library
open Sha1 (Registers)

/-- The members of `SHA1`; the five words of `m_hash` by name. -/
structure SHA1 where
  numBytes : UInt64
  bufferSize : Nat
  buffer : Memory
  hash : Registers

namespace SHA1

def blockSize : Nat := 64

def reset (sha1 : SHA1) : SHA1 :=
  { sha1 with
    numBytes := 0
    bufferSize := 0
    hash := ⟨0x67452301, 0xefcdab89, 0x98badcfe, 0x10325476, 0xc3d2e1f0⟩ }

/-- The constructor, in this memory. -/
def new (buffer : Memory) : SHA1 := reset ⟨0, 0, buffer, ⟨0, 0, 0, 0, 0⟩⟩

/-! ### `processBlock` -/

def f1 (b c d : UInt32) : UInt32 := d ^^^ (b &&& (c ^^^ d))

def f2 (b c d : UInt32) : UInt32 := b ^^^ c ^^^ d

def f3 (b c d : UInt32) : UInt32 := (b &&& c) ||| (b &&& d) ||| (c &&& d)

def rotate (a c : UInt32) : UInt32 := a <<< c ||| a >>> (32 - c)

def swap (x : UInt32) : UInt32 :=
  (x >>> 24) ||| ((x >>> 8) &&& (0x0000FF00 : UInt32)) ||| ((x <<< 8) &&& (0x00FF0000 : UInt32))
    ||| (x <<< 24)

/-- The loop that extends the words, once. -/
def extend (words : List UInt32) (i : Nat) : List UInt32 :=
  words ++ [rotate (words.getD (i - 3) 0 ^^^ words.getD (i - 8) 0 ^^^ words.getD (i - 14) 0
    ^^^ words.getD (i - 16) 0) 1]

/-- `words` after both loops. -/
def words (data : Bytes) : List UInt32 :=
  (List.range' 16 64).foldl extend
    ((List.range 16).map fun i => swap (fromLe32 ((data.drop (4 * i)).take 4)))

/-- The body of a round's loop: five steps, in each of which the registers have moved on by one. -/
def roundBody (f : UInt32 → UInt32 → UInt32 → UInt32) (k : UInt32) (words : List UInt32)
    (hash : Registers) (i : Nat) : Registers :=
  let offset := 5 * i
  let ⟨a, b, c, d, e⟩ := hash
  let e := e + (rotate a 5 + f b c d + words.getD offset 0 + k)
  let b := rotate b 30
  let d := d + (rotate e 5 + f a b c + words.getD (offset + 1) 0 + k)
  let a := rotate a 30
  let c := c + (rotate d 5 + f e a b + words.getD (offset + 2) 0 + k)
  let e := rotate e 30
  let b := b + (rotate c 5 + f d e a + words.getD (offset + 3) 0 + k)
  let d := rotate d 30
  let a := a + (rotate b 5 + f c d e + words.getD (offset + 4) 0 + k)
  let c := rotate c 30
  ⟨a, b, c, d, e⟩

def firstRound (words : List UInt32) (hash : Registers) : Registers :=
  (List.range' 0 4).foldl (roundBody f1 0x5a827999 words) hash

def secondRound (words : List UInt32) (hash : Registers) : Registers :=
  (List.range' 4 4).foldl (roundBody f2 0x6ed9eba1 words) hash

def thirdRound (words : List UInt32) (hash : Registers) : Registers :=
  (List.range' 8 4).foldl (roundBody f3 0x8f1bbcdc words) hash

def fourthRound (words : List UInt32) (hash : Registers) : Registers :=
  (List.range' 12 4).foldl (roundBody f2 0xca62c1d6 words) hash

def processBlock (sha1 : SHA1) (data : Bytes) : SHA1 :=
  let words := words data
  let rounds :=
    fourthRound words (thirdRound words (secondRound words (firstRound words sha1.hash)))
  { sha1 with hash := sha1.hash.add rounds }

/-! ### `add` -/

def put (sha1 : SHA1) (byte : UInt8) : SHA1 :=
  { sha1 with
    buffer := sha1.buffer.write sha1.bufferSize [byte]
    bufferSize := sha1.bufferSize + 1 }

/-- The loop that fills the buffer up; what it leaves of the data. -/
def fillBuffer (sha1 : SHA1) : Bytes → SHA1 × Bytes
  | [] => (sha1, [])
  | byte :: rest =>
      if sha1.bufferSize < blockSize then (sha1.put byte).fillBuffer rest else (sha1, byte :: rest)

def flushBuffer (sha1 : SHA1) : SHA1 :=
  { (sha1.processBlock (sha1.buffer.read 0 blockSize)) with
    numBytes := sha1.numBytes + 64
    bufferSize := 0 }

/-- The loop over full blocks. -/
def fullBlocks (sha1 : SHA1) (data : Bytes) : SHA1 × Bytes :=
  if blockSize ≤ data.length then
    fullBlocks { (sha1.processBlock (data.take blockSize)) with numBytes := sha1.numBytes + 64 }
      (data.drop blockSize)
  else (sha1, data)
termination_by data.length
decreasing_by
  rw [List.length_drop]
  unfold blockSize at *
  omega

def add (sha1 : SHA1) (data : Bytes) : SHA1 :=
  let (sha1, data) := if 0 < sha1.bufferSize then sha1.fillBuffer data else (sha1, data)
  let sha1 := if sha1.bufferSize = blockSize then sha1.flushBuffer else sha1
  if data = [] then sha1
  else
    let (sha1, data) := sha1.fullBlocks data
    data.foldl put sha1

/-! ### `getHash` -/

/-- In bytes. -/
def paddedLength (bufferSize : Nat) : Nat :=
  let bits := bufferSize * 8 + 1
  let lower11Bits := bits &&& 511
  (if lower11Bits ≤ 448 then bits + (448 - lower11Bits) else bits + (512 + 448 - lower11Bits)) / 8

/-- The eight bytes that are stored through `addLength`. -/
def lengthBytes (msgBits : UInt64) : Bytes :=
  [(msgBits >>> 56).toUInt8, (msgBits >>> 48).toUInt8, (msgBits >>> 40).toUInt8,
    (msgBits >>> 32).toUInt8, (msgBits >>> 24).toUInt8, (msgBits >>> 16).toUInt8,
    (msgBits >>> 8).toUInt8, msgBits.toUInt8]

/-- `extra` is what its array is before anything is stored in it. -/
def processBuffer (sha1 : SHA1) (extra : Memory) : SHA1 :=
  let size := sha1.bufferSize
  let padded := paddedLength size
  let buffer := if size < blockSize then sha1.buffer.write size [128] else sha1.buffer
  let extra := if size < blockSize then extra else extra.write 0 [128]
  let buffer := buffer.write (size + 1) (List.replicate (blockSize - (size + 1)) 0)
  -- where the first of the two loops over `i` has ended
  let i := max (size + 1) blockSize
  let extra := extra.write (i - blockSize) (List.replicate (padded - i) 0)
  let length := lengthBytes (8 * (sha1.numBytes + UInt64.ofNat size))
  let buffer := if padded < blockSize then buffer.write padded length else buffer
  let extra := if padded < blockSize then extra else extra.write (padded - blockSize) length
  let first := ({ sha1 with buffer := buffer } : SHA1).processBlock (buffer.read 0 blockSize)
  if blockSize < padded then first.processBlock (extra.read 0 blockSize) else first

def wordBytes (word : UInt32) : Bytes :=
  [(word >>> 24).toUInt8, (word >>> 16).toUInt8, (word >>> 8).toUInt8, word.toUInt8]

/-- The hash is restored, and the buffer is not. -/
def getHash (sha1 : SHA1) (extra : Memory) : Bytes × SHA1 :=
  let last := sha1.processBuffer extra
  (wordBytes last.hash.a ++ wordBytes last.hash.b ++ wordBytes last.hash.c ++ wordBytes last.hash.d
    ++ wordBytes last.hash.e, { last with hash := sha1.hash })

/-- The `getHash` that returns a string. -/
def getHashText (sha1 : SHA1) (extra : Memory) : Bytes × SHA1 :=
  (Base64.toHex (sha1.getHash extra).1, (sha1.getHash extra).2)

/-- `operator()`. -/
def call (sha1 : SHA1) (data : Bytes) (extra : Memory) : Bytes × SHA1 :=
  (sha1.reset.add data).getHashText extra

/-! ### Runs -/

/-- A call of a public member. -/
inductive Op where
  | add (data : Bytes)
  | getHash (extra : Memory)
  | getHashText (extra : Memory)
  | call (data : Bytes) (extra : Memory)
  | reset

/-- What the calls return that return a hash. -/
def run (sha1 : SHA1) : List Op → List Bytes
  | [] => []
  | .add data :: ops => (sha1.add data).run ops
  | .getHash extra :: ops => (sha1.getHash extra).1 :: (sha1.getHash extra).2.run ops
  | .getHashText extra :: ops => (sha1.getHashText extra).1 :: (sha1.getHashText extra).2.run ops
  | .call data extra :: ops => (sha1.call data extra).1 :: (sha1.call data extra).2.run ops
  | .reset :: ops => sha1.reset.run ops

end SHA1

end TapSdk
