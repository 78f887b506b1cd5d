import TapSdk.Library.Memory

/-!
# CityHash64

`base/cityhash.cpp` as it stands, on a list of bytes in place of a pointer and a length. The cache
uses it to tell a damaged record from a good one and to name a tracker configuration; nothing that
is proved below depends on which function it is.
-/

namespace TapSdk

open Library

namespace CityHash

def k0 : UInt64 := 0xc3a5c85c97cb3127

def k1 : UInt64 := 0xb492b66fbe98f273

def k2 : UInt64 := 0x9ae16a3b2f90404f

def fetch64 (s : List UInt8) (offset : Nat) : UInt64 := fromLe64 ((s.drop offset).take 8)

def fetch32 (s : List UInt8) (offset : Nat) : UInt64 :=
  (fromLe32 ((s.drop offset).take 4)).toUInt64

def byteAt (s : List UInt8) (offset : Nat) : UInt64 := ((s[offset]?).getD 0).toUInt64

def rotate (val shift : UInt64) : UInt64 :=
  if shift = 0 then val else (val >>> shift) ||| (val <<< (64 - shift))

def shiftMix (val : UInt64) : UInt64 := val ^^^ (val >>> 47)

/-- Reverses the eight bytes of a word. -/
def swap64 (data : UInt64) : UInt64 := fromLe64 (le64 data).reverse

def hashLen16Mul (u v mul : UInt64) : UInt64 :=
  let a := (u ^^^ v) * mul
  let a := a ^^^ (a >>> 47)
  let b := (v ^^^ a) * mul
  let b := b ^^^ (b >>> 47)
  b * mul

/-- `HashLen16(u, v)`, which is `Hash128to64` with its own multiplier. -/
def hashLen16 (u v : UInt64) : UInt64 := hashLen16Mul u v 0x9ddfea08eb382d69

def hashLen0to16 (s : List UInt8) : UInt64 :=
  let len := s.length
  let mul := k2 + UInt64.ofNat len * 2
  if 8 ≤ len then
    let a := fetch64 s 0 + k2
    let b := fetch64 s (len - 8)
    let c := rotate b 37 * mul + a
    let d := (rotate a 25 + b) * mul
    hashLen16Mul c d mul
  else if 4 ≤ len then
    hashLen16Mul (UInt64.ofNat len + (fetch32 s 0 <<< 3)) (fetch32 s (len - 4)) mul
  else if 0 < len then
    let y := byteAt s 0 + (byteAt s (len >>> 1) <<< 8)
    let z := UInt64.ofNat len + (byteAt s (len - 1) <<< 2)
    shiftMix ((y * k2) ^^^ (z * k0)) * k2
  else k2

def hashLen17to32 (s : List UInt8) : UInt64 :=
  let len := s.length
  let mul := k2 + UInt64.ofNat len * 2
  let a := fetch64 s 0 * k1
  let b := fetch64 s 8
  let c := fetch64 s (len - 8) * mul
  let d := fetch64 s (len - 16) * k2
  hashLen16Mul (rotate (a + b) 43 + rotate c 30 + d) (a + rotate (b + k2) 18 + c) mul

def weakHashLen32WithSeeds (s : List UInt8) (offset : Nat) (a b : UInt64) : UInt64 × UInt64 :=
  let w := fetch64 s offset
  let x := fetch64 s (offset + 8)
  let y := fetch64 s (offset + 16)
  let z := fetch64 s (offset + 24)
  let a := a + w
  let b := rotate (b + a + z) 21
  let c := a
  let a := a + x
  let a := a + y
  let b := b + rotate a 44
  (a + z, b + c)

def hashLen33to64 (s : List UInt8) : UInt64 :=
  let len := s.length
  let mul := k2 + UInt64.ofNat len * 2
  let a := fetch64 s 0 * k2
  let b := fetch64 s 8
  let c := fetch64 s (len - 24)
  let d := fetch64 s (len - 32)
  let e := fetch64 s 16 * k2
  let f := fetch64 s 24 * 9
  let g := fetch64 s (len - 8)
  let h := fetch64 s (len - 16) * mul
  let u := rotate (a + g) 43 + (rotate b 30 + c) * 9
  let v := ((a + g) ^^^ d) + f + 1
  let w := swap64 ((u + v) * mul) + h
  let x := rotate (e + f) 42 + c
  let y := (swap64 ((v + w) * mul) + g) * mul
  let z := e + f + c
  let a := swap64 ((x + z) * mul + y) + b
  let b := shiftMix ((z + a) * mul + d + h) * mul
  b + x

structure State where
  x : UInt64
  y : UInt64
  z : UInt64
  v : UInt64 × UInt64
  w : UInt64 × UInt64

def State.chunk (state : State) (s : List UInt8) (offset : Nat) : State :=
  let x := rotate (state.x + state.y + state.v.1 + fetch64 s (offset + 8)) 37 * k1
  let y := rotate (state.y + state.v.2 + fetch64 s (offset + 48)) 42 * k1
  let x := x ^^^ state.w.2
  let y := y + state.v.1 + fetch64 s (offset + 40)
  let z := rotate (state.z + state.w.1) 33 * k1
  let v := weakHashLen32WithSeeds s offset (state.v.2 * k1) (x + state.w.1)
  let w := weakHashLen32WithSeeds s (offset + 32) (z + state.w.2) (y + fetch64 s (offset + 16))
  { x := z, y := y, z := x, v := v, w := w }

def chunks (s : List UInt8) : Nat → Nat → State → State
  | 0, _, state => state
  | count + 1, offset, state => chunks s count (offset + 64) (state.chunk s offset)

def hashOver64 (s : List UInt8) : UInt64 :=
  let len := s.length
  let x := fetch64 s (len - 40)
  let y := fetch64 s (len - 16) + fetch64 s (len - 56)
  let z := hashLen16 (fetch64 s (len - 48) + UInt64.ofNat len) (fetch64 s (len - 24))
  let v := weakHashLen32WithSeeds s (len - 64) (UInt64.ofNat len) z
  let w := weakHashLen32WithSeeds s (len - 32) (y + k1) x
  let x := x * k1 + fetch64 s 0
  -- the source lowers `len` to a multiple of 64 and loops until it is zero
  let final := chunks s ((len - 1) / 64) 0 { x := x, y := y, z := z, v := v, w := w }
  hashLen16 (hashLen16 final.v.1 final.w.1 + shiftMix final.y * k1 + final.z)
    (hashLen16 final.v.2 final.w.2 + final.x)

end CityHash

open CityHash in
/-- The empty string hashes to zero: this copy of CityHash returns early on it. -/
def cityHash64 (s : List UInt8) : UInt64 :=
  if s.length = 0 then 0
  else if s.length ≤ 16 then hashLen0to16 s
  else if s.length ≤ 32 then hashLen17to32 s
  else if s.length ≤ 64 then hashLen33to64 s
  else hashOver64 s

end TapSdk
