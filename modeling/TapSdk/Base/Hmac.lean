import TapSdk.Base.Sha1

/-!
# HMAC of the SDK

The template of `base/hmac.h` and `HashHmac` of `tracker/tracker_impl.cpp`. Each hasher is
constructed in memory of its own.
-/

namespace TapSdk

open Library

/-- What `hmac` needs of its parameter. -/
structure HashMethod (σ : Type) where
  blockSize : Nat
  new : Memory → σ
  add : σ → Bytes → σ
  getHash : σ → Memory → Bytes × σ
  getHashText : σ → Memory → Bytes × σ

namespace HashMethod

variable {σ : Type} (method : HashMethod σ)

/-- A loop over `usedKey`. -/
def xorKey (byte : UInt8) (usedKey : Memory) : Memory :=
  fun i => if i < method.blockSize then usedKey i ^^^ byte else usedKey i

def hmac (stack : Nat → Memory) (data key : Bytes) : Bytes :=
  let usedKey : Memory := fun _ => 0
  let usedKey :=
    if key.length ≤ method.blockSize then usedKey.write 0 key
    else
      let keyHasher := method.add (method.new (stack 0)) key
      usedKey.write 0 (method.getHash keyHasher (stack 1)).1
  let usedKey := method.xorKey 0x36 usedKey
  let insideHasher := method.new (stack 2)
  let insideHasher := method.add insideHasher (usedKey.read 0 method.blockSize)
  let insideHasher := method.add insideHasher data
  let inside := (method.getHash insideHasher (stack 3)).1
  let usedKey := method.xorKey (0x5C ^^^ 0x36) usedKey
  let finalHasher := method.new (stack 4)
  let finalHasher := method.add finalHasher (usedKey.read 0 method.blockSize)
  let finalHasher := method.add finalHasher inside
  (method.getHashText finalHasher (stack 5)).1

end HashMethod

namespace SHA1

def hashMethod : HashMethod SHA1 where
  blockSize := blockSize
  new := new
  add := add
  getHash := getHash
  getHashText := getHashText

end SHA1

/-- `HashHmac`. -/
def hashHmacSha1 (stack : Nat → Memory) (content key : Bytes) : Option Bytes :=
  Base64.base64OfHex (SHA1.hashMethod.hmac stack content key)

end TapSdk
