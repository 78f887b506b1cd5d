/-!
# HMAC

The authentication code of RFC 2104, for a hash that works in blocks of 64 bytes.
-/

namespace TapSdk.Library.Hmac

def blockSize : Nat := 64

def pad (byte : UInt8) (key : List UInt8) : List UInt8 := key.map (· ^^^ byte)

/-- A key of one block: a long one is hashed, a short one is filled up with zeros. -/
def fullKey (hash : List UInt8 → List UInt8) (key : List UInt8) : List UInt8 :=
  let used := if key.length ≤ blockSize then key else hash key
  used ++ List.replicate (blockSize - used.length) 0

def hmac (hash : List UInt8 → List UInt8) (data key : List UInt8) : List UInt8 :=
  let full := fullKey hash key
  hash (pad 0x5c full ++ hash (pad 0x36 full ++ data))

end TapSdk.Library.Hmac
