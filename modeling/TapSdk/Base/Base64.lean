import TapSdk.Library.Base64

/-!
# The signature of a request

`base/base64.cpp`, with `HashHmac` of `tracker/tracker_impl.cpp`. A digest is written in
hexadecimal, that as a string of the characters 0 and 1, and that six characters at a time. The
counters of the loops are of the type `int`: past its greatest value there is no result.
-/

namespace TapSdk.Base64

open Library

def intMax : Nat := 2147483647

def base64EncodeMap : Bytes :=
  ascii "ABCDEFGHIJKLMNOPQRSTUVWXYZabcdefghijklmnopqrstuvwxyz0123456789+/"

def binToDecInt (strBin : Bytes) : Int :=
  strBin.foldl (fun num char => num * 2 + ((char.toNat : Int) - 0x30)) 0

/-- The first loop of `BinToBase64`, up to a multiple of six characters. -/
def fillUp (binStr : Bytes) : Bytes :=
  if binStr.length % 6 ≠ 0 then fillUp (binStr ++ ascii "0") else binStr
termination_by (6 - binStr.length % 6) % 6
decreasing_by
  have hlength : (binStr ++ ascii "0").length = binStr.length + 1 := List.length_append
  rw [hlength]
  omega

/-- The second loop. -/
def encodeFrom (binStr : Bytes) (index : Nat) (base64Str : Bytes) : Option Bytes :=
  if index < binStr.length then
    let tmp := (binStr.drop index).take 6
    if index + 6 ≤ intMax then
      match base64EncodeMap[(binToDecInt tmp).toNat]? with
      | some char => encodeFrom binStr (index + 6) (base64Str ++ [char])
      | none => none
    else none
  else some base64Str
termination_by binStr.length - index

def binToBase64 (binStr : Bytes) : Option Bytes :=
  (encodeFrom (fillUp binStr) 0 []).map fun base64Str => base64Str ++ ascii "="

/-- The strings of the `switch` statements. -/
def fourBits : List Bytes :=
  [ascii "0000", ascii "0001", ascii "0010", ascii "0011", ascii "0100", ascii "0101",
    ascii "0110", ascii "0111", ascii "1000", ascii "1001", ascii "1010", ascii "1011",
    ascii "1100", ascii "1101", ascii "1110", ascii "1111"]

/-- What one character appends; other characters are skipped. -/
def digitBits (e : UInt8) : Bytes :=
  if 0x61 ≤ e ∧ e ≤ 0x66 then fourBits.getD (e.toNat - 0x61 + 10) []
  else if 0x30 ≤ e ∧ e ≤ 0x39 then fourBits.getD (e.toNat - 0x30) []
  else []

def hexToBinFrom (f : Nat) (binDight : Bytes) : Bytes → Option Bytes
  | [] => some binDight
  | e :: rest =>
      if f + 1 ≤ intMax then hexToBinFrom (f + 1) (binDight ++ digitBits e) rest else none

def hexToBin (hexDight : Bytes) : Option Bytes := hexToBinFrom 0 [] hexDight

/-- The hexadecimal digits of `SHA1::getHash`. -/
def dec2hex (nibble : Nat) : UInt8 := (ascii "0123456789abcdef").getD nibble 0

def toHex (bytes : Bytes) : Bytes :=
  bytes.flatMap fun byte => [dec2hex (byte.toNat / 16), dec2hex (byte.toNat % 16)]

def base64OfHex (hexDight : Bytes) : Option Bytes := do
  let binDight ← hexToBin hexDight
  binToBase64 binDight

/-- `HashHmac`, with the digest of the content under the key. -/
def hashHmac (hmac : Bytes → Bytes → Vector UInt8 20) (content key : Bytes) : Option Bytes :=
  base64OfHex (toHex (hmac content key).toList)

end TapSdk.Base64
