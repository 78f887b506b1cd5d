import Mathlib.Data.List.Basic
import TapSdk.Library.Json

/-!
# Base64

The encoding of RFC 4648 with padding: three bytes are four sextets, and a last group of one or two
bytes is filled up with zero bits to whole sextets and with padding to four characters.
-/

namespace TapSdk.Library.Base64

def alphabet : Bytes := ascii "ABCDEFGHIJKLMNOPQRSTUVWXYZabcdefghijklmnopqrstuvwxyz0123456789+/"

def symbol (sextet : Nat) : UInt8 := alphabet.getD sextet 0

def pad : UInt8 := 0x3D

def encode : Bytes → Bytes
  | first :: second :: third :: rest =>
      symbol (first.toNat / 4) :: symbol (first.toNat % 4 * 16 + second.toNat / 16)
        :: symbol (second.toNat % 16 * 4 + third.toNat / 64) :: symbol (third.toNat % 64)
        :: encode rest
  | [first, second] =>
      [symbol (first.toNat / 4), symbol (first.toNat % 4 * 16 + second.toNat / 16),
        symbol (second.toNat % 16 * 4), pad]
  | [first] => [symbol (first.toNat / 4), symbol (first.toNat % 4 * 16), pad, pad]
  | [] => []

/-! ### Sextets and padding -/

def sextets : Bytes → List Nat
  | first :: second :: third :: rest =>
      (first.toNat / 4) :: (first.toNat % 4 * 16 + second.toNat / 16)
        :: (second.toNat % 16 * 4 + third.toNat / 64) :: (third.toNat % 64) :: sextets rest
  | [first, second] =>
      [first.toNat / 4, first.toNat % 4 * 16 + second.toNat / 16, second.toNat % 16 * 4]
  | [first] => [first.toNat / 4, first.toNat % 4 * 16]
  | [] => []

/-- As many characters of padding as a last group of this many bytes leaves. -/
def padding (length : Nat) : Bytes := List.replicate ((3 - length % 3) % 3) pad

theorem padding_add_three (length : Nat) : padding (length + 1 + 1 + 1) = padding length := by
  unfold padding
  rw [show (length + 1 + 1 + 1) % 3 = length % 3 by omega]

theorem encode_eq (bytes : Bytes) :
    encode bytes = (sextets bytes).map symbol ++ padding bytes.length := by
  fun_induction encode bytes with
  | case1 first second third rest ih =>
      rw [ih, sextets]
      simp only [List.map_cons, List.cons_append, List.length_cons, padding_add_three]
  | case2 first second => rfl
  | case3 first => rfl
  | case4 => rfl

theorem sextets_lt {bytes : Bytes} : ∀ sextet ∈ sextets bytes, sextet < 64 := by
  fun_induction sextets bytes with
  | case1 first second third rest ih =>
      have hfirst := first.toNat_lt
      have hsecond := second.toNat_lt
      have hthird := third.toNat_lt
      simp only [List.forall_mem_cons]
      exact ⟨by omega, by omega, by omega, by omega, ih⟩
  | case2 first second =>
      have hfirst := first.toNat_lt
      have hsecond := second.toNat_lt
      simp only [List.forall_mem_cons]
      exact ⟨by omega, by omega, by omega, fun _ h => absurd h List.not_mem_nil⟩
  | case3 first =>
      have hfirst := first.toNat_lt
      simp only [List.forall_mem_cons]
      exact ⟨by omega, by omega, fun _ h => absurd h List.not_mem_nil⟩
  | case4 => exact fun _ h => absurd h List.not_mem_nil

/-- One character of padding is what a last group of two bytes has. -/
theorem padding_eq_singleton_iff (length : Nat) : padding length = [pad] ↔ length % 3 = 2 := by
  unfold padding
  have hmod : length % 3 = 0 ∨ length % 3 = 1 ∨ length % 3 = 2 := by omega
  rcases hmod with h | h | h <;> rw [h] <;> decide

example : encode (ascii "foob") = ascii "Zm9vYg==" ∧ encode (ascii "fooba") = ascii "Zm9vYmE=" := by
  decide

end TapSdk.Library.Base64
