import TapSdk.Library.Json

/-!
# Bytes and decimal numbers

What holds of every byte, and the numbers that `Json.digits` writes, read back.
-/

namespace TapSdk.Library

/-- A check of every byte. -/
theorem forall_byte {p : UInt8 → Bool} (h : ∀ number < 256, p (UInt8.ofNat number) = true)
    (byte : UInt8) :
    p byte = true := by
  have hbyte := h byte.toNat byte.toNat_lt
  rwa [UInt8.ofNat_toNat] at hbyte

def isDigit (byte : UInt8) : Bool := 0x30 ≤ byte && byte ≤ 0x39

namespace Decimal

def value (text : Bytes) : Nat := text.foldl (fun number byte => 10 * number + (byte.toNat - 48)) 0

/-- One digit or more, and nothing else. -/
def read (text : Bytes) : Option Nat :=
  if text ≠ [] ∧ text.all isDigit then some (value text) else none

theorem digits_ne_nil (number : Nat) : Json.digits number ≠ [] := by
  intro h
  exact Nat.toDigits_ne_nil (List.map_eq_nil_iff.mp h)

theorem toNat_digit {number : Nat} {char : Char} (h : char ∈ Nat.toDigits 10 number) :
    48 ≤ char.toNat ∧ char.toNat ≤ 57 ∧ char.toNat.toUInt8.toNat = char.toNat := by
  have hdigit := Nat.isDigit_of_mem_toDigits (by decide) (by decide) h
  have hbounds : 48 ≤ char.toNat ∧ char.toNat ≤ 57 := by
    simpa [Char.isDigit, UInt32.le_iff_toNat_le] using hdigit
  have hbyte : char.toNat.toUInt8.toNat = char.toNat % 256 := rfl
  rw [hbyte]
  omega

theorem isDigit_of_mem_digits {number : Nat} {byte : UInt8} (h : byte ∈ Json.digits number) :
    isDigit byte = true := by
  obtain ⟨char, hchar, rfl⟩ := List.mem_map.mp h
  obtain ⟨hlow, hhigh, hbyte⟩ := toNat_digit hchar
  simp only [isDigit, Bool.and_eq_true, decide_eq_true_eq, UInt8.le_iff_toNat_le, hbyte]
  exact ⟨hlow, hhigh⟩

theorem value_digits (number : Nat) : value (Json.digits number) = number := by
  have hchars := Nat.ofDigitChars_ten_toDigits (n := number)
  rw [Nat.ofDigitChars_eq_foldl] at hchars
  rw [value, Json.digits, List.foldl_map]
  refine Eq.trans (List.foldl_ext _ _ _ fun read char hchar => ?_) hchars
  obtain ⟨-, -, hbyte⟩ := toNat_digit hchar
  rw [hbyte]
  rfl

theorem read_digits (number : Nat) : read (Json.digits number) = some number := by
  have hall : (Json.digits number).all isDigit = true :=
    List.all_eq_true.mpr fun byte hbyte => isDigit_of_mem_digits hbyte
  rw [read, if_pos ⟨digits_ne_nil number, hall⟩, value_digits]

end Decimal

end TapSdk.Library
