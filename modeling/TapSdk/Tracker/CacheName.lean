import TapSdk.Library.Decimal
import TapSdk.Tracker.Message
import Mathlib.Algebra.Group.Nat.Defs
import Mathlib.Data.List.TakeWhile

/-!
# The names of cache files

`DiskCachePath` formats a hash and an index into a file name; the scan of the directory in
`SyncLoadTrackersCache` takes names apart again, with the string functions of the standard library.
Positions are 64 bits wide, and `npos` is the largest of them.
-/

namespace TapSdk.Tracker

open Library

/-- `DiskCachePath`, without the directory, which is the same for all caches. -/
def cacheName (hash : UInt64) (index : Nat) : Str :=
  Json.digits hash.toNat ++ 0x40 :: (Json.digits index ++ ascii ".trc")

def npos : Nat := 2 ^ 64 - 1

/-- `find_first_of`: the first position that holds any character of `set`. -/
def findFirstOf (set text : Str) : Nat := (text.findIdx? (· ∈ set)).getD npos

def isSpace (byte : UInt8) : Bool := byte ∈ [0x20, 0x09, 0x0A, 0x0B, 0x0C, 0x0D]

/-- Whether there is a minus sign, and the digits after the sign or without one. -/
def signedDigits : Str → Bool × Str
  | 0x2D :: rest => (true, rest.takeWhile isDigit)
  | 0x2B :: rest => (false, rest.takeWhile isDigit)
  | text => (false, text.takeWhile isDigit)

/-- `std::stoull`. Where `long` has 64 bits, `std::stoul` is the same. -/
def stoull (text : Str) : Option Nat :=
  let (negative, digits) := signedDigits (text.dropWhile isSpace)
  if digits = [] then none
  else
    let value := Decimal.value digits
    if value ≥ 2 ^ 64 then none
    else some (if negative then (2 ^ 64 - value) % 2 ^ 64 else value)

/-- The cache a directory entry is taken for. -/
def scanName (name : Str) : Option (UInt64 × Nat) :=
  let trcIndex := findFirstOf (ascii ".trc") name
  if trcIndex ≠ (name.length + 2 ^ 64 - 4) % 2 ^ 64 then none
  else
    let filename := name.take trcIndex
    let atIndex := findFirstOf (ascii "@") filename
    if atIndex = 0 then none
    else
      match stoull (filename.take atIndex), stoull (filename.drop ((atIndex + 1) % 2 ^ 64)) with
      | some hash, some index => some (UInt64.ofNat hash, index % 2 ^ 32)
      | _, _ => none

/-! ### What the program writes, it reads -/

theorem findFirstOf_append {set front rest : Str} {byte : UInt8}
    (hfront : ∀ other ∈ front, other ∉ set) (hbyte : byte ∈ set) :
    findFirstOf set (front ++ byte :: rest) = front.length := by
  have hnone : front.findIdx? (· ∈ set) = none := by
    rw [List.findIdx?_eq_none_iff]
    intro other hother
    simpa using hfront other hother
  have hsome : (byte :: rest).findIdx? (· ∈ set) = some 0 := by
    rw [List.findIdx?_cons]
    simp [hbyte]
  rw [findFirstOf, List.findIdx?_append, hnone, hsome]
  simp

theorem ne_of_isDigit {byte other : UInt8} (h : isDigit byte = true)
    (hother : isDigit other = false) :
    byte ≠ other := by
  rintro rfl
  rw [h] at hother
  cases hother

theorem isSpace_of_isDigit {byte : UInt8} (h : isDigit byte = true) : isSpace byte = false := by
  simp only [isSpace, List.mem_cons, List.not_mem_nil, or_false, decide_eq_false_iff_not, not_or]
  refine ⟨?_, ?_, ?_, ?_, ?_, ?_⟩ <;> exact ne_of_isDigit h rfl

theorem stoull_digits {number : Nat} (h : number < 2 ^ 64) :
    stoull (Json.digits number) = some number := by
  have hdigits : ∀ byte ∈ Json.digits number, isDigit byte = true :=
    fun byte hbyte => Decimal.isDigit_of_mem_digits hbyte
  have hvalue := Decimal.value_digits number
  have hne := Decimal.digits_ne_nil number
  generalize Json.digits number = text at hdigits hvalue hne
  have hspace : text.dropWhile isSpace = text := by
    cases text with
    | nil => rfl
    | cons byte rest =>
        have hbyte := hdigits byte List.mem_cons_self
        rw [List.dropWhile_cons, isSpace_of_isDigit hbyte]
        rfl
  have hsigned : signedDigits text = (false, text) := by
    have hall : text.takeWhile isDigit = text := List.takeWhile_eq_self_iff.mpr hdigits
    cases text with
    | nil => rfl
    | cons byte rest =>
        have hbyte := hdigits byte List.mem_cons_self
        have hminus : byte ≠ 0x2D := ne_of_isDigit hbyte rfl
        have hplus : byte ≠ 0x2B := ne_of_isDigit hbyte rfl
        unfold signedDigits
        split
        · rename_i heq
          exact absurd (List.cons.inj heq).1 hminus
        · rename_i heq
          exact absurd (List.cons.inj heq).1 hplus
        · rw [hall]
  simp only [stoull, hspace, hsigned, hne, if_false, hvalue]
  rw [if_neg (by omega)]
  rfl

theorem mem_at_iff {byte : UInt8} : byte ∈ ascii "@" ↔ byte = 0x40 := List.mem_singleton

theorem scanName_append {front back : Str} (hfront : ∀ byte ∈ front, isDigit byte = true)
    (hback : ∀ byte ∈ back, isDigit byte = true) (hne : front ≠ [])
    (hlength : front.length + back.length < 2 ^ 32) :
    scanName (front ++ 0x40 :: (back ++ ascii ".trc"))
      = match stoull front, stoull back with
        | some hash, some index => some (UInt64.ofNat hash, index % 2 ^ 32)
        | _, _ => none := by
  have hat : ∀ byte ∈ front, byte ∉ ascii "@" :=
    fun byte hbyte => mem_at_iff.not.mpr (ne_of_isDigit (hfront byte hbyte) rfl)
  have htrc : ∀ byte ∈ front ++ 0x40 :: back, byte ∉ ascii ".trc" := by
    intro byte hbyte
    have hcases : isDigit byte = true ∨ byte = 0x40 := by
      rcases List.mem_append.mp hbyte with hbyte | hbyte
      · exact Or.inl (hfront byte hbyte)
      · rcases List.mem_cons.mp hbyte with rfl | hbyte
        · exact Or.inr rfl
        · exact Or.inl (hback byte hbyte)
    rcases hcases with hdigit | rfl
    · show byte ∉ [0x2E, 0x74, 0x72, 0x63]
      simp only [List.mem_cons, List.not_mem_nil, or_false, not_or]
      exact ⟨ne_of_isDigit hdigit rfl, ne_of_isDigit hdigit rfl, ne_of_isDigit hdigit rfl,
        ne_of_isDigit hdigit rfl⟩
    · decide
  have hname : front ++ 0x40 :: (back ++ ascii ".trc")
      = (front ++ 0x40 :: back) ++ 0x2E :: ascii "trc" := by
    rw [show ascii ".trc" = 0x2E :: ascii "trc" from rfl]
    simp
  have hfirst := @findFirstOf_append _ _ (ascii "trc") 0x2E htrc (by decide)
  have hsecond := @findFirstOf_append _ _ back 0x40 hat (by decide)
  have hpos := List.length_pos_iff.mpr hne
  have hsize : (front ++ 0x40 :: back).length = front.length + back.length + 1 := by
    simp only [List.length_append, List.length_cons]
    omega
  rw [hname]
  simp only [scanName, hfirst, List.take_left', hsecond]
  rw [if_neg, if_neg (by omega), Nat.mod_eq_of_lt (by omega), List.drop_append,
    List.drop_eq_nil_of_le (by omega)]
  · simp
  · have hending : (ascii "trc").length = 3 := rfl
    simp only [List.length_append, hsize, List.length_cons, hending, not_not]
    omega

theorem length_digits_le {number count : Nat} (hpos : 0 < count) (h : number < 10 ^ count) :
    (Json.digits number).length ≤ count := by
  rw [Json.digits, List.length_map]
  exact (Nat.length_toDigits_le_iff (by decide) hpos).mpr h

/-- **The scan finds the cache a name was made for.** -/
theorem scanName_cacheName {hash : UInt64} {index : Nat} (h : index < 2 ^ 32) :
    scanName (cacheName hash index) = some (hash, index) := by
  have hhash := @length_digits_le _ 20 (by decide) (Nat.lt_trans hash.toNat_lt (by decide))
  have hindex := @length_digits_le _ 10 (by decide) (Nat.lt_trans h (by decide))
  rw [cacheName, scanName_append (fun _ => Decimal.isDigit_of_mem_digits)
    (fun _ => Decimal.isDigit_of_mem_digits) (Decimal.digits_ne_nil _) (by omega),
    stoull_digits hash.toNat_lt, stoull_digits (Nat.lt_trans h (by decide))]
  simp only [UInt64.ofNat_toNat, Nat.mod_eq_of_lt h]

theorem cacheName_inj {hash hash' : UInt64} {index index' : Nat} (h : index < 2 ^ 32)
    (h' : index' < 2 ^ 32) (heq : cacheName hash index = cacheName hash' index') :
    hash = hash' ∧ index = index' := by
  have hscan := @scanName_cacheName hash index h
  rw [heq, scanName_cacheName h'] at hscan
  exact Prod.mk.inj (Option.some.inj hscan.symm)

end TapSdk.Tracker
