import TapSdk.Tracker.CacheName
import TapSdk.Tracker.Manager

/-!
# Which names the scan takes for caches

The scan looks for the first of the four characters of `.trc`, compares its position with a length
that wraps around, and reads what is before it with `stoull`. The names it accepts are more than
those the program writes: this module says which.
-/

namespace TapSdk.Tracker

open Library

/-- The name of a directory entry: a string, which holds less than 2^63 characters. -/
structure EntryName where
  chars : Str
  length_lt : chars.length < 2 ^ 63

/-- A name that `DiskCachePath` makes. -/
def Written (name : Str) : Prop :=
  ∃ hash index, index < maxCacheCount ∧ name = cacheName hash index

/-! ### Cutting a text at the first character of a set -/

def before (set text : Str) : Str := text.takeWhile (· ∉ set)

def fromFirst (set text : Str) : Str := text.dropWhile (· ∉ set)

theorem before_append_fromFirst (set text : Str) :
    before set text ++ fromFirst set text = text := List.takeWhile_append_dropWhile

theorem length_before_add (set text : Str) :
    (before set text).length + (fromFirst set text).length = text.length := by
  rw [← List.length_append, before_append_fromFirst]

theorem not_mem_of_mem_before {set text : Str} {c : UInt8} (h : c ∈ before set text) :
    c ∉ set := by
  simpa using List.mem_takeWhile_imp h

theorem findFirstOf_of_fromFirst_ne_nil {set text : Str} (h : fromFirst set text ≠ []) :
    findFirstOf set text = (before set text).length := by
  obtain ⟨c, rest, hrest⟩ := List.exists_cons_of_ne_nil h
  have hc : c ∈ set := by
    have hhead := List.head?_dropWhile_not (fun c : UInt8 => decide (c ∉ set)) text
    rw [show text.dropWhile (fun c => decide (c ∉ set)) = c :: rest from hrest] at hhead
    simpa using hhead
  conv_lhs => rw [← before_append_fromFirst set text, hrest]
  exact findFirstOf_append (fun d hd => not_mem_of_mem_before hd) hc

theorem findFirstOf_of_fromFirst_eq_nil {set text : Str} (h : fromFirst set text = []) :
    findFirstOf set text = npos := by
  have hall : ∀ c ∈ text, c ∉ set := by
    simpa [fromFirst, List.dropWhile_eq_nil_iff] using h
  have hnone : text.findIdx? (· ∈ set) = none := by
    rw [List.findIdx?_eq_none_iff]
    intro c hc
    simpa using hall c hc
  rw [findFirstOf, hnone]
  rfl

theorem before_of_fromFirst_eq_nil {set text : Str} (h : fromFirst set text = []) :
    before set text = text := by
  have htext := before_append_fromFirst set text
  rw [h, List.append_nil] at htext
  exact htext

/-- The part of a text that `substr` cuts off at the position found. -/
theorem take_findFirstOf {set text : Str} (h : text.length < 2 ^ 63) :
    text.take (findFirstOf set text) = before set text := by
  by_cases hnil : fromFirst set text = []
  · have hpos : text.length ≤ npos := by
      unfold npos
      omega
    rw [findFirstOf_of_fromFirst_eq_nil hnil, List.take_of_length_le hpos,
      before_of_fromFirst_eq_nil hnil]
  · rw [findFirstOf_of_fromFirst_ne_nil hnil]
    have htext := before_append_fromFirst set text
    generalize before set text = front at htext
    rw [← htext, List.take_left]

/-! ### What `stoull` reads -/

/-- White space, a sign or none, and digits for a value of 64 bits, whatever comes after them. -/
structure NumberText (text space sign digits rest : Str) : Prop where
  eq : text = space ++ (sign ++ (digits ++ rest))
  spaces : ∀ c ∈ space, isSpace c = true
  signs : sign = [] ∨ sign = ascii "-" ∨ sign = ascii "+"
  allDigits : ∀ c ∈ digits, isDigit c = true
  nonempty : digits ≠ []
  maximal : ∀ c ∈ rest.head?, isDigit c = false
  fits : Decimal.value digits < 2 ^ 64

def Numeric (text : Str) : Prop := ∃ space sign digits rest, NumberText text space sign digits rest

theorem takeWhile_isDigit_append {digits rest : Str}
    (hdigits : ∀ c ∈ digits, isDigit c = true) (hrest : ∀ c ∈ rest.head?, isDigit c = false) :
    (digits ++ rest).takeWhile isDigit = digits := by
  rw [List.takeWhile_append_of_pos hdigits]
  cases rest with
  | nil => simp
  | cons c rest => simp [hrest c rfl]

theorem signedDigits_append {sign digits rest : Str}
    (hsign : sign = [] ∨ sign = ascii "-" ∨ sign = ascii "+")
    (hdigits : ∀ c ∈ digits, isDigit c = true) (hne : digits ≠ [])
    (hrest : ∀ c ∈ rest.head?, isDigit c = false) :
    (signedDigits (sign ++ (digits ++ rest))).2 = digits := by
  have htake := takeWhile_isDigit_append hdigits hrest
  rcases hsign with rfl | rfl | rfl
  · obtain ⟨c, more, rfl⟩ := List.exists_cons_of_ne_nil hne
    have hc := hdigits c List.mem_cons_self
    rw [List.nil_append]
    unfold signedDigits
    split
    · rename_i heq
      exact absurd (List.cons.inj heq).1 (ne_of_isDigit hc rfl)
    · rename_i heq
      exact absurd (List.cons.inj heq).1 (ne_of_isDigit hc rfl)
    · exact htake
  · exact htake
  · exact htake

/-- The sign and the digits that are read, in front of the rest. -/
theorem signedDigits_split (text : Str) :
    ∃ sign rest, (sign = [] ∨ sign = ascii "-" ∨ sign = ascii "+")
      ∧ text = sign ++ ((signedDigits text).2 ++ rest)
      ∧ (∀ c ∈ (signedDigits text).2, isDigit c = true)
      ∧ ∀ c ∈ rest.head?, isDigit c = false := by
  have hsplit : ∀ digits : Str, digits = digits.takeWhile isDigit ++
      digits.dropWhile isDigit := fun _ => List.takeWhile_append_dropWhile.symm
  have htake : ∀ digits : Str, ∀ c ∈ digits.takeWhile isDigit, isDigit c = true :=
    fun _ _ hc => List.mem_takeWhile_imp hc
  have hdrop : ∀ digits : Str, ∀ c ∈ (digits.dropWhile isDigit).head?,
      isDigit c = false := by
    intro digits c hc
    have hhead := List.head?_dropWhile_not isDigit digits
    rw [Option.mem_def.mp hc] at hhead
    exact hhead
  unfold signedDigits
  split
  · rename_i rest
    exact ⟨ascii "-", _, Or.inr (Or.inl rfl), congrArg _ (hsplit rest), htake rest, hdrop rest⟩
  · rename_i rest
    exact ⟨ascii "+", _, Or.inr (Or.inr rfl), congrArg _ (hsplit rest), htake rest, hdrop rest⟩
  · exact ⟨[], _, Or.inl rfl, hsplit text, htake text, hdrop text⟩

/-- White space is dropped up to the number and no further. -/
theorem NumberText.dropWhile_isSpace {text space sign digits rest : Str}
    (h : NumberText text space sign digits rest) :
    text.dropWhile isSpace = sign ++ (digits ++ rest) := by
  rw [h.eq, List.dropWhile_append_of_pos h.spaces]
  rcases h.signs with rfl | rfl | rfl
  · obtain ⟨c, more, rfl⟩ := List.exists_cons_of_ne_nil h.nonempty
    have hc := isSpace_of_isDigit (h.allDigits c List.mem_cons_self)
    rw [List.nil_append, List.cons_append, List.dropWhile_cons, hc]
    rfl
  · rfl
  · rfl

theorem stoull_isSome_iff {text : Str} : (stoull text).isSome ↔ Numeric text := by
  unfold stoull
  constructor
  · intro h
    obtain ⟨sign, rest, hsign, heq, hdigits, hrest⟩ :=
      signedDigits_split (text.dropWhile isSpace)
    generalize hread : signedDigits (text.dropWhile isSpace) = read at h heq hdigits
    obtain ⟨negative, digits⟩ := read
    simp only at h heq hdigits
    split at h
    · cases h
    · rename_i hne
      split at h
      · cases h
      · rename_i hfits
        refine ⟨text.takeWhile isSpace, sign, digits, rest, ?_, ?_, hsign, hdigits, hne, hrest,
          by omega⟩
        · rw [← heq, List.takeWhile_append_dropWhile]
        · exact fun c hc => List.mem_takeWhile_imp hc
  · rintro ⟨space, sign, digits, rest, h⟩
    have hread := signedDigits_append h.signs h.allDigits h.nonempty h.maximal
    rw [← h.dropWhile_isSpace] at hread
    have hfits := h.fits
    generalize signedDigits (text.dropWhile isSpace) = read at hread
    obtain ⟨negative, found⟩ := read
    obtain rfl : found = digits := hread
    simp only [h.nonempty, if_false]
    rw [if_neg (by omega)]
    rfl

/-! ### The names that are accepted -/

def trcSet : Str := ascii ".trc"

/-- What stands before the first character of the set. -/
def stem (name : Str) : Str := before trcSet name

/-- From that character on there are four, whichever they are. A name of three characters without
any of the set passes as well: its length less four is the position that says there is none. -/
def TrcShaped (name : Str) : Prop :=
  (fromFirst trcSet name).length = 4 ∨ fromFirst trcSet name = [] ∧ name.length = 3

/-- The two numbers of a stem. Without an `@` the whole stem is read twice. -/
def NumberedStem (text : Str) : Prop :=
  if 0x40 ∈ text then Numeric (before (ascii "@") text)
    ∧ Numeric ((fromFirst (ascii "@") text).drop 1)
  else Numeric text

/-- The language of the scan. -/
def Accepted (name : Str) : Prop := TrcShaped name ∧ NumberedStem (stem name)

theorem isTrc_iff {name : Str} (h : name.length < 2 ^ 63) :
    findFirstOf trcSet name = (name.length + 2 ^ 64 - 4) % 2 ^ 64 ↔ TrcShaped name := by
  have hlength := length_before_add trcSet name
  by_cases hnil : fromFirst trcSet name = []
  · rw [findFirstOf_of_fromFirst_eq_nil hnil]
    rw [hnil, List.length_nil] at hlength
    simp only [TrcShaped, hnil, List.length_nil, true_and]
    unfold npos
    omega
  · have hpos := List.length_pos_iff.mpr hnil
    rw [findFirstOf_of_fromFirst_ne_nil hnil]
    simp only [TrcShaped, hnil, false_and, or_false]
    omega

theorem fromFirst_at_eq_nil_iff {text : Str} : fromFirst (ascii "@") text = [] ↔ 0x40 ∉ text := by
  simp only [fromFirst, List.dropWhile_eq_nil_iff, mem_at_iff, decide_not,
    Bool.not_eq_true', decide_eq_false_iff_not]
  constructor
  · exact fun h hmem => h 0x40 hmem rfl
  · rintro h c hc rfl
    exact h hc

/-- What the scan makes of a stem. -/
def readStem (filename : Str) : Option (UInt64 × Nat) :=
  let atIndex := findFirstOf (ascii "@") filename
  if atIndex = 0 then none
  else
    match stoull (filename.take atIndex), stoull (filename.drop ((atIndex + 1) % 2 ^ 64)) with
    | some hash, some index => some (UInt64.ofNat hash, index % 2 ^ 32)
    | _, _ => none

theorem scanName_of_trcShaped {name : Str} (h : name.length < 2 ^ 63)
    (htrc : TrcShaped name) : scanName name = readStem (stem name) := by
  have hindex := (isTrc_iff h).mpr htrc
  rw [stem, ← take_findFirstOf h]
  exact if_neg (not_not_intro hindex)

theorem scanName_of_not_trcShaped {name : Str} (h : name.length < 2 ^ 63)
    (htrc : ¬ TrcShaped name) : scanName name = none := by
  have hindex := (isTrc_iff h).not.mpr htrc
  exact if_pos hindex

theorem readStem_isSome_iff {text : Str} (h : text.length < 2 ^ 63) :
    (readStem text).isSome ↔ NumberedStem text := by
  have htake := @take_findFirstOf (ascii "@") text h
  by_cases hat : 0x40 ∈ text
  · have hne : fromFirst (ascii "@") text ≠ [] := fun hnil => fromFirst_at_eq_nil_iff.mp hnil hat
    have hindex := findFirstOf_of_fromFirst_ne_nil hne
    have hlength := length_before_add (ascii "@") text
    have hdrop : text.drop (((before (ascii "@") text).length + 1) % 2 ^ 64)
        = (fromFirst (ascii "@") text).drop 1 := by
      have htext := before_append_fromFirst (ascii "@") text
      generalize before (ascii "@") text = front at htext hlength
      rw [Nat.mod_eq_of_lt (by omega), ← List.drop_drop]
      conv_lhs => rw [← htext]
      rw [List.drop_left]
    rw [hindex] at htake
    simp only [readStem, hindex, htake, hdrop, NumberedStem, hat, if_true, ← stoull_isSome_iff]
    split
    · rename_i hzero
      have hnil := List.length_eq_zero_iff.mp hzero
      rw [hnil]
      simp [stoull, signedDigits]
    · cases stoull (before (ascii "@") text)
        <;> cases stoull ((fromFirst (ascii "@") text).drop 1) <;> simp
  · have hnil := fromFirst_at_eq_nil_iff.mpr hat
    have hindex := findFirstOf_of_fromFirst_eq_nil hnil
    have hall := before_of_fromFirst_eq_nil hnil
    rw [hindex] at htake
    simp only [readStem, hindex, htake, hall, NumberedStem, hat, if_false, ← stoull_isSome_iff]
    rw [if_neg (by decide), show (npos + 1) % 2 ^ 64 = 0 from rfl, List.drop_zero]
    cases stoull text <;> simp

/-- **The scan accepts the language.** -/
theorem scanName_isSome_iff {name : Str} (h : name.length < 2 ^ 63) :
    (scanName name).isSome ↔ Accepted name := by
  have hstem : (stem name).length < 2 ^ 63 := by
    have := length_before_add trcSet name
    unfold stem
    omega
  by_cases htrc : TrcShaped name
  · rw [scanName_of_trcShaped h htrc, readStem_isSome_iff hstem]
    simp only [Accepted, htrc, true_and]
  · rw [scanName_of_not_trcShaped h htrc]
    simp only [Accepted, htrc, false_and, Option.isSome_none, Bool.false_eq_true]

/-! ### What the scan should do -/

/-- Over the names of a directory, the scan finds the caches that were written, each at an index of
the id set, and no cache twice. -/
structure ScansRight (names : List EntryName) : Prop where
  exact : ∀ name ∈ names, ∀ hash index, scanName name.chars = some (hash, index)
    ↔ index < maxCacheCount ∧ name.chars = cacheName hash index
  inside : ∀ name ∈ names, ∀ hash index, scanName name.chars = some (hash, index) →
    index < maxCacheCount
  apart : ∀ name ∈ names, ∀ other ∈ names, ∀ pair, scanName name.chars = some pair →
    scanName other.chars = some pair → name.chars = other.chars

theorem scansRight_iff_written (names : List EntryName) :
    ScansRight names ↔ ∀ name ∈ names, Accepted name.chars → Written name.chars := by
  constructor
  · intro h name hname haccepted
    obtain ⟨⟨hash, index⟩, hscan⟩ :=
      Option.isSome_iff_exists.mp ((scanName_isSome_iff name.length_lt).mpr haccepted)
    exact ⟨hash, index, (h.exact name hname hash index).mp hscan⟩
  · intro h
    have hexact : ∀ name ∈ names, ∀ hash index, scanName name.chars = some (hash, index)
        ↔ index < maxCacheCount ∧ name.chars = cacheName hash index := by
      intro name hname hash index
      constructor
      · intro hscan
        have haccepted := (scanName_isSome_iff name.length_lt).mp (by rw [hscan]; rfl)
        obtain ⟨hash', index', hindex, heq⟩ := h name hname haccepted
        rw [heq, scanName_cacheName (Nat.lt_trans hindex (by decide))] at hscan
        obtain ⟨rfl, rfl⟩ := Prod.mk.inj (Option.some.inj hscan)
        exact ⟨hindex, heq⟩
      · rintro ⟨hindex, heq⟩
        rw [heq, scanName_cacheName (Nat.lt_trans hindex (by decide))]
    refine ⟨hexact, fun name hname hash index hscan => ((hexact name hname hash index).mp hscan).1,
      ?_⟩
    rintro name hname other hother ⟨hash, index⟩ hscan hscan'
    rw [((hexact name hname hash index).mp hscan).2, ((hexact other hother hash index).mp hscan').2]

def zeroPadded : EntryName := ⟨ascii "007@1.trc", by decide⟩

def highIndex : EntryName := ⟨ascii "12@99.trc", by decide⟩

/-- **Names the program does not write.** A number with zeros in front is the cache of the number;
an index may lie outside the id set; and neither the `@` nor the ending has to be there. -/
theorem scan_reads_other_names :
    scanName zeroPadded.chars = some (7, 1) ∧ scanName (cacheName 7 1) = some (7, 1)
      ∧ zeroPadded.chars ≠ cacheName 7 1 ∧ scanName highIndex.chars = some (12, 99)
      ∧ scanName (ascii "5.trc") = some (5, 5) ∧ scanName (ascii "1@2") = some (1, 2)
      ∧ ¬ ScansRight [zeroPadded] ∧ ¬ ScansRight [highIndex] := by
  have hpadded : scanName zeroPadded.chars = some (7, 1) := by decide
  have hname : zeroPadded.chars ≠ cacheName 7 1 := by decide
  have hhigh : scanName highIndex.chars = some (12, 99) := by decide
  refine ⟨hpadded, by decide, hname, hhigh, by decide, by decide, fun h => ?_, fun h => ?_⟩
  · exact hname ((h.exact zeroPadded List.mem_cons_self 7 1).mp hpadded).2
  · exact absurd (h.inside highIndex List.mem_cons_self 12 99 hhigh) (by decide)

end TapSdk.Tracker
