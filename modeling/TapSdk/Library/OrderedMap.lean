import Mathlib.Order.Lattice
import Mathlib.Data.List.Basic

/-!
# Maps iterated in key order

An association list kept strictly ascending in its keys: a lookup sees at most one entry for a key,
and walking the entries is walking the keys in order. `emplace` leaves an existing entry alone.
-/

namespace TapSdk.Library

variable {κ ν : Type} [LinearOrder κ]

structure OrderedMap (κ ν : Type) [LinearOrder κ] where
  entries : List (κ × ν)
  ascending : entries.Pairwise fun left right => left.1 < right.1

namespace OrderedMap

def empty : OrderedMap κ ν := ⟨[], List.Pairwise.nil⟩

instance : Inhabited (OrderedMap κ ν) := ⟨empty⟩

def keys (map : OrderedMap κ ν) : List κ := map.entries.map Prod.fst

def lookup (key : κ) : List (κ × ν) → Option ν
  | [] => none
  | entry :: rest => if entry.1 = key then some entry.2 else lookup key rest

def find (map : OrderedMap κ ν) (key : κ) : Option ν := lookup key map.entries

def insertEntry (key : κ) (value : ν) : List (κ × ν) → List (κ × ν)
  | [] => [(key, value)]
  | entry :: rest =>
      if key < entry.1 then (key, value) :: entry :: rest
      else if entry.1 = key then entry :: rest
      else entry :: insertEntry key value rest

variable {key key' : κ} {value : ν} {entries : List (κ × ν)} {map : OrderedMap κ ν}

theorem mem_insertEntry {entry : κ × ν} (h : entry ∈ insertEntry key value entries) :
    entry = (key, value) ∨ entry ∈ entries := by
  induction entries with
  | nil => exact Or.inl (List.mem_singleton.mp h)
  | cons head rest ih =>
      unfold insertEntry at h
      split at h
      · exact List.mem_cons.mp h
      · split at h
        · exact Or.inr h
        · rcases List.mem_cons.mp h with heq | hmem
          · exact Or.inr (heq ▸ List.mem_cons_self)
          · exact (ih hmem).imp_right (List.mem_cons_of_mem _)

theorem mem_insertEntry_of_mem {entry : κ × ν} (h : entry ∈ entries) (key : κ) (value : ν) :
    entry ∈ insertEntry key value entries := by
  induction entries with
  | nil => cases h
  | cons head rest ih =>
      unfold insertEntry
      split
      · exact List.mem_cons_of_mem _ h
      · split
        · exact h
        · rcases List.mem_cons.mp h with rfl | hmem
          · exact List.mem_cons_self
          · exact List.mem_cons_of_mem _ (ih hmem)

theorem ascending_insertEntry (h : entries.Pairwise fun left right => left.1 < right.1) :
    (insertEntry key value entries).Pairwise fun left right => left.1 < right.1 := by
  induction entries with
  | nil => exact List.pairwise_singleton _ _
  | cons head rest ih =>
      obtain ⟨hhead, hrest⟩ := List.pairwise_cons.mp h
      unfold insertEntry
      split
      · rename_i hlt
        refine List.pairwise_cons.mpr ⟨?_, h⟩
        intro entry hmem
        rcases List.mem_cons.mp hmem with rfl | hmem
        · exact hlt
        · exact lt_trans hlt (hhead entry hmem)
      · split
        · exact h
        · rename_i hge hne
          refine List.pairwise_cons.mpr ⟨?_, ih hrest⟩
          intro entry hmem
          rcases mem_insertEntry hmem with rfl | hmem
          · exact lt_of_le_of_ne (not_lt.mp hge) hne
          · exact hhead entry hmem

/-- Adds the entry unless the key is taken. -/
def emplace (map : OrderedMap κ ν) (key : κ) (value : ν) : OrderedMap κ ν :=
  ⟨insertEntry key value map.entries, ascending_insertEntry map.ascending⟩

def erase (map : OrderedMap κ ν) (key : κ) : OrderedMap κ ν :=
  ⟨map.entries.filter fun entry => entry.1 ≠ key, map.ascending.filter _⟩

/-- Changes the value under a key that is there. -/
def modify (map : OrderedMap κ ν) (key : κ) (value : ν) : OrderedMap κ ν :=
  ⟨map.entries.map fun entry => if entry.1 = key then (key, value) else entry, by
    rw [List.pairwise_map]
    refine map.ascending.imp ?_
    intro left right hlt
    by_cases hleft : left.1 = key <;> by_cases hright : right.1 = key <;> simp_all⟩

/-! ### What a lookup sees -/

theorem lookup_eq_none_iff : lookup key entries = none ↔ ∀ entry ∈ entries, entry.1 ≠ key := by
  induction entries with
  | nil => simp [lookup]
  | cons head rest ih =>
      unfold lookup
      split <;> simp_all

theorem lookup_insertEntry_self (h : lookup key entries = none) :
    lookup key (insertEntry key value entries) = some value := by
  induction entries with
  | nil => simp [insertEntry, lookup]
  | cons head rest ih =>
      unfold lookup at h
      unfold insertEntry
      split
      · simp [lookup]
      · split at h
        · cases h
        · rename_i hge hne
          rw [if_neg hne, lookup, if_neg hne]
          exact ih h

theorem lookup_insertEntry_of_ne (h : key' ≠ key) :
    lookup key' (insertEntry key value entries) = lookup key' entries := by
  induction entries with
  | nil => simp [insertEntry, lookup, h.symm]
  | cons head rest ih =>
      unfold insertEntry
      split
      · rw [lookup, if_neg h.symm]
      · split
        · rfl
        · simp only [lookup, ih]

@[simp]
theorem find_empty : (empty : OrderedMap κ ν).find key = none := rfl

theorem find_emplace_self (h : map.find key = none) :
    (map.emplace key value).find key = some value := lookup_insertEntry_self h

theorem find_emplace_of_ne (h : key' ≠ key) :
    (map.emplace key value).find key' = map.find key' := lookup_insertEntry_of_ne h

@[simp]
theorem find_erase_self : (map.erase key).find key = none := by
  simp [find, erase, lookup_eq_none_iff]

theorem find_erase_of_ne (h : key' ≠ key) : (map.erase key).find key' = map.find key' := by
  obtain ⟨entries, hascending⟩ := map
  simp only [find, erase]
  clear hascending
  induction entries with
  | nil => rfl
  | cons head rest ih =>
      by_cases hhead : head.1 = key
      · simpa [List.filter_cons, hhead, lookup, h.symm] using ih
      · simp only [List.filter_cons, hhead, ne_eq, not_false_eq_true, decide_true, if_true,
          lookup, ih]

theorem find_modify_self {old : ν} (h : map.find key = some old) :
    (map.modify key value).find key = some value := by
  obtain ⟨entries, hascending⟩ := map
  simp only [find, modify] at h ⊢
  clear hascending
  induction entries with
  | nil => cases h
  | cons head rest ih =>
      by_cases hhead : head.1 = key
      · simp [lookup, hhead]
      · simp only [lookup, hhead, if_false, List.map_cons] at h ⊢
        exact ih h

theorem find_modify_of_ne (h : key' ≠ key) :
    (map.modify key value).find key' = map.find key' := by
  obtain ⟨entries, hascending⟩ := map
  simp only [find, modify]
  clear hascending
  induction entries with
  | nil => rfl
  | cons head rest ih =>
      by_cases hhead : head.1 = key
      · simp only [List.map_cons, hhead, if_true, lookup, h.symm, if_false, ih]
      · simp only [List.map_cons, hhead, if_false, lookup, ih]

theorem find_of_mem {entry : κ × ν} (h : entry ∈ map.entries) :
    map.find entry.1 = some entry.2 := by
  obtain ⟨entries, hascending⟩ := map
  simp only [find] at h ⊢
  induction entries with
  | nil => cases h
  | cons head rest ih =>
      obtain ⟨hhead, hrest⟩ := List.pairwise_cons.mp hascending
      rcases List.mem_cons.mp h with rfl | hmem
      · simp [lookup]
      · have hne : head.1 ≠ entry.1 := ne_of_lt (hhead entry hmem)
        rw [lookup, if_neg hne]
        exact ih hrest hmem

theorem mem_of_find (h : map.find key = some value) : (key, value) ∈ map.entries := by
  obtain ⟨entries, hascending⟩ := map
  simp only [find] at h ⊢
  clear hascending
  induction entries with
  | nil => cases h
  | cons head rest ih =>
      unfold lookup at h
      split at h
      · rename_i hhead
        obtain rfl := Option.some.inj h
        rw [← hhead]
        exact List.mem_cons_self
      · exact List.mem_cons_of_mem _ (ih h)

theorem keys_nodup : map.keys.Nodup := by
  rw [keys, List.Nodup, List.pairwise_map]
  exact map.ascending.imp fun hlt => ne_of_lt hlt

end OrderedMap

/-! ### Scanning in order -/

section Scan

variable {α : Type} {skip skip' visit visit' : α → Prop} {entry : α} {entries : List α}

/-- What a scan comes to has `visit`, when it goes on from one entry to the next only by `skip`. -/
def Scan (skip visit : α → Prop) (entries : List α) : Prop :=
  ∀ before entry after, entries = before ++ entry :: after →
    (∀ earlier ∈ before, skip earlier) → visit entry

theorem scan_nil : Scan skip visit [] := by
  intro before entry after heq
  simp at heq

theorem scan_cons :
    Scan skip visit (entry :: entries) ↔ visit entry ∧ (skip entry → Scan skip visit entries) := by
  constructor
  · intro h
    refine ⟨h [] entry entries rfl (by simp), ?_⟩
    intro hskip before other after heq hbefore
    refine h (entry :: before) other after (by rw [heq]; rfl) ?_
    intro earlier hmem
    rcases List.mem_cons.mp hmem with rfl | hmem
    · exact hskip
    · exact hbefore earlier hmem
  · rintro ⟨hvisit, hrest⟩ before other after heq hbefore
    cases before with
    | nil =>
        obtain ⟨rfl, _⟩ := List.cons.inj heq
        exact hvisit
    | cons first before =>
        obtain ⟨rfl, htail⟩ := List.cons.inj heq
        exact hrest (hbefore entry List.mem_cons_self) before other after htail
          fun earlier hmem => hbefore earlier (List.mem_cons_of_mem _ hmem)

theorem scan_congr (hskip : ∀ entry ∈ entries, (skip entry ↔ skip' entry))
    (hvisit : ∀ entry ∈ entries, (visit entry ↔ visit' entry)) :
    Scan skip visit entries ↔ Scan skip' visit' entries := by
  induction entries with
  | nil => exact iff_of_true scan_nil scan_nil
  | cons entry rest ih =>
      have hrest := ih (fun other hmem => hskip other (List.mem_cons_of_mem _ hmem))
        fun other hmem => hvisit other (List.mem_cons_of_mem _ hmem)
      rw [scan_cons, scan_cons, hskip entry List.mem_cons_self, hvisit entry List.mem_cons_self,
        hrest]

end Scan

end TapSdk.Library
