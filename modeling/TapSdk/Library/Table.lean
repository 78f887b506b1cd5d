import Mathlib.Data.Nat.Basic
import TapSdk.Library.OrderedMap

/-!
# Tables with an autoincrement key

A database table whose key is handed out by the table: ids start at one, grow with every insertion,
and are never used again, not even after the row has been removed.
-/

namespace TapSdk.Library

variable {ρ : Type}

structure Table (ρ : Type) where
  rows : OrderedMap Nat ρ
  /-- The largest id that was ever handed out. -/
  sequence : Nat
  bounded : ∀ id row, rows.find id = some row → 0 < id ∧ id ≤ sequence

namespace Table

def empty : Table ρ := ⟨OrderedMap.empty, 0, fun _ _ h => by cases h⟩

instance : Inhabited (Table ρ) := ⟨empty⟩

variable {table : Table ρ} {id other : Nat} {row found : ρ} {make : Nat → ρ}

def find (table : Table ρ) (id : Nat) : Option ρ := table.rows.find id

def all (table : Table ρ) : List (Nat × ρ) := table.rows.entries

def latest (table : Table ρ) : Option (Nat × ρ) := table.rows.entries.getLast?

theorem find_next : table.find (table.sequence + 1) = none := by
  cases hfind : table.find (table.sequence + 1) with
  | none => rfl
  | some row =>
      have hle := (table.bounded _ row hfind).2
      omega

/-- Inserts the row that `make` builds for the new id. -/
def insert (table : Table ρ) (make : Nat → ρ) : Table ρ where
  rows := table.rows.emplace (table.sequence + 1) (make (table.sequence + 1))
  sequence := table.sequence + 1
  bounded := by
    intro id row hfind
    by_cases hnew : id = table.sequence + 1
    · omega
    · rw [OrderedMap.find_emplace_of_ne hnew] at hfind
      have hold := table.bounded id row hfind
      omega

/-- Overwrites the row with this id, if there is one. -/
def update (table : Table ρ) (id : Nat) (row : ρ) : Table ρ where
  rows := table.rows.modify id row
  sequence := table.sequence
  bounded := by
    intro other found hfind
    by_cases hsame : other = id
    · subst hsame
      cases hold : table.rows.find other with
      | some old => exact table.bounded other old hold
      | none =>
          have hgone : (table.rows.modify other row).find other = none := by
            rw [OrderedMap.find, OrderedMap.lookup_eq_none_iff] at hold ⊢
            intro entry hentry
            obtain ⟨before, hbefore, rfl⟩ := List.mem_map.mp hentry
            rw [if_neg (hold before hbefore)]
            exact hold before hbefore
          rw [hgone] at hfind
          cases hfind
    · rw [OrderedMap.find_modify_of_ne hsame] at hfind
      exact table.bounded other found hfind

def remove (table : Table ρ) (id : Nat) : Table ρ where
  rows := table.rows.erase id
  sequence := table.sequence
  bounded := by
    intro other found hfind
    by_cases hsame : other = id
    · subst hsame
      rw [OrderedMap.find_erase_self] at hfind
      cases hfind
    · rw [OrderedMap.find_erase_of_ne hsame] at hfind
      exact table.bounded other found hfind

theorem find_insert_self : (table.insert make).find (table.sequence + 1)
    = some (make (table.sequence + 1)) := OrderedMap.find_emplace_self find_next

theorem find_insert_of_ne (h : id ≠ table.sequence + 1) :
    (table.insert make).find id = table.find id := OrderedMap.find_emplace_of_ne h

theorem find_insert_of_some (h : table.find id = some found) :
    (table.insert make).find id = some found := by
  have hle := (table.bounded id found h).2
  rw [find_insert_of_ne (by omega), h]

theorem find_update_self (h : table.find id = some found) :
    (table.update id row).find id = some row := OrderedMap.find_modify_self h

theorem find_update_of_ne (h : other ≠ id) : (table.update id row).find other = table.find other :=
  OrderedMap.find_modify_of_ne h

theorem find_remove_of_ne (h : other ≠ id) : (table.remove id).find other = table.find other :=
  OrderedMap.find_erase_of_ne h

theorem find_of_find_remove (h : (table.remove id).find other = some found) :
    table.find other = some found := by
  by_cases hsame : other = id
  · subst hsame
    rw [find, remove, OrderedMap.find_erase_self] at h
    cases h
  · rwa [find_remove_of_ne hsame] at h

theorem find_of_latest (h : table.latest = some (id, row)) : table.find id = some row :=
  OrderedMap.find_of_mem (List.mem_of_getLast? h)

theorem latest_eq_some_iff : table.latest = some (id, row) ↔
    table.find id = some row ∧ ∀ other found, table.find other = some found → other ≤ id := by
  constructor
  · intro h
    refine ⟨find_of_latest h, fun other found hfound => ?_⟩
    obtain ⟨before, hentries⟩ := List.getLast?_eq_some_iff.mp h
    have hmem := OrderedMap.mem_of_find hfound
    have hascending := table.rows.ascending
    rw [hentries] at hmem hascending
    rcases List.mem_append.mp hmem with hbefore | hlast
    · exact Nat.le_of_lt ((List.pairwise_append.mp hascending).2.2 _ hbefore _
        List.mem_cons_self)
    · rw [(Prod.mk.inj (List.mem_singleton.mp hlast)).1]
  · rintro ⟨hfind, hnewest⟩
    have hmem := OrderedMap.mem_of_find hfind
    rcases hlatest : table.latest with _ | ⟨newest, newestRow⟩
    · rw [List.getLast?_eq_none_iff.mp hlatest] at hmem
      cases hmem
    · -- the last entry has no smaller key, and no larger one
      have hother := find_of_latest hlatest
      obtain ⟨before, hentries⟩ := List.getLast?_eq_some_iff.mp hlatest
      have hascending := table.rows.ascending
      rw [hentries] at hmem hascending
      rcases List.mem_append.mp hmem with hbefore | hlast
      · have hlt := (List.pairwise_append.mp hascending).2.2 _ hbefore _ List.mem_cons_self
        exact absurd hlt (Nat.not_lt.mpr (hnewest newest newestRow hother))
      · rw [List.mem_singleton.mp hlast]

theorem latest_insert : (table.insert make).latest
    = some (table.sequence + 1, make (table.sequence + 1)) :=
  latest_eq_some_iff.mpr ⟨find_insert_self, fun other found hfound =>
    ((table.insert make).bounded other found hfound).2⟩

theorem latest_update (h : table.latest = some (id, found)) :
    (table.update id row).latest = some (id, row) := by
  obtain ⟨hfind, hnewest⟩ := latest_eq_some_iff.mp h
  refine latest_eq_some_iff.mpr ⟨find_update_self hfind, fun other found' hfound => ?_⟩
  by_cases hsame : other = id
  · exact Nat.le_of_eq hsame
  · rw [find_update_of_ne hsame] at hfound
    exact hnewest other found' hfound

/-- The newest row has the newest id, unless it has been removed. -/
theorem latest_of_find_sequence (h : table.find table.sequence = some row) :
    table.latest = some (table.sequence, row) :=
  latest_eq_some_iff.mpr ⟨h, fun other found hfound => (table.bounded other found hfound).2⟩

end Table

end TapSdk.Library
