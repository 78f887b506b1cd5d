import Mathlib.Data.List.Basic
import Mathlib.Logic.ExistsUnique

/-!
# Ledgers of stored and delivered entries

The abstract account of a store-and-forward queue: entries are accepted into slots, and the contents
of a slot are delivered as a whole. Between the two every accepted entry is in exactly one place.
-/

namespace TapSdk.Library

variable {κ ε : Type}

structure Ledger (κ ε : Type) where
  stored : κ → List ε
  delivered : List (List ε)

namespace Ledger

/-- A position in a slot, or in a delivery. -/
inductive Place (κ : Type) where
  | stored (slot : κ) (position : Nat)
  | delivered (delivery position : Nat)

def empty : Ledger κ ε := ⟨fun _ => [], []⟩

def entryAt (ledger : Ledger κ ε) : Place κ → Option ε
  | .stored slot position => (ledger.stored slot)[position]?
  | .delivered delivery position => (ledger.delivered[delivery]?).bind (·[position]?)

variable {ledger : Ledger κ ε} {slot : κ} {entry : ε} {place : Place κ} {accepted : List ε}

/-- Every accepted entry is somewhere, nothing else is anywhere, and nothing is in two places. -/
structure Exclusive (ledger : Ledger κ ε) (accepted : List ε) : Prop where
  placed : ∀ entry ∈ accepted, ∃ place, ledger.entryAt place = some entry
  known : ∀ place entry, ledger.entryAt place = some entry → entry ∈ accepted
  unique : ∀ place place' entry, ledger.entryAt place = some entry →
    ledger.entryAt place' = some entry → place = place'

theorem exclusive_empty : (empty : Ledger κ ε).Exclusive [] := by
  have hnothing : ∀ place, (empty : Ledger κ ε).entryAt place = none := by
    intro place
    cases place <;> rfl
  refine ⟨?_, ?_, ?_⟩
  · intro entry hentry
    cases hentry
  · intro place entry hplace
    rw [hnothing] at hplace
    cases hplace
  · intro place place' entry hplace
    rw [hnothing] at hplace
    cases hplace

section Operations

variable [DecidableEq κ]

def setSlot (ledger : Ledger κ ε) (slot : κ) (entries : List ε) : Ledger κ ε :=
  { ledger with stored := fun other => if other = slot then entries else ledger.stored other }

def accept (ledger : Ledger κ ε) (slot : κ) (entry : ε) : Ledger κ ε :=
  ledger.setSlot slot (ledger.stored slot ++ [entry])

def deliver (ledger : Ledger κ ε) (slot : κ) : Ledger κ ε :=
  { ledger.setSlot slot [] with delivered := ledger.delivered ++ [ledger.stored slot] }

/-! ### Accepting -/

theorem entryAt_accept_new :
    (ledger.accept slot entry).entryAt (.stored slot (ledger.stored slot).length) = some entry := by
  simp [entryAt, accept, setSlot]

theorem entryAt_accept_of_some {other : ε} (h : ledger.entryAt place = some other) :
    (ledger.accept slot entry).entryAt place = some other := by
  cases place with
  | delivered delivery position => exact h
  | stored slot' position =>
      by_cases hslot : slot' = slot
      · subst hslot
        obtain ⟨hlt, _⟩ := List.getElem?_eq_some_iff.mp h
        simp only [entryAt, accept, setSlot, if_true]
        rw [List.getElem?_append_left hlt]
        exact h
      · simp only [entryAt, accept, setSlot, hslot, if_false]
        exact h

theorem entryAt_of_accept {other : ε} (h : (ledger.accept slot entry).entryAt place = some other) :
    ledger.entryAt place = some other
      ∨ (place = .stored slot (ledger.stored slot).length ∧ other = entry) := by
  cases place with
  | delivered delivery position => exact Or.inl h
  | stored slot' position =>
      by_cases hslot : slot' = slot
      · subst hslot
        simp only [entryAt, accept, setSlot, if_true] at h
        by_cases hlt : position < (ledger.stored slot').length
        · rw [List.getElem?_append_left hlt] at h
          exact Or.inl h
        · have hlast : position = (ledger.stored slot').length := by
            obtain ⟨hle, _⟩ := List.getElem?_eq_some_iff.mp h
            simp only [List.length_append, List.length_singleton] at hle
            omega
          subst hlast
          simp only [List.getElem?_concat_length, Option.some.injEq] at h
          exact Or.inr ⟨rfl, h.symm⟩
      · simp only [entryAt, accept, setSlot, hslot, if_false] at h
        exact Or.inl h

theorem Exclusive.accept (h : ledger.Exclusive accepted) (hnew : entry ∉ accepted) :
    (ledger.accept slot entry).Exclusive (accepted ++ [entry]) := by
  refine ⟨?_, ?_, ?_⟩
  · intro other hother
    rcases List.mem_append.mp hother with hother | hother
    · obtain ⟨place, hplace⟩ := h.placed other hother
      exact ⟨place, entryAt_accept_of_some hplace⟩
    · rw [List.mem_singleton.mp hother]
      exact ⟨_, entryAt_accept_new⟩
  · intro place other hplace
    rcases entryAt_of_accept hplace with hold | ⟨_, rfl⟩
    · exact List.mem_append_left _ (h.known place other hold)
    · exact List.mem_append_right _ (List.mem_singleton.mpr rfl)
  · intro place place' other hplace hplace'
    rcases entryAt_of_accept hplace with hold | ⟨hat, rfl⟩
    · rcases entryAt_of_accept hplace' with hold' | ⟨_, rfl⟩
      · exact h.unique place place' other hold hold'
      · exact absurd (h.known place other hold) hnew
    · rcases entryAt_of_accept hplace' with hold' | ⟨hat', _⟩
      · exact absurd (h.known place' other hold') hnew
      · rw [hat, hat']

/-! ### Delivering -/

/-- Where the entry at a place was before the slot was delivered. -/
def origin (ledger : Ledger κ ε) (slot : κ) : Place κ → Place κ
  | .stored slot' position => .stored slot' position
  | .delivered delivery position =>
      if delivery = ledger.delivered.length then .stored slot position
      else .delivered delivery position

theorem entryAt_origin (h : (ledger.deliver slot).entryAt place = some entry) :
    ledger.entryAt (ledger.origin slot place) = some entry := by
  cases place with
  | stored slot' position =>
      by_cases hslot : slot' = slot
      · simp [entryAt, deliver, setSlot, hslot] at h
      · simp only [entryAt, deliver, setSlot, hslot, if_false] at h
        exact h
  | delivered delivery position =>
      simp only [origin]
      by_cases hlast : delivery = ledger.delivered.length
      · subst hlast
        rw [if_pos rfl]
        simpa [entryAt, deliver] using h
      · rw [if_neg hlast]
        simp only [entryAt, deliver] at h ⊢
        by_cases hlt : delivery < ledger.delivered.length
        · rwa [List.getElem?_append_left hlt] at h
        · rw [List.getElem?_eq_none
            (by simp only [List.length_append, List.length_singleton]; omega)]
            at h
          cases h

theorem exists_entryAt_deliver (h : ledger.entryAt place = some entry) :
    ∃ place', (ledger.deliver slot).entryAt place' = some entry := by
  cases place with
  | stored slot' position =>
      by_cases hslot : slot' = slot
      · subst hslot
        refine ⟨.delivered ledger.delivered.length position, ?_⟩
        simpa [entryAt, deliver] using h
      · refine ⟨.stored slot' position, ?_⟩
        simp only [entryAt, deliver, setSlot, hslot, if_false]
        exact h
  | delivered delivery position =>
      refine ⟨.delivered delivery position, ?_⟩
      simp only [entryAt, deliver] at h ⊢
      obtain ⟨entries, hentries, _⟩ := Option.bind_eq_some_iff.mp h
      obtain ⟨hlt, _⟩ := List.getElem?_eq_some_iff.mp hentries
      rwa [List.getElem?_append_left hlt]

/-- The delivered slot is empty, so no two places have the same origin. -/
theorem origin_inj {place' : Place κ} {entry' : ε}
    (h : (ledger.deliver slot).entryAt place = some entry)
    (h' : (ledger.deliver slot).entryAt place' = some entry')
    (heq : ledger.origin slot place = ledger.origin slot place') : place = place' := by
  have hempty : ∀ position, (ledger.deliver slot).entryAt (.stored slot position) = none := by
    intro position
    simp [entryAt, deliver, setSlot]
  cases place with
  | stored slot₁ position₁ =>
      cases place' with
      | stored slot₂ position₂ => exact heq
      | delivered delivery₂ position₂ =>
          simp only [origin] at heq
          split at heq
          · cases heq
            rw [hempty] at h
            cases h
          · cases heq
  | delivered delivery₁ position₁ =>
      cases place' with
      | stored slot₂ position₂ =>
          simp only [origin] at heq
          split at heq
          · cases heq
            rw [hempty] at h'
            cases h'
          · cases heq
      | delivered delivery₂ position₂ =>
          simp only [origin] at heq
          split at heq
          · split at heq
            · cases heq
              simp_all
            · cases heq
          · split at heq
            · cases heq
            · exact heq

theorem Exclusive.deliver (h : ledger.Exclusive accepted) (slot : κ) :
    (ledger.deliver slot).Exclusive accepted := by
  refine ⟨?_, ?_, ?_⟩
  · intro entry hentry
    obtain ⟨place, hplace⟩ := h.placed entry hentry
    exact exists_entryAt_deliver hplace
  · intro place entry hplace
    exact h.known _ entry (entryAt_origin hplace)
  · intro place place' entry hplace hplace'
    exact origin_inj hplace hplace'
      (h.unique _ _ entry (entryAt_origin hplace) (entryAt_origin hplace'))

end Operations

end Ledger

end TapSdk.Library
