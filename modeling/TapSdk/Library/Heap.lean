import Mathlib.Order.Lattice
import Mathlib.Data.List.Sort

/-!
# Binary heaps in a sequence

The heap order of a sequence, by the index of the parent, and what the three functions that work on
such a sequence are specified to do: one element at the end is sifted in, the first element is moved
to the end, and a whole sequence is rearranged. Nothing is said about how they do it. A function
that sorts meets the specification.
-/

namespace TapSdk.Library

variable {α κ : Type} [LinearOrder κ]

/-- No key is below its parent's. -/
def IsHeap (keys : List κ) : Prop :=
  ∀ i (h : i < keys.length), 0 < i → keys[(i - 1) / 2] ≤ keys[i]

theorem isHeap_nil : IsHeap ([] : List κ) := fun _ h => absurd h (Nat.not_lt_zero _)

/-- The root is a least element. -/
theorem IsHeap.head_le {key : κ} {keys : List κ} (h : IsHeap (key :: keys)) :
    ∀ other ∈ keys, key ≤ other := by
  have hroot : ∀ i (hi : i < (key :: keys).length), key ≤ (key :: keys)[i] := by
    intro i
    induction i using Nat.strongRecOn with
    | ind i ih =>
        intro hi
        rcases Nat.eq_zero_or_pos i with rfl | hpos
        · exact le_refl key
        · calc key ≤ (key :: keys)[(i - 1) / 2] := ih _ (by omega) (by omega)
            _ ≤ (key :: keys)[i] := h i hi hpos
  intro other hother
  obtain ⟨i, hi, rfl⟩ := List.getElem_of_mem hother
  exact hroot (i + 1) (Nat.succ_lt_succ hi)

theorem isHeap_of_pairwise {keys : List κ} (h : keys.Pairwise (· ≤ ·)) : IsHeap keys := by
  intro i hi hpos
  exact List.pairwise_iff_getElem.mp h _ _ (by omega) hi (by omega)

structure HeapFunctions (α : Type) where
  pushHeap : List α → List α
  popHeap : List α → List α
  makeHeap : List α → List α

structure HeapFunctions.Correct (heap : HeapFunctions α) (key : α → κ) : Prop where
  push : ∀ items item, IsHeap (items.map key) →
    IsHeap ((heap.pushHeap (items ++ [item])).map key)
      ∧ (heap.pushHeap (items ++ [item])).Perm (items ++ [item])
  pop : ∀ item items, IsHeap ((item :: items).map key) →
    ∃ rest, heap.popHeap (item :: items) = rest ++ [item] ∧ IsHeap (rest.map key)
      ∧ rest.Perm items
  make : ∀ items, IsHeap ((heap.makeHeap items).map key) ∧ (heap.makeHeap items).Perm items

/-! ### Sorting -/

def sortBy (key : α → κ) (items : List α) : List α :=
  items.insertionSort fun item other => key item ≤ key other

def sortingHeap (key : α → κ) : HeapFunctions α where
  pushHeap := sortBy key
  popHeap
    | [] => []
    | item :: items => sortBy key items ++ [item]
  makeHeap := sortBy key

theorem sortBy_spec (key : α → κ) (items : List α) :
    IsHeap ((sortBy key items).map key) ∧ (sortBy key items).Perm items := by
  have : Std.Total fun item other : α => key item ≤ key other := ⟨fun item other => le_total _ _⟩
  have : IsTrans α fun item other : α => key item ≤ key other := ⟨fun _ _ _ => le_trans⟩
  have hsorted := List.pairwise_insertionSort (fun item other : α => key item ≤ key other) items
  exact ⟨isHeap_of_pairwise (List.pairwise_map.mpr hsorted), List.perm_insertionSort _ _⟩

theorem sortingHeap_correct (key : α → κ) : (sortingHeap key).Correct key where
  push items item _ := sortBy_spec key (items ++ [item])
  pop _ items _ := ⟨sortBy key items, rfl, sortBy_spec key items⟩
  make items := sortBy_spec key items

end TapSdk.Library
