/-!
# Programs that are cut short

A program that only writes is the list of its effects. Cut short, it leaves what the first effects
of the list leave. What holds at every cut of a sequence holds at every cut of its parts, each from
where the part before it ends.
-/

namespace TapSdk.Library

variable {σ ε : Type} (apply : σ → ε → σ)

def cut (effects : List ε) (count : Nat) (state : σ) : σ :=
  (effects.take count).foldl apply state

variable {apply} {effects first second : List ε} {count : Nat} {state : σ}

theorem cut_of_length_le (h : effects.length ≤ count) :
    cut apply effects count state = effects.foldl apply state := by
  rw [cut, List.take_of_length_le h]

theorem cut_append_of_le (h : count ≤ first.length) :
    cut apply (first ++ second) count state = cut apply first count state := by
  rw [cut, cut, List.take_append_of_le_length h]

theorem cut_append_of_ge (h : first.length ≤ count) :
    cut apply (first ++ second) count state
      = cut apply second (count - first.length) (first.foldl apply state) := by
  rw [cut, cut, List.take_append, List.take_of_length_le h, List.foldl_append]

/-- What every effect keeps, every cut keeps. -/
theorem cut_invariant (invariant : σ → Prop)
    (hstep : ∀ state, ∀ effect ∈ effects, invariant state → invariant (apply state effect))
    (hstart : invariant state) : invariant (cut apply effects count state) := by
  unfold cut
  induction effects generalizing count state with
  | nil =>
      rw [List.take_nil]
      exact hstart
  | cons effect effects ih =>
      cases count with
      | zero => exact hstart
      | succ count =>
          rw [List.take_succ_cons, List.foldl_cons]
          apply ih
          · intro other last hlast
            exact hstep other last (List.mem_cons_of_mem _ hlast)
          · exact hstep state effect List.mem_cons_self hstart

end TapSdk.Library
