/-!
# Runs and their invariants

A system is given by its initial states and by a step that says, for a label, what state follows,
or that the label is not enabled. A run may be restricted to steps that meet a condition on the
state before the step and on the label; `Reaches` is reachability under such a restriction, and
unrestricted reachability is the case of the condition that always holds. Every safety result is
an instance of the one induction below.
-/

namespace TapSdk.Library

variable {σ ℓ : Type}

structure System (σ ℓ : Type) where
  init : σ → Prop
  step : σ → ℓ → Option σ

namespace System

/-- The states reached by a run all of whose steps meet `allowed`. -/
inductive Reaches (system : System σ ℓ) (allowed : σ → ℓ → Prop) : σ → Prop where
  | init {state : σ} (hinit : system.init state) : Reaches system allowed state
  | step {state next : σ} {label : ℓ} (hreach : Reaches system allowed state)
      (hallowed : allowed state label) (hstep : system.step state label = some next) :
      Reaches system allowed next

def Reachable (system : System σ ℓ) : σ → Prop := system.Reaches fun _ _ => True

theorem Reaches.invariant {system : System σ ℓ} {allowed : σ → ℓ → Prop} (invariant : σ → Prop)
    (hinit : ∀ state, system.init state → invariant state)
    (hstep : ∀ state label next, invariant state → allowed state label →
      system.step state label = some next → invariant next)
    {state : σ} (hreach : system.Reaches allowed state) : invariant state := by
  induction hreach with
  | init hstart => exact hinit _ hstart
  | step _ hallowed hnext ih => exact hstep _ _ _ ih hallowed hnext

theorem Reaches.foldlM {system : System σ ℓ} {allowed : σ → ℓ → Prop} {labels : List ℓ}
    (hallowed : ∀ label ∈ labels, ∀ state, allowed state label) {state last : σ}
    (hreach : system.Reaches allowed state) (hrun : labels.foldlM system.step state = some last) :
    system.Reaches allowed last := by
  induction labels generalizing state with
  | nil => exact Option.some.inj hrun ▸ hreach
  | cons label labels ih =>
      rw [List.foldlM_cons] at hrun
      cases hstep : system.step state label with
      | none =>
          rw [hstep] at hrun
          cases hrun
      | some next =>
          rw [hstep] at hrun
          have hfirst := hallowed label List.mem_cons_self state
          exact ih (fun other hother => hallowed other (List.mem_cons_of_mem _ hother))
            (.step hreach hfirst hstep) hrun

/-- A run that stops at the first step that does not meet the condition. -/
def guarded (system : System σ ℓ) (allowed : σ → ℓ → Prop)
    [∀ state label, Decidable (allowed state label)] (labels : List ℓ) (state : σ) : Option σ :=
  labels.foldlM (fun state label =>
    if allowed state label then system.step state label else none) state

theorem Reaches.guarded {system : System σ ℓ} {allowed : σ → ℓ → Prop}
    [∀ state label, Decidable (allowed state label)] {labels : List ℓ} {state last : σ}
    (hreach : system.Reaches allowed state)
    (hrun : system.guarded allowed labels state = some last) : system.Reaches allowed last := by
  induction labels generalizing state with
  | nil => exact Option.some.inj hrun ▸ hreach
  | cons label labels ih =>
      rw [System.guarded, List.foldlM_cons] at hrun
      obtain ⟨next, hstep, hrest⟩ := Option.bind_eq_some_iff.mp hrun
      split at hstep
      · rename_i hallowed
        exact ih (.step hreach hallowed hstep) hrest
      · cases hstep

/-- The property holds in every state of the run of these labels. -/
def Along (system : System σ ℓ) (property : σ → Prop) : σ → List ℓ → Prop
  | state, [] => property state
  | state, label :: labels =>
      property state ∧ ∀ next, system.step state label = some next →
        system.Along property next labels

theorem Along.head {system : System σ ℓ} {property : σ → Prop} {state : σ} {labels : List ℓ}
    (h : system.Along property state labels) : property state := by
  cases labels with
  | nil => exact h
  | cons label labels => exact h.1

theorem Along.reached {system : System σ ℓ} {property : σ → Prop} {state last : σ}
    {labels rest : List ℓ} (h : system.Along property state (labels ++ rest))
    (hrun : labels.foldlM system.step state = some last) : property last := by
  induction labels generalizing state with
  | nil => exact Option.some.inj hrun ▸ h.head
  | cons label labels ih =>
      rw [List.foldlM_cons] at hrun
      obtain ⟨next, hstep, hrest⟩ := Option.bind_eq_some_iff.mp hrun
      exact ih (h.2 next hstep) hrest

theorem Along.of_invariant {system : System σ ℓ} {property : σ → Prop}
    (hkeeps : ∀ state label next, property state → system.step state label = some next →
      property next)
    {state : σ} (hstate : property state) (labels : List ℓ) :
    system.Along property state labels := by
  induction labels generalizing state with
  | nil => exact hstate
  | cons label labels ih => exact ⟨hstate, fun next hnext => ih (hkeeps _ _ _ hstate hnext)⟩

/-- Every step taken in the run of these labels meets the condition. -/
def AlongSteps (system : System σ ℓ) (allowed : σ → ℓ → Prop) : σ → List ℓ → Prop
  | _, [] => True
  | state, label :: labels =>
      ∀ next, system.step state label = some next →
        allowed state label ∧ system.AlongSteps allowed next labels

theorem AlongSteps.reaches {system : System σ ℓ} {allowed : σ → ℓ → Prop} {labels : List ℓ}
    {state last : σ} (h : system.AlongSteps allowed state labels)
    (hreach : system.Reaches allowed state) (hrun : labels.foldlM system.step state = some last) :
    system.Reaches allowed last := by
  induction labels generalizing state with
  | nil => exact Option.some.inj hrun ▸ hreach
  | cons label labels ih =>
      rw [List.foldlM_cons] at hrun
      obtain ⟨next, hstep, hrest⟩ := Option.bind_eq_some_iff.mp hrun
      obtain ⟨hallowed, halong⟩ := h next hstep
      exact ih halong (.step hreach hallowed hstep) hrest

theorem AlongSteps.allowed {system : System σ ℓ} {allowed : σ → ℓ → Prop} {labels rest : List ℓ}
    {label : ℓ} {state last next : σ}
    (h : system.AlongSteps allowed state (labels ++ label :: rest))
    (hrun : labels.foldlM system.step state = some last)
    (hstep : system.step last label = some next) : allowed last label := by
  induction labels generalizing state with
  | nil =>
      obtain rfl := Option.some.inj hrun
      exact (h next hstep).1
  | cons first labels ih =>
      rw [List.foldlM_cons] at hrun
      obtain ⟨second, hfirst, hrest⟩ := Option.bind_eq_some_iff.mp hrun
      exact ih (h second hfirst).2 hrest

theorem alongSteps_of_guarded {system : System σ ℓ} {allowed : σ → ℓ → Prop}
    [∀ state label, Decidable (allowed state label)] {labels : List ℓ} {state last : σ}
    (hrun : system.guarded allowed labels state = some last) :
    system.AlongSteps allowed state labels := by
  induction labels generalizing state with
  | nil => trivial
  | cons label labels ih =>
      rw [System.guarded, List.foldlM_cons] at hrun
      obtain ⟨next, hstep, hrest⟩ := Option.bind_eq_some_iff.mp hrun
      split at hstep
      · rename_i hallowed
        intro after hafter
        obtain rfl := Option.some.inj (hstep.symm.trans hafter)
        exact ⟨hallowed, ih hrest⟩
      · cases hstep

/-- Two conditions that agree under an invariant agree along a run whose labels keep it. -/
theorem alongSteps_congr {system : System σ ℓ} {allowed allowed' : σ → ℓ → Prop}
    {invariant : σ → Prop} {labels : List ℓ}
    (hkeeps : ∀ state label next, label ∈ labels → invariant state →
      system.step state label = some next → invariant next)
    (hiff : ∀ state label next, invariant state → system.step state label = some next →
      (allowed state label ↔ allowed' state label))
    {state : σ} (hstate : invariant state) :
    system.AlongSteps allowed state labels ↔ system.AlongSteps allowed' state labels := by
  induction labels generalizing state with
  | nil => exact Iff.rfl
  | cons label labels ih =>
      have hrest : ∀ next, system.step state label = some next →
          (system.AlongSteps allowed next labels ↔ system.AlongSteps allowed' next labels) := by
        intro next hnext
        refine ih (fun state other after hother => ?_)
          (hkeeps _ _ _ List.mem_cons_self hstate hnext)
        exact hkeeps state other after (List.mem_cons_of_mem _ hother)
      constructor
      · intro h next hnext
        obtain ⟨hmeets, halong⟩ := h next hnext
        exact ⟨(hiff _ _ _ hstate hnext).mp hmeets, (hrest next hnext).mp halong⟩
      · intro h next hnext
        obtain ⟨hmeets, halong⟩ := h next hnext
        exact ⟨(hiff _ _ _ hstate hnext).mpr hmeets, (hrest next hnext).mpr halong⟩

theorem AlongSteps.along {system : System σ ℓ} {invariant property : σ → Prop}
    {allowed : σ → ℓ → Prop} (hproperty : ∀ state, invariant state → property state)
    (hkeeps : ∀ state label next, invariant state → allowed state label →
      system.step state label = some next → invariant next)
    {labels : List ℓ} {state : σ} (hstate : invariant state)
    (h : system.AlongSteps allowed state labels) : system.Along property state labels := by
  induction labels generalizing state with
  | nil => exact hproperty _ hstate
  | cons label labels ih =>
      refine ⟨hproperty _ hstate, fun next hnext => ?_⟩
      obtain ⟨hmeets, hrest⟩ := h next hnext
      exact ih (hkeeps _ _ _ hstate hmeets hnext) hrest

/-- Where a step that meets the condition keeps an invariant, and a step that keeps the property
meets the condition, a whole run has the property exactly if all its steps meet the condition. -/
theorem along_iff_alongSteps {system : System σ ℓ} {invariant property : σ → Prop}
    {allowed : σ → ℓ → Prop} (hproperty : ∀ state, invariant state → property state)
    (hkeeps : ∀ state label next, invariant state → system.step state label = some next →
      allowed state label → invariant next)
    (hallowed : ∀ state label next, invariant state → system.step state label = some next →
      property next → allowed state label)
    {state : σ} (hstate : invariant state) (labels : List ℓ) :
    system.Along property state labels ↔ system.AlongSteps allowed state labels := by
  induction labels generalizing state with
  | nil => exact ⟨fun _ => trivial, fun _ => hproperty _ hstate⟩
  | cons label labels ih =>
      constructor
      · rintro ⟨_, hrest⟩ next hnext
        have hmeets := hallowed _ _ _ hstate hnext (hrest next hnext).head
        exact ⟨hmeets, (ih (hkeeps _ _ _ hstate hnext hmeets)).mp (hrest next hnext)⟩
      · intro hsteps
        refine ⟨hproperty _ hstate, fun next hnext => ?_⟩
        obtain ⟨hmeets, hrest⟩ := hsteps next hnext
        exact (ih (hkeeps _ _ _ hstate hnext hmeets)).mpr hrest

theorem Reaches.mono {system : System σ ℓ} {allowed allowed' : σ → ℓ → Prop}
    (h : ∀ state label, allowed state label → allowed' state label) {state : σ}
    (hreach : system.Reaches allowed state) : system.Reaches allowed' state := by
  induction hreach with
  | init hstart => exact .init hstart
  | step _ hallowed hnext ih => exact .step ih (h _ _ hallowed) hnext

end System

end TapSdk.Library
