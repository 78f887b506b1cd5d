import TapSdk.Sdk.Future

/-!
# Callbacks and timeouts of a future

A promise has one slot for a callback, so of several that are registered before the first `Set` one
is called. A `Set` that finds the promise set returns, also when the first one has yet to call the
callback. `Get` with a timeout tests the wrong way round: it is a wait that has timed out after
which it waits again.
-/

namespace TapSdk.Future

open Library

variable {κ τ : Type}

namespace World

variable [DecidableEq κ]

/-! ### Callbacks -/

def invoked (world : World κ τ) (callback : κ) : Nat :=
  (world.invocations.map Prod.fst).count callback

/-- Once a `Set` has returned, every call of `AWait` that has returned has had its callback called,
once, with the result of the first `Set`. -/
def EachFiredOnce (world : World κ τ) : Prop :=
  world.setsReturned ≠ 0 → ∃ res, world.sets.head? = some res
    ∧ (∀ callback, world.invoked callback = world.awaited.count callback)
    ∧ ∀ invocation ∈ world.invocations, invocation.2 = res

/-- No callback is registered over another one, and no `Set` comes between the first one and the
callback that it is about to call. -/
def Orderly (world : World κ τ) : Action κ τ → Prop
  | .aWait _ => world.promise.retrieved = true ∨ world.promise.cb = none
  | .set _ => world.firing = false
  | .callBack _ | .fire => True

instance (world : World κ τ) : (action : Action κ τ) → Decidable (world.Orderly action)
  | .aWait _ =>
      inferInstanceAs (Decidable (world.promise.retrieved = true ∨ world.promise.cb = none))
  | .set _ => inferInstanceAs (Decidable (world.firing = false))
  | .callBack _ | .fire => isTrue trivial

/-- The callback in the slot, while it is still to be called. -/
def due (world : World κ τ) : List κ := if world.firing then world.promise.cb.toList else []

/-- Before the first `Set`, the slot holds what has been awaited. After it, what has been awaited
has been called or is due. -/
structure Accounted (world : World κ τ) : Prop where
  unset : world.promise.retrieved = false → world.calling = [] ∧ world.firing = false
    ∧ world.invocations = [] ∧ world.setsReturned = 0 ∧ world.sets = []
    ∧ world.awaited = world.promise.cb.toList
  first : world.promise.retrieved = true → world.sets.head? = some world.promise.result
  results : ∀ invocation ∈ world.invocations, invocation.2 = world.promise.result
  firing : world.firing = true → world.setsReturned = 0
  counts : world.promise.retrieved = true → ∀ callback,
    world.invoked callback + world.due.count callback = world.awaited.count callback

theorem Accounted.eachFiredOnce {world : World κ τ} (h : world.Accounted) :
    world.EachFiredOnce := by
  intro hreturned
  have hretrieved : world.promise.retrieved = true := by
    by_contra hunset
    exact hreturned (h.unset (Bool.of_not_eq_true hunset)).2.2.2.1
  have hfiring : world.firing = false := by
    by_contra hfiring
    exact hreturned (h.firing (Bool.of_not_eq_false hfiring))
  refine ⟨world.promise.result, h.first hretrieved, fun callback => ?_, h.results⟩
  have hcount := h.counts hretrieved callback
  rwa [due, hfiring] at hcount

theorem accounted_new : (World.new : World κ τ).Accounted where
  unset _ := ⟨rfl, rfl, rfl, rfl, rfl, rfl⟩
  first h := Bool.noConfusion h
  results _ h := absurd h List.not_mem_nil
  firing h := Bool.noConfusion h
  counts h := Bool.noConfusion h

theorem invoked_invoke (world : World κ τ) (callback other : κ) :
    (world.invoke callback).invoked other
    = world.invoked other + if callback = other then 1 else 0 := by
  unfold invoked invoke
  rw [List.map_append, List.count_append]
  congr 1
  rw [List.map_singleton, List.count_singleton]
  by_cases hsame : callback = other
  · simp [hsame]
  · simp [hsame]

theorem Accounted.results_invoke {world : World κ τ} (h : world.Accounted) (callback : κ) :
    ∀ invocation ∈ (world.invoke callback).invocations, invocation.2 = world.promise.result := by
  intro invocation hmem
  rcases List.mem_append.mp hmem with hold | hnew
  · exact h.results invocation hold
  · rw [List.mem_singleton.mp hnew]

theorem Accounted.retrieved_of_mem {world : World κ τ} (h : world.Accounted) {callback : κ}
    (hcalling : callback ∈ world.calling) : world.promise.retrieved = true := by
  by_contra hunset
  rw [(h.unset (Bool.of_not_eq_true hunset)).1] at hcalling
  cases hcalling

theorem Accounted.retrieved_of_firing {world : World κ τ} (h : world.Accounted)
    (hfiring : world.firing = true) : world.promise.retrieved = true := by
  by_contra hunset
  rw [(h.unset (Bool.of_not_eq_true hunset)).2.1] at hfiring
  cases hfiring

theorem Accounted.aWait {world : World κ τ} (h : world.Accounted) (callback : κ)
    (horderly : world.Orderly (.aWait callback)) : (world.aWait callback).Accounted := by
  unfold World.aWait
  cases hretrieved : world.promise.retrieved with
  | true =>
      exact ⟨fun hunset => by simp [hretrieved] at hunset, h.first, h.results, h.firing, h.counts⟩
  | false =>
      have hempty : world.promise.cb = none := by
        rcases horderly with hset | hempty
        · rw [hretrieved] at hset
          cases hset
        · exact hempty
      obtain ⟨hcalling, hfiring, hinvocations, hreturned, hsets, hawaited⟩ := h.unset hretrieved
      rw [hempty] at hawaited
      refine ⟨fun _ => ⟨hcalling, hfiring, hinvocations, hreturned, hsets, ?_⟩, ?_, h.results,
        h.firing, ?_⟩
      · simp [hawaited, Promise.register]
      · intro hset
        simp [Promise.register, hretrieved] at hset
      · intro hset
        simp [Promise.register, hretrieved] at hset

theorem Accounted.callBack {world next : World κ τ} (h : world.Accounted) {callback : κ}
    (hstep : world.callBack callback = some next) : next.Accounted := by
  unfold World.callBack at hstep
  split at hstep
  · rename_i hcalling
    obtain rfl := Option.some.inj hstep
    have hretrieved := h.retrieved_of_mem hcalling
    refine ⟨fun hunset => ?_, h.first, h.results_invoke callback, h.firing, fun _ other => ?_⟩
    · exact absurd hretrieved (Bool.eq_false_iff.mp hunset)
    · have hcount := h.counts hretrieved other
      have hinvoked := invoked_invoke world callback other
      change (world.invoke callback).invoked other + world.due.count other
        = (callback :: world.awaited).count other
      rw [hinvoked, List.count_cons]
      simp only [beq_iff_eq]
      omega
  · cases hstep

theorem Accounted.set {world : World κ τ} (h : world.Accounted) (res : Result τ)
    (horderly : world.Orderly (.set res)) : (world.set res).Accounted := by
  have hfiring : world.firing = false := horderly
  unfold World.set
  cases hretrieved : world.promise.retrieved with
  | true =>
      -- the promise stays as it is, and the call returns
      have hsame : world.promise.set res = world.promise := by rw [Promise.set, if_pos hretrieved]
      have hfirst := h.first hretrieved
      simp only [Bool.true_eq_false, false_and, if_false, hsame]
      refine ⟨fun hunset => ?_, fun _ => ?_, h.results, fun hfires => ?_, h.counts⟩
      · exact absurd hretrieved (Bool.eq_false_iff.mp hunset)
      · rw [List.head?_append, hfirst]
        rfl
      · exact absurd hfires (Bool.eq_false_iff.mp hfiring)
  | false =>
      obtain ⟨hcalling, -, hinvocations, hreturned, hsets, hawaited⟩ := h.unset hretrieved
      have hset : world.promise.set res
          = { world.promise with result := res, retrieved := true } := by
        rw [Promise.set, hretrieved]
        rfl
      have hnone : ∀ invocation ∈ world.invocations, invocation.2 = res := by
        rw [hinvocations]
        intro invocation hmem
        exact absurd hmem List.not_mem_nil
      have hcount : ∀ callback, (world.invocations.map Prod.fst).count callback = 0 := by
        rw [hinvocations]
        exact fun _ => rfl
      simp only [true_and, hset, hsets, List.nil_append]
      cases hcb : world.promise.cb with
      | some callback =>
          simp only [Option.isSome_some, if_true]
          refine ⟨fun hunset => Bool.noConfusion hunset, fun _ => rfl, hnone,
            fun _ => hreturned, ?_⟩
          intro _ other
          simp only [invoked, due, if_true, hcount, hawaited, hcb, Nat.zero_add]
      | none =>
          simp only [Option.isSome_none, Bool.false_eq_true, if_false]
          refine ⟨fun hunset => Bool.noConfusion hunset, fun _ => rfl, hnone, fun hfires => ?_, ?_⟩
          · exact absurd hfires (Bool.eq_false_iff.mp hfiring)
          · intro _ other
            simp only [invoked, due, hfiring, hcount, hawaited, hcb]
            rfl

theorem Accounted.fire {world next : World κ τ} (h : world.Accounted)
    (hstep : world.fire = some next) :
    next.Accounted := by
  unfold World.fire at hstep
  split at hstep
  · rename_i hfiring
    have hretrieved := h.retrieved_of_firing hfiring
    obtain ⟨callback, hcb, rfl⟩ := Option.map_eq_some_iff.mp hstep
    refine ⟨fun hunset => ?_, h.first, h.results_invoke callback, fun hfires => ?_,
      fun _ other => ?_⟩
    · exact absurd hretrieved (Bool.eq_false_iff.mp hunset)
    · exact Bool.noConfusion hfires
    · have hcount := h.counts hretrieved other
      have hinvoked := invoked_invoke world callback other
      rw [due, hfiring, if_pos rfl, hcb, Option.toList_some, List.count_singleton] at hcount
      change (world.invoke callback).invoked other + ([] : List κ).count other
        = world.awaited.count other
      rw [hinvoked, List.count_nil]
      simp only [beq_iff_eq] at hcount
      omega
  · cases hstep

theorem Accounted.step {world next : World κ τ} {action : Action κ τ} (h : world.Accounted)
    (horderly : world.Orderly action) (hstep : world.step action = some next) : next.Accounted := by
  cases action with
  | aWait callback => exact Option.some.inj hstep ▸ h.aWait callback horderly
  | callBack callback => exact h.callBack hstep
  | set res => exact Option.some.inj hstep ▸ h.set res horderly
  | fire => exact h.fire hstep

/-- In a run whose steps are orderly every callback is called once, at every time. -/
theorem each_callback_fires_once (actions : List (Action κ τ))
    (horderly : (system κ τ).AlongSteps World.Orderly World.new actions) :
    (system κ τ).Along World.EachFiredOnce World.new actions :=
  horderly.along (fun _ h => h.eachFiredOnce) (fun _ _ _ h hmeets hstep => h.step hmeets hstep)
    accounted_new

def plainResult : Result Unit := ⟨some (), ⟨.noErr, []⟩⟩

/-- One callback is registered before the `Set`, and another one comes after it. -/
theorem each_callback_fires_once_around_set :
    (system Nat Unit).Along World.EachFiredOnce World.new
      [.aWait 1, .set plainResult, .fire, .aWait 2, .callBack 2] :=
  each_callback_fires_once _
    (System.alongSteps_of_guarded (rfl : System.guarded _ _ _ _ = some (_ : World Nat Unit)))

/-- The second callback takes the place of the first, which is never called. -/
theorem second_callback_replaces_first :
    ¬ ∀ actions : List (Action Nat Unit),
      (system Nat Unit).Along World.EachFiredOnce World.new actions := by
  intro hall
  have hlast :=
    ((((hall [.aWait 1, .aWait 2, .set plainResult, .fire]).2 _ rfl).2 _ rfl).2 _ rfl).2 _ rfl
  obtain ⟨_, -, hcounts, -⟩ := hlast (by decide)
  exact absurd (hcounts 1) (by decide)

end World

/-! ### `Get(timeout_ms)` -/

namespace Promise

/-- What the first `Set` among the events gives. -/
def firstSet (events : List (Event τ)) : Option (Result τ) :=
  events.findSome? fun event => match event with
    | .set res => some res
    | .wake _ => none

/-- A promise that has been set to this result, or that has not been set. -/
def of (before : Option (Result τ)) (cb : Option κ) : Promise κ τ :=
  ⟨before.isSome, before.getD .timeout, cb⟩

theorem set_of (before : Option (Result τ)) (cb : Option κ) (res : Result τ) :
    (of before cb).set res = of (before.or (some res)) cb := by
  cases before <;> rfl

/-- A wait has ended without a timeout after the promise had been set. -/
def Woken (before : Option (Result τ)) (events : List (Event τ)) : Prop :=
  ∃ earlier later, events = earlier ++ .wake .noTimeout :: later
    ∧ (before.or (firstSet earlier)).isSome = true

theorem not_woken_nil (before : Option (Result τ)) : ¬ Woken before [] := by
  rintro ⟨earlier, later, hsplit, -⟩
  cases earlier <;> cases hsplit

theorem woken_set (before : Option (Result τ)) (res : Result τ) (rest : List (Event τ)) :
    Woken before (.set res :: rest) ↔ Woken (before.or (some res)) rest := by
  constructor
  · rintro ⟨earlier, later, hsplit, -⟩
    cases earlier with
    | nil => cases hsplit
    | cons first earlier =>
        obtain ⟨-, rfl⟩ := List.cons_eq_cons.mp hsplit
        refine ⟨earlier, later, rfl, ?_⟩
        cases before <;> rfl
  · rintro ⟨earlier, later, rfl, -⟩
    refine ⟨.set res :: earlier, later, rfl, ?_⟩
    cases before <;> rfl

theorem woken_wake (before : Option (Result τ)) (status : CvStatus) (rest : List (Event τ)) :
    Woken before (.wake status :: rest)
      ↔ (status = .noTimeout ∧ before.isSome = true) ∨ Woken before rest := by
  constructor
  · rintro ⟨earlier, later, hsplit, hset⟩
    cases earlier with
    | nil =>
        obtain ⟨hstatus, -⟩ := List.cons_eq_cons.mp hsplit
        rw [firstSet, List.findSome?_nil, Option.or_none] at hset
        exact Or.inl ⟨Event.wake.inj hstatus, hset⟩
    | cons first earlier =>
        obtain ⟨rfl, rfl⟩ := List.cons_eq_cons.mp hsplit
        exact Or.inr ⟨earlier, later, rfl, hset⟩
  · rintro (⟨rfl, hset⟩ | ⟨earlier, later, rfl, hset⟩)
    · exact ⟨[], rest, rfl, by rwa [firstSet, List.findSome?_nil, Option.or_none]⟩
    · exact ⟨.wake status :: earlier, later, rfl, hset⟩

def Returns (progress : Progress τ) : Prop := ∃ result unused, progress = .returned result unused

/-- The wait that ends is the first one that ends without a timeout after the promise has been
set. -/
theorem getWaiting_returns_iff (before : Option (Result τ)) (cb : Option κ)
    (events : List (Event τ)) :
    Returns ((of before cb).getWaiting events) ↔ Woken before events := by
  induction events generalizing before with
  | nil =>
      refine iff_of_false ?_ (not_woken_nil before)
      rintro ⟨result, unused, hreturned⟩
      cases hreturned
  | cons event rest ih =>
      cases event with
      | set res => rw [getWaiting, set_of, ih, woken_set]
      | wake status =>
          rw [woken_wake, getWaiting]
          by_cases hends : status = .noTimeout ∧ before.isSome = true
          · rw [if_neg (by rw [hends.1]; simp [of, hends.2])]
            exact iff_of_true ⟨_, _, rfl⟩ (Or.inl hends)
          · rw [if_pos, ih, or_iff_right hends]
            cases status <;> simp_all [of]

/-- What `Get` is to return once these events have happened. -/
def expected (before : Option (Result τ)) (events : List (Event τ)) : Result τ :=
  (before.or (firstSet events)).getD .timeout

theorem getWaiting_result {before : Option (Result τ)} {cb : Option κ}
    {events unused : List (Event τ)} {result : Result τ}
    (h : (of before cb).getWaiting events = .returned result unused) :
    ∃ used, events = used ++ unused ∧ result = expected before used := by
  induction events generalizing before with
  | nil => cases h
  | cons event rest ih =>
      cases event with
      | set res =>
          rw [getWaiting, set_of] at h
          obtain ⟨used, rfl, rfl⟩ := ih h
          refine ⟨.set res :: used, rfl, ?_⟩
          cases before <;> rfl
      | wake status =>
          rw [getWaiting] at h
          split at h
          · obtain ⟨used, rfl, rfl⟩ := ih h
            exact ⟨.wake status :: used, rfl, rfl⟩
          · obtain ⟨rfl, rfl⟩ := Progress.returned.inj h
            rename_i hends
            refine ⟨[.wake status], rfl, ?_⟩
            cases before <;> rfl

/-- `Get` has returned when a wait has timed out, and what it returns is the result of `Set`, or
that of a timeout when there was none. -/
def EndsAtTimeout (before : Option (Result τ)) (cb : Option κ) (events : List (Event τ)) : Prop :=
  (∀ earlier later, events = earlier ++ .wake .timeout :: later →
    Returns ((of before cb).get (earlier ++ [.wake .timeout])))
  ∧ ∀ result unused, (of before cb).get events = .returned result unused →
    ∃ used, events = used ++ unused ∧ result = expected before used

theorem get_returns_iff (before : Option (Result τ)) (cb : Option κ) (events : List (Event τ)) :
    Returns ((of before cb).get events) ↔ before.isSome = true ∨ Woken before events := by
  unfold get
  cases before with
  | none =>
      have hunset : (of (none : Option (Result τ)) cb).retrieved = false := rfl
      rw [if_pos hunset, getWaiting_returns_iff]
      simp
  | some res => exact iff_of_true ⟨_, _, rfl⟩ (Or.inl rfl)

theorem woken_append_timeout (before : Option (Result τ)) (events : List (Event τ)) :
    Woken before (events ++ [.wake .timeout]) ↔ Woken before events := by
  induction events generalizing before with
  | nil =>
      rw [List.nil_append, woken_wake]
      simp
  | cons event rest ih =>
      cases event with
      | set res => rw [List.cons_append, woken_set, woken_set, ih]
      | wake status => rw [List.cons_append, woken_wake, woken_wake, ih]

/-- `Get` ends at a timeout exactly when every wait that times out comes after one that has not and
that has found the promise set. -/
theorem get_ends_at_timeout_iff (before : Option (Result τ)) (cb : Option κ)
    (events : List (Event τ)) : EndsAtTimeout before cb events ↔
      before.isSome = true ∨ ∀ earlier later, events = earlier ++ .wake .timeout :: later →
        Woken before earlier := by
  have hresult : ∀ result unused, (of before cb).get events = .returned result unused →
      ∃ used, events = used ++ unused ∧ result = expected before used := by
    intro result unused h
    unfold get at h
    split at h
    · exact getWaiting_result h
    · obtain ⟨rfl, rfl⟩ := Progress.returned.inj h
      refine ⟨[], rfl, ?_⟩
      cases before with
      | none => rename_i hset; exact absurd rfl hset
      | some res => rfl
  unfold EndsAtTimeout
  rw [and_iff_left hresult]
  simp only [get_returns_iff, woken_append_timeout]
  cases before with
  | some res => exact iff_of_true (fun _ _ _ => Or.inl rfl) (Or.inl rfl)
  | none => simp

/-- One wait times out, and nothing sets the promise. -/
theorem get_waits_after_timeout : ¬ ∀ (before : Option (Result Unit)) (events : List (Event Unit)),
    EndsAtTimeout before (none : Option Nat) events := by
  intro hall
  obtain ⟨_, _, hreturned⟩ := (hall none [.wake .timeout]).1 [] [] rfl
  cases hreturned

end Promise

end TapSdk.Future
