import TapSdk.Base.FileStream

/-!
# When a file keeps its stream in order

`Close` leaves the pointer where it was, so that the file still counts as open and its destructor
closes the stream again; and it returns whether `fclose` has failed. Only `Open` and the destructor
go on to make up for the first, and neither looks at the second.
-/

namespace TapSdk.FileStream

open Library

namespace World

variable {world next : World}

/-- Every stream but the current one has been closed once, the file is open while there is a current
stream, and what `Close` and `Destroy` have returned is right. -/
structure Lifecycle (world : World) : Prop where
  once : ∀ stream < world.streams, world.current ≠ some stream → world.closed.count stream = 1
  current : ∀ stream, world.current = some stream → stream ∉ world.closed
  isOpen : world.alive = true → world.file.isOpen = world.current.isSome
  fresh : world.staleUses = []
  returns : ∀ call ∈ world.closeReturns, call.returned = call.succeeded
  deletes : ∀ call ∈ world.destroyReturns, call.closed = true → call.deleted = true

/-- The pointer is that of the current stream. -/
structure Sound (world : World) : Prop extends Lifecycle world where
  pointer : world.alive = true → world.file.file = world.current
  opened : ∀ stream, world.current = some stream → stream < world.streams
  known : ∀ stream ∈ world.closed, stream < world.streams

/-- `Close` and `Destroy` are called on a file that is not open, and an exception does not leave
`Open` between closing the file and opening it. -/
def Careful (world : World) : Op → Prop
  | .close _ | .destroy _ => world.file.isOpen = false
  | .openFile env => world.file.isOpen = false ∨ env.throws = false
  | .size _ | .resize _ _ | .read | .write | .destruct _ => True

theorem sound_new : new.Sound where
  once _ h := absurd h (Nat.not_lt_zero _)
  current _ h := by cases h
  isOpen _ := rfl
  fresh := rfl
  returns _ h := absurd h List.not_mem_nil
  deletes _ h := absurd h List.not_mem_nil
  pointer _ := rfl
  opened _ h := by cases h
  known _ h := absurd h List.not_mem_nil

/-! ### Closing -/

theorem file_eq_none (h : world.file.isOpen = false) : world.file.file = none := by
  simpa [File.isOpen] using h

theorem close_of_not_isOpen (h : world.file.isOpen = false) (closes : Bool) :
    world.close closes = (⟨true, true⟩, { world with current := none }) := by
  rw [close, file_eq_none h]

theorem close_of_isOpen {stream : Nat} (h : world.file.file = some stream) (closes : Bool) :
    world.close closes = (⟨!closes, closes⟩, { world with
      file := { world.file with curSize := 0 }
      closed := stream :: world.closed
      current := none }) := by
  rw [close, h]

/-- After `Close` every stream has been closed once. -/
theorem Sound.close (h : world.Sound) (halive : world.alive = true) (closes : Bool) :
    (∀ stream < world.streams, (world.close closes).2.closed.count stream = 1)
      ∧ ∀ stream ∈ (world.close closes).2.closed, stream < world.streams := by
  have hpointer := h.pointer halive
  cases hfile : world.file.file with
  | none =>
      rw [hfile] at hpointer
      rw [close_of_not_isOpen (by rw [File.isOpen, hfile]; rfl)]
      refine ⟨fun stream hstream => h.once stream hstream ?_, h.known⟩
      rw [← hpointer]
      intro hsame
      cases hsame
  | some found =>
      rw [hfile] at hpointer
      rw [close_of_isOpen hfile]
      refine ⟨fun stream hstream => ?_, fun stream hstream => ?_⟩
      · dsimp only
        by_cases hsame : found = stream
        · subst hsame
          rw [List.count_cons_self, List.count_eq_zero.mpr (h.current found hpointer.symm)]
        · rw [List.count_cons_of_ne hsame]
          exact h.once stream hstream (by rw [← hpointer]; simpa using hsame)
      · rcases List.mem_cons.mp hstream with rfl | hold
        · exact h.opened stream hpointer.symm
        · exact h.known stream hold

/-- Everything else that `Close` leaves as it was. -/
theorem close_frame (world : World) (closes : Bool) :
    (world.close closes).2.file.file = world.file.file
    ∧ (world.close closes).2.streams = world.streams ∧ (world.close closes).2.current = none
    ∧ (world.close closes).2.staleUses = world.staleUses
    ∧ (world.close closes).2.closeReturns = world.closeReturns
    ∧ (world.close closes).2.destroyReturns = world.destroyReturns := by
  unfold World.close
  split <;> exact ⟨rfl, rfl, rfl, rfl, rfl, rfl⟩

/-- A file that has been closed, and whose pointer has gone or is no longer looked at. -/
theorem Sound.shut (h : world.Sound) (halive : world.alive = true) (closes : Bool) (file : File)
    (alive : Bool) (hfile : alive = true → file.file = none) :
    { (world.close closes).2 with file := file, alive := alive }.Sound := by
  obtain ⟨honce, hknown⟩ := h.close halive closes
  obtain ⟨-, hstreams, hcurrent, hstale, hreturns, hdestroys⟩ := close_frame world closes
  refine ⟨⟨fun stream hstream _ => ?_, fun stream hstream => ?_, fun hlives => ?_,
    hstale.trans h.fresh,
    hreturns ▸ h.returns, hdestroys ▸ h.deletes⟩, fun hlives => ?_, fun stream hstream => ?_,
    fun stream hstream => ?_⟩
  · exact honce stream (hstreams ▸ hstream)
  · exact absurd (hcurrent.symm.trans hstream) (by simp)
  · change file.file.isSome = (world.close closes).2.current.isSome
    rw [hfile hlives, hcurrent]
  · exact (hfile hlives).trans hcurrent.symm
  · exact absurd (hcurrent.symm.trans hstream) (by simp)
  · exact hstreams ▸ hknown stream hstream

/-- A file that is not open is sound after `Close`. -/
theorem Sound.closeFile (h : world.Sound) (halive : world.alive = true)
    (hclosed : world.file.isOpen = false) (closes : Bool) : (world.closeFile closes).Sound := by
  have hshut := h.shut halive closes world.file world.alive fun _ => file_eq_none hclosed
  unfold World.closeFile
  rw [close_of_not_isOpen hclosed] at hshut ⊢
  refine ⟨⟨hshut.once, hshut.current, hshut.isOpen, hshut.fresh, fun call hcall => ?_,
    hshut.deletes⟩,
    hshut.pointer, hshut.opened, hshut.known⟩
  rcases List.mem_cons.mp hcall with rfl | hold
  · rfl
  · exact h.returns call hold

theorem Sound.destroy (h : world.Sound) (halive : world.alive = true)
    (hclosed : world.file.isOpen = false) (closes : Bool) : (world.destroy closes).Sound := by
  have hshut := h.closeFile halive hclosed closes
  refine ⟨⟨hshut.once, hshut.current, hshut.isOpen, hshut.fresh, hshut.returns,
    fun call hcall => ?_⟩,
    hshut.pointer, hshut.opened, hshut.known⟩
  rcases List.mem_cons.mp hcall with rfl | hold
  · rw [close_of_not_isOpen hclosed]
    exact fun _ => rfl
  · exact h.deletes call hold

theorem Sound.destruct (h : world.Sound) (halive : world.alive = true) (closes : Bool) :
    (world.destruct closes).Sound :=
  h.shut halive closes (world.close closes).2.file false fun hdead => Bool.noConfusion hdead

/-! ### Opening -/

theorem alive_close (world : World) (closes : Bool) :
    (world.close closes).2.alive = world.alive := by
  unfold World.close
  split <;> rfl

theorem Sound.openFile (h : world.Sound) (halive : world.alive = true) {env : OpenEnv}
    (hcareful : world.file.isOpen = false ∨ env.throws = false) : (world.openFile env).Sound := by
  unfold World.openFile
  by_cases hthrows : env.throws = true
  · -- nothing was open, so that `Close` has done nothing
    have hclosed : world.file.isOpen = false := by
      rcases hcareful with hclosed | hreturns
      · exact hclosed
      · rw [hthrows] at hreturns
        cases hreturns
    rw [if_pos hthrows]
    exact h.shut halive env.closes (world.close env.closes).2.file (world.close env.closes).2.alive
      fun _ => (close_frame world env.closes).1.trans (file_eq_none hclosed)
  · rw [if_neg hthrows]
    have hshut := h.shut halive env.closes { (world.close env.closes).2.file with file := none }
      (world.close env.closes).2.alive fun _ => rfl
    by_cases hopens : env.opens = true
    · rw [if_pos hopens]
      refine ⟨⟨fun stream hstream hother => ?_, fun stream hstream => ?_, fun _ => rfl, hshut.fresh,
        hshut.returns, hshut.deletes⟩, fun _ => rfl, fun stream hstream => ?_,
        fun stream hstream => ?_⟩
      · have hold : stream < (world.close env.closes).2.streams :=
          Nat.lt_of_le_of_ne (Nat.le_of_lt_succ hstream) fun hnew => hother (by rw [hnew])
        refine hshut.once stream hold ?_
        rw [(close_frame world env.closes).2.2.1]
        intro hsame
        cases hsame
      · obtain rfl := Option.some.inj hstream
        exact fun hmem => Nat.lt_irrefl _ (hshut.known _ hmem)
      · obtain rfl := Option.some.inj hstream
        exact Nat.lt_succ_self _
      · exact Nat.lt_succ_of_lt (hshut.known stream hstream)
    · rw [if_neg hopens]
      exact hshut

/-! ### Using -/

theorem Sound.use (h : world.Sound) (halive : world.alive = true) {stream : Nat}
    (hstream : world.file.file = some stream) : world.use stream = world := by
  have hcurrent := (h.pointer halive).symm.trans hstream
  rw [World.use, if_neg (h.current stream hcurrent)]

/-- The size that is cached does not matter. -/
theorem Sound.of_curSize (h : world.Sound) (size : Nat) :
    { world with file := { world.file with curSize := size } }.Sound :=
  ⟨⟨h.once, h.current, h.isOpen, h.fresh, h.returns, h.deletes⟩, h.pointer, h.opened, h.known⟩

theorem Sound.size (h : world.Sound) (found : Option Nat) : (world.size found).Sound := by
  unfold World.size
  split
  · exact h
  · split
    · exact h
    · split
      · exact h.of_curSize _
      · exact h

theorem Sound.resize (h : world.Sound) (halive : world.alive = true) (newSize : Nat)
    (truncates : Bool) : (world.resize newSize truncates).Sound := by
  unfold World.resize
  split
  · exact h
  · rename_i stream hstream
    rw [h.use halive hstream]
    split
    · exact h.of_curSize newSize
    · exact h

theorem Sound.transfer (h : world.Sound) (halive : world.alive = true)
    (hstep : world.transfer = some next) : next.Sound := by
  obtain ⟨stream, hstream, rfl⟩ := Option.map_eq_some_iff.mp hstep
  rw [h.use halive hstream]
  exact h

/-! ### Runs -/

theorem step_alive {op : Op} (h : world.step op = some next) : world.alive = true := by
  unfold World.step at h
  split at h
  · assumption
  · cases h

theorem Sound.step (h : world.Sound) {op : Op} (hstep : world.step op = some next)
    (hcareful : world.Careful op) : next.Sound := by
  have halive := step_alive hstep
  unfold World.step at hstep
  rw [if_pos halive] at hstep
  cases op with
  | openFile env => exact Option.some.inj hstep ▸ h.openFile halive hcareful
  | close closes => exact Option.some.inj hstep ▸ h.closeFile halive hcareful closes
  | size found => exact Option.some.inj hstep ▸ h.size found
  | resize newSize truncates => exact Option.some.inj hstep ▸ h.resize halive newSize truncates
  | read => exact h.transfer halive hstep
  | write => exact h.transfer halive hstep
  | destroy closes => exact Option.some.inj hstep ▸ h.destroy halive hcareful closes
  | destruct closes => exact Option.some.inj hstep ▸ h.destruct halive closes

/-- A file whose pointer has outlived its stream counts as open. -/
theorem isOpen_eq_false_of_closed (h : next.Lifecycle) (halive : next.alive = true)
    (hfile : next.file.file = world.file.file) (hcurrent : next.current = none) :
    world.file.isOpen = false := by
  have hisOpen := h.isOpen halive
  rw [File.isOpen, hfile, hcurrent] at hisOpen
  exact hisOpen

theorem careful_of_lifecycle {op : Op} (hstep : world.step op = some next) (h : next.Lifecycle) :
    world.Careful op := by
  have halive := step_alive hstep
  unfold World.step at hstep
  rw [if_pos halive] at hstep
  cases op with
  | openFile env =>
      cases hthrows : env.throws with
      | false => exact Or.inr hthrows
      | true =>
          have hshut : (world.close env.closes).2 = next := by
            rw [← Option.some.inj hstep, World.openFile, hthrows]
            rfl
          subst hshut
          obtain ⟨hfile, -, hcurrent, -⟩ := close_frame world env.closes
          exact Or.inl
            (isOpen_eq_false_of_closed h (alive_close world env.closes ▸ halive) hfile hcurrent)
  | close closes =>
      obtain rfl := Option.some.inj hstep
      obtain ⟨hfile, -, hcurrent, -⟩ := close_frame world closes
      exact isOpen_eq_false_of_closed h ((alive_close world closes).trans halive) hfile hcurrent
  | destroy closes =>
      obtain rfl := Option.some.inj hstep
      obtain ⟨hfile, -, hcurrent, -⟩ := close_frame world closes
      exact isOpen_eq_false_of_closed h ((alive_close world closes).trans halive) hfile hcurrent
  | size found => trivial
  | resize newSize truncates => trivial
  | read => trivial
  | write => trivial
  | destruct closes => trivial

/-- `Close` returns whether closing succeeded only when there is nothing to close. -/
theorem close_returned_iff (world : World) (closes : Bool) :
    (world.close closes).1.returned = (world.close closes).1.succeeded
      ↔ world.file.isOpen = false := by
  cases hfile : world.file.file with
  | none =>
      rw [World.close, hfile]
      exact iff_of_true rfl (by rw [File.isOpen, hfile]; rfl)
  | some stream =>
      rw [close_of_isOpen hfile]
      have hinverted : (!closes) ≠ closes := by simp
      refine iff_of_false hinverted ?_
      rw [File.isOpen, hfile]
      simp

/-- A file keeps its streams in order through a run exactly when it is used with care, and no call
of `Close` on an open file returns what it should. -/
theorem file_lifecycle_iff (ops : List Op) :
    (system.Along World.Lifecycle World.new ops ↔ system.AlongSteps World.Careful World.new ops)
    ∧ ∀ (world : World) (closes : Bool),
        (world.close closes).1.returned = (world.close closes).1.succeeded
          ↔ world.file.isOpen = false := by
  refine ⟨?_, close_returned_iff⟩
  exact System.along_iff_alongSteps (fun _ h => h.toLifecycle)
    (fun _ _ _ h hstep hcareful => h.step hstep hcareful)
    (fun _ _ _ _ hstep hlifecycle => careful_of_lifecycle hstep hlifecycle) sound_new ops

/-- Opened and closed, a file counts as open. -/
theorem closed_file_counts_as_open :
    ¬ ∀ ops : List Op, system.Along World.Lifecycle World.new ops := by
  intro hall
  have hlast := ((hall [.openFile ⟨true, false, true⟩, .close true]).2 _ rfl).2 _ rfl
  exact absurd (hlast.isOpen rfl) (by decide)

end World

end TapSdk.FileStream
