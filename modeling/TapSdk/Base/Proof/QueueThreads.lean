import TapSdk.Base.QueueThreads

/-!
# Capacity and order of the blocking queue

A thread in `Put` has seen room for what it is about to push. That room can go in two ways: the loop
that waits for it lets a stopped queue pass although it is full, and `SetCapacity`, which takes no
lock, may come after the loop. The order of the elements does not depend on room: whichever branch
of `Put(tasks)` runs and whoever comes between its elements, what is taken is what was put, in that
order.
-/

namespace TapSdk.QueueThreads

open Library

variable {α : Type}

/-- The elements that a thread is about to push without looking again. -/
def Phase.reserved : Phase α → Nat
  | .pushing _ _ => 1
  | .filling tasks => tasks.length
  | .idle | .testing _ | .waitingFull _ _ | .waitingEmpty _ => 0

/-- A thread before the condition of the loop that waits for room. -/
def Phase.tests : Phase α → Bool
  | .testing (_ :: _) => true
  | .testing [] | .idle | .pushing _ _ | .filling _ | .waitingFull _ _ | .waitingEmpty _ => false

namespace World

variable {world next : World α}

@[simp]
theorem threads_goTo_self (world : World α) (thread : Nat) (phase : Phase α) :
    (world.goTo thread phase).threads thread = phase := if_pos rfl

theorem threads_goTo_of_ne {thread other : Nat} (h : other ≠ thread) (world : World α)
    (phase : Phase α) : (world.goTo thread phase).threads other = world.threads other := if_neg h

/-- The thread that holds the lock has nothing left to put, waits for room, leaves the loop that
waits for it, or pushes. -/
theorem run_cases {thread : Nat} (h : world.run thread = some next) :
    ((world.threads thread).remaining = [] ∧ next = world.release thread .idle)
    ∨ (∃ task rest, world.threads thread = .testing (task :: rest)
        ∧ next = world.release thread (.waitingFull task rest))
    ∨ (∃ task rest, world.threads thread = .testing (task :: rest)
        ∧ ¬ (world.isFull ∧ world.queue.stopped = false)
        ∧ next = world.goTo thread (.pushing task rest))
    ∨ ∃ task phase, (world.threads thread).remaining = task :: phase.remaining
        ∧ (world.threads thread).reserved = phase.reserved + 1
        ∧ next = (world.push thread task).goTo thread phase := by
  unfold run at h
  split at h
  · rename_i hphase
    exact .inl ⟨by rw [hphase]; rfl, (Option.some.inj h).symm⟩
  · rename_i task rest hphase
    split at h
    · exact .inr (.inl ⟨task, rest, hphase, (Option.some.inj h).symm⟩)
    · rename_i hpasses
      exact .inr (.inr (.inl ⟨task, rest, hphase, hpasses, (Option.some.inj h).symm⟩))
  · rename_i task rest hphase
    refine .inr (.inr (.inr ⟨task, .testing rest, ?_, ?_, (Option.some.inj h).symm⟩))
    · rw [hphase]
      rfl
    · rw [hphase]
      rfl
  · rename_i hphase
    exact .inl ⟨by rw [hphase]; rfl, (Option.some.inj h).symm⟩
  · rename_i task rest hphase
    refine .inr (.inr (.inr ⟨task, .filling rest, ?_, ?_, (Option.some.inj h).symm⟩))
    · rw [hphase]
      rfl
    · rw [hphase]
      rfl
  all_goals cases h

/-! ### Capacity -/

/-- Those of the thread that holds the lock. -/
def reserved (world : World α) : Nat :=
  match world.owner with
  | none => 0
  | some thread => (world.threads thread).reserved

def WithinCapacity (world : World α) : Prop := world.queue.queue.length ≤ world.queue.capacity

/-- A `Put` on a stopped queue finds it not full, and a new capacity leaves room for what is about
to be pushed. -/
def KeepsRoom (world : World α) : Action α → Prop
  | .run thread => (world.threads thread).tests = true → world.queue.stopped = true →
      world.queue.queue.length < world.queue.capacity
  | .setCapacity capacity => world.queue.queue.length + world.reserved
      ≤ if 0 < capacity then capacity else maxCapacity
  | .put _ _ | .putAll _ _ | .take _ _ | .wake _ | .stop => True

instance (world : World α) : (action : Action α) → Decidable (world.KeepsRoom action)
  | .run thread => inferInstanceAs (Decidable ((world.threads thread).tests = true →
      world.queue.stopped = true → world.queue.queue.length < world.queue.capacity))
  | .setCapacity capacity => inferInstanceAs (Decidable (world.queue.queue.length + world.reserved
      ≤ if 0 < capacity then capacity else maxCapacity))
  | .put _ _ | .putAll _ _ | .take _ _ | .wake _ | .stop => isTrue trivial

/-- There is room for the elements in the queue and for those about to be pushed. -/
def HasRoom (world : World α) : Prop :=
  world.queue.queue.length + world.reserved ≤ world.queue.capacity

theorem HasRoom.withinCapacity (h : world.HasRoom) : world.WithinCapacity :=
  Nat.le_of_add_right_le h

theorem hasRoom_start (capacity : Nat) : (start capacity : World α).HasRoom := Nat.zero_le _

/-- Nothing is about to be pushed while no thread holds the lock. -/
theorem HasRoom.of_free (h : world.owner = none) (hwithin : world.WithinCapacity) :
    world.HasRoom := by
  rw [HasRoom, reserved, h]
  exact hwithin

theorem reserved_of_owner {thread : Nat} (h : world.owner = some thread) :
    world.reserved = (world.threads thread).reserved := by
  rw [reserved, h]

/-- A thread that comes to hold the lock. -/
theorem reserved_goTo_owner (world : World α) (thread : Nat) (phase : Phase α) :
    ({ world.goTo thread phase with owner := some thread } : World α).reserved
      = phase.reserved := by
  rw [reserved_of_owner rfl]
  exact congrArg Phase.reserved (threads_goTo_self world thread phase)

theorem HasRoom.run {thread : Nat} (h : world.HasRoom) (howner : world.owner = some thread)
    (hroom : world.KeepsRoom (.run thread)) (hstep : world.run thread = some next) :
    next.HasRoom := by
  rcases run_cases hstep with ⟨-, rfl⟩ | ⟨task, rest, -, rfl⟩ | ⟨task, rest, hphase, hpasses, rfl⟩
    | ⟨task, phase, -, hreserved, rfl⟩
  · exact h.withinCapacity
  · exact h.withinCapacity
  · -- the loop was left for room, or because the queue is stopped
    have hless : world.queue.queue.length < world.queue.capacity := by
      cases hstopped : world.queue.stopped with
      | true => exact hroom (by rw [hphase]; rfl) hstopped
      | false =>
          refine Nat.lt_of_le_of_ne h.withinCapacity fun hfull => hpasses ⟨?_, hstopped⟩
          exact decide_eq_true hfull
    rw [HasRoom, reserved_of_owner (show (world.goTo _ _).owner = _ from howner), threads_goTo_self]
    exact hless
  · have hcapacity : world.queue.queue.length + (phase.reserved + 1) ≤ world.queue.capacity := by
      rwa [HasRoom, reserved_of_owner howner, hreserved] at h
    rw [HasRoom, reserved_of_owner (show ((world.push thread task).goTo _ _).owner = _ from howner),
      threads_goTo_self]
    change (world.queue.queue ++ [task]).length + phase.reserved ≤ world.queue.capacity
    rw [List.length_append, List.length_singleton]
    omega

theorem HasRoom.take (h : world.HasRoom) (howner : world.owner = none) (thread : Nat)
    (limit : Option Nat) : (receive (world.take thread limit)).HasRoom := by
  unfold World.take
  split
  · exact .of_free howner h.withinCapacity
  · split
    · exact .of_free howner h.withinCapacity
    · have hfewer : (world.queue.queue.drop (world.takeCount limit)).length
          ≤ world.queue.capacity := by
        rw [List.length_drop]
        exact Nat.le_trans (Nat.sub_le _ _) h.withinCapacity
      exact .of_free howner hfewer

theorem HasRoom.put (h : world.HasRoom) (thread : Nat) (task : α) :
    (world.put thread task).HasRoom := by
  unfold World.put
  rw [HasRoom, reserved_goTo_owner]
  exact h.withinCapacity

theorem HasRoom.putAll (h : world.HasRoom) (thread : Nat) (tasks : List α) :
    (world.putAll thread tasks).HasRoom := by
  unfold World.putAll
  rw [HasRoom, reserved_goTo_owner]
  split
  · rename_i hfits
    exact hfits.1
  · exact h.withinCapacity

theorem HasRoom.wake {thread : Nat} {taken : Option (List α) × World α} (h : world.HasRoom)
    (howner : world.owner = none) (hstep : world.wake thread = some taken) :
    (receive taken).HasRoom := by
  unfold World.wake at hstep
  split at hstep
  · rename_i task rest hphase
    obtain rfl := Option.some.inj hstep
    have hmoved : ({ world.goTo thread (.testing (task :: rest)) with
        owner := some thread } : World α).HasRoom := by
      rw [HasRoom, reserved_goTo_owner]
      exact h.withinCapacity
    exact hmoved
  · obtain rfl := Option.some.inj hstep
    exact h.take howner thread _
  all_goals cases hstep

theorem HasRoom.step {action : Action α} (h : world.HasRoom) (hroom : world.KeepsRoom action)
    (hstep : world.step action = some next) : next.HasRoom := by
  cases action with
  | put thread task =>
      obtain ⟨-, hput⟩ := Option.ite_none_right_eq_some.mp hstep
      obtain rfl := Option.some.inj hput
      exact h.put thread task
  | putAll thread tasks =>
      obtain ⟨-, hput⟩ := Option.ite_none_right_eq_some.mp hstep
      obtain rfl := Option.some.inj hput
      exact h.putAll thread tasks
  | take thread limit =>
      obtain ⟨hfree, htake⟩ := Option.ite_none_right_eq_some.mp hstep
      exact Option.some.inj htake ▸ h.take hfree.1 thread limit
  | run thread =>
      obtain ⟨howner, hrun⟩ := Option.ite_none_right_eq_some.mp hstep
      exact h.run howner hroom hrun
  | wake thread =>
      obtain ⟨hfree, hwakes⟩ := Option.ite_none_right_eq_some.mp hstep
      obtain ⟨taken, hwake, rfl⟩ := Option.map_eq_some_iff.mp hwakes
      exact h.wake hfree hwake
  | setCapacity capacity =>
      obtain rfl := Option.some.inj hstep
      exact hroom
  | stop =>
      obtain ⟨-, hstop⟩ := Option.ite_none_right_eq_some.mp hstep
      obtain rfl := Option.some.inj hstop
      exact h

/-- The queue stays within its capacity in a run whose steps keep room. -/
theorem within_capacity_of_keepsRoom (capacity : Nat) (actions : List (Action α))
    (hroom : (system α capacity).AlongSteps World.KeepsRoom (World.start capacity) actions) :
    (system α capacity).Along World.WithinCapacity (World.start capacity) actions :=
  hroom.along (fun _ h => h.withinCapacity) (fun _ _ _ h hmeets hstep => h.step hmeets hstep)
    (hasRoom_start capacity)

/-- A batch waits for room between its elements, and another thread takes one. -/
theorem within_capacity_of_keepsRoom_batch :
    (system Nat 2).Along World.WithinCapacity (World.start 2)
      [.put 0 10, .run 0, .run 0, .run 0, .putAll 1 [20, 30], .run 1, .run 1, .run 1,
        .take 2 (some 1), .wake 1, .run 1, .run 1, .run 1] :=
  within_capacity_of_keepsRoom 2 _
    (System.alongSteps_of_guarded (rfl : System.guarded _ _ _ _ = some (_ : World Nat)))

/-- A new capacity that is not below the size. -/
def NotBelowSize (world : World α) : Action α → Prop
  | .setCapacity capacity =>
      world.queue.queue.length ≤ if 0 < capacity then capacity else maxCapacity
  | .put _ _ | .putAll _ _ | .take _ _ | .run _ | .wake _ | .stop => True

/-- A queue of one element is full and stopped, and another element is put. -/
theorem stopped_queue_exceeds_capacity :
    ¬ ∀ (capacity : Nat) (actions : List (Action Nat)), 0 < capacity →
      (system Nat capacity).AlongSteps World.NotBelowSize (World.start capacity) actions →
        (system Nat capacity).Along World.WithinCapacity (World.start capacity) actions := by
  intro hall
  have hrun := hall 1 [.put 0 10, .run 0, .run 0, .run 0, .stop, .put 0 20, .run 0, .run 0]
    (by decide) ?_
  · have hlast := (((((((hrun.2 _ rfl).2 _ rfl).2 _ rfl).2 _ rfl).2 _ rfl).2 _ rfl).2 _ rfl).2 _ rfl
    exact absurd (System.Along.head hlast) (by unfold WithinCapacity; decide)
  · intro _ _
    refine ⟨trivial, fun _ _ => ⟨trivial, fun _ _ => ⟨trivial, fun _ _ => ⟨trivial, fun _ _ =>
      ⟨trivial, fun _ _ => ⟨trivial, fun _ _ => ⟨trivial, fun _ _ => ⟨trivial, trivial⟩⟩⟩⟩⟩⟩⟩⟩

/-! ### Order -/

/-- What has been taken and what is in the queue is what was put, in that order; and what each
thread was given to put it has put, in its own order, up to what it has still to put. -/
structure Fifo (world : World α) : Prop where
  order : world.takes.flatten ++ world.queue.queue = world.enqueued.map Prod.snd
  producers : ∀ thread, (world.enqueued.filter (·.1 = thread)).map Prod.snd
    ++ (world.threads thread).remaining = world.submitted thread

theorem fifo_start (capacity : Nat) : (start capacity : World α).Fifo := ⟨rfl, fun _ => rfl⟩

theorem threads_of_isIdle {thread : Nat} (h : world.isIdle thread = true) :
    world.threads thread = .idle := by
  unfold isIdle at h
  split at h
  · assumption
  all_goals cases h

/-- A thread that moves on with the same elements still to put. -/
theorem Fifo.goTo {thread : Nat} {phase : Phase α} (h : world.Fifo)
    (hremaining : phase.remaining = (world.threads thread).remaining) :
    (world.goTo thread phase).Fifo := by
  refine ⟨h.order, fun other => ?_⟩
  by_cases hother : other = thread
  · subst hother
    rw [threads_goTo_self, hremaining]
    exact h.producers other
  · rw [threads_goTo_of_ne hother]
    exact h.producers other

/-- A thread that is given elements to put. -/
theorem Fifo.submit {thread : Nat} {tasks : List α} {phase : Phase α} (h : world.Fifo)
    (hidle : world.isIdle thread = true) (hremaining : phase.remaining = tasks) :
    ((world.goTo thread phase).submit thread tasks).Fifo := by
  refine ⟨h.order, fun other => ?_⟩
  have hbefore := h.producers other
  change (world.enqueued.filter (·.1 = other)).map Prod.snd
    ++ ((world.goTo thread phase).threads other).remaining
      = if other = thread then world.submitted other ++ tasks else world.submitted other
  by_cases hother : other = thread
  · subst hother
    rw [threads_of_isIdle hidle] at hbefore
    rw [threads_goTo_self, hremaining, if_pos rfl, ← hbefore]
    exact congrArg (· ++ tasks) (List.append_nil _).symm
  · rw [threads_goTo_of_ne hother, if_neg hother]
    exact hbefore

/-- The first of the elements still to be put goes to the back of the queue. -/
theorem Fifo.push {thread : Nat} {task : α} {phase : Phase α} (h : world.Fifo)
    (hbefore : (world.threads thread).remaining = task :: phase.remaining) :
    ((world.push thread task).goTo thread phase).Fifo := by
  constructor
  · change world.takes.flatten ++ (world.queue.queue ++ [task])
      = (world.enqueued ++ [(thread, task)]).map Prod.snd
    rw [← List.append_assoc, h.order, List.map_append]
    rfl
  · intro other
    have hproducer := h.producers other
    change ((world.enqueued ++ [(thread, task)]).filter (·.1 = other)).map Prod.snd ++ _
      = world.submitted other
    rw [List.filter_append, List.map_append]
    by_cases hother : other = thread
    · subst hother
      have hself : [(other, task)].filter (·.1 = other) = [(other, task)] :=
        List.filter_cons_of_pos (decide_eq_true rfl)
      rw [hbefore] at hproducer
      rw [threads_goTo_self, hself, List.append_assoc]
      exact hproducer
    · have hothers : [(thread, task)].filter (·.1 = other) = [] :=
        List.filter_cons_of_neg fun hsame => hother (of_decide_eq_true hsame).symm
      rw [threads_goTo_of_ne hother, hothers, List.map_nil, List.append_nil]
      exact hproducer

theorem Fifo.release {thread : Nat} {phase : Phase α} (h : world.Fifo)
    (hremaining : phase.remaining = (world.threads thread).remaining) :
    (world.release thread phase).Fifo :=
  ⟨(h.goTo hremaining).order, (h.goTo hremaining).producers⟩

theorem Fifo.run {thread : Nat} (h : world.Fifo) (hstep : world.run thread = some next) :
    next.Fifo := by
  rcases run_cases hstep with ⟨hnone, rfl⟩ | ⟨task, rest, hphase, rfl⟩
    | ⟨task, rest, hphase, -, rfl⟩ | ⟨task, phase, hremaining, -, rfl⟩
  · exact h.release hnone.symm
  · exact h.release (by rw [hphase]; rfl)
  · exact h.goTo (by rw [hphase]; rfl)
  · exact h.push hremaining

/-- However many are taken, they are the front of the queue. -/
theorem Fifo.take {thread : Nat} (h : world.Fifo)
    (hremaining : (world.threads thread).remaining = []) (limit : Option Nat) :
    (receive (world.take thread limit)).Fifo := by
  have hmoved : ∀ phase : Phase α, phase.remaining = [] → (world.goTo thread phase).Fifo :=
    fun _ hnone => h.goTo (hnone.trans hremaining.symm)
  unfold World.take
  split
  · refine ⟨?_, (hmoved (.waitingEmpty limit) rfl).producers⟩
    change (world.takes ++ []).flatten ++ world.queue.queue = world.enqueued.map Prod.snd
    rw [List.append_nil]
    exact h.order
  · split
    · refine ⟨?_, (hmoved .idle rfl).producers⟩
      change (world.takes ++ [[]]).flatten ++ world.queue.queue = world.enqueued.map Prod.snd
      rw [List.flatten_append, List.flatten_singleton, List.append_nil]
      exact h.order
    · refine ⟨?_, (hmoved .idle rfl).producers⟩
      change (world.takes ++ [world.queue.queue.take (world.takeCount limit)]).flatten
        ++ world.queue.queue.drop (world.takeCount limit) = world.enqueued.map Prod.snd
      rw [List.flatten_append, List.flatten_singleton, List.append_assoc, List.take_append_drop]
      exact h.order

theorem Fifo.wake {thread : Nat} {taken : Option (List α) × World α} (h : world.Fifo)
    (hstep : world.wake thread = some taken) : (receive taken).Fifo := by
  unfold World.wake at hstep
  split at hstep
  · rename_i task rest hphase
    obtain rfl := Option.some.inj hstep
    have hmoved : (world.goTo thread (.testing (task :: rest))).Fifo := h.goTo (by rw [hphase]; rfl)
    refine ⟨?_, hmoved.producers⟩
    change (world.takes ++ []).flatten ++ world.queue.queue = world.enqueued.map Prod.snd
    rw [List.append_nil]
    exact h.order
  · rename_i limit hphase
    obtain rfl := Option.some.inj hstep
    exact h.take (by rw [hphase]; rfl) limit
  all_goals cases hstep

theorem Fifo.putAll {thread : Nat} (h : world.Fifo) (hidle : world.isIdle thread = true)
    (tasks : List α) : ((world.putAll thread tasks).submit thread tasks).Fifo := by
  have hgiven : ∀ phase : Phase α, phase.remaining = tasks →
      ((world.goTo thread phase).submit thread tasks).Fifo := fun _ hall => h.submit hidle hall
  -- whichever branch runs, all of the elements are still to be put
  have hbranch : (if world.queue.queue.length + tasks.length ≤ world.queue.capacity
      ∧ world.queue.stopped = false then .filling tasks else .testing tasks : Phase α).remaining
        = tasks := by
    split <;> rfl
  exact ⟨(hgiven _ hbranch).order, (hgiven _ hbranch).producers⟩

theorem Fifo.step {action : Action α} (h : world.Fifo) (hstep : world.step action = some next) :
    next.Fifo := by
  cases action with
  | put thread task =>
      obtain ⟨hfree, hput⟩ := Option.ite_none_right_eq_some.mp hstep
      obtain rfl := Option.some.inj hput
      have hgiven : ((world.goTo thread (.testing [task])).submit thread [task]).Fifo :=
        h.submit hfree.2 rfl
      exact ⟨hgiven.order, hgiven.producers⟩
  | putAll thread tasks =>
      obtain ⟨hfree, hput⟩ := Option.ite_none_right_eq_some.mp hstep
      exact Option.some.inj hput ▸ h.putAll hfree.2 tasks
  | take thread limit =>
      obtain ⟨hfree, htake⟩ := Option.ite_none_right_eq_some.mp hstep
      have hremaining : (world.threads thread).remaining = [] := by
        rw [threads_of_isIdle hfree.2]
        rfl
      exact Option.some.inj htake ▸ h.take hremaining limit
  | run thread =>
      obtain ⟨-, hrun⟩ := Option.ite_none_right_eq_some.mp hstep
      exact h.run hrun
  | wake thread =>
      obtain ⟨-, hwakes⟩ := Option.ite_none_right_eq_some.mp hstep
      obtain ⟨taken, hwake, rfl⟩ := Option.map_eq_some_iff.mp hwakes
      exact h.wake hwake
  | setCapacity capacity =>
      obtain rfl := Option.some.inj hstep
      exact ⟨h.order, h.producers⟩
  | stop =>
      obtain ⟨-, hstop⟩ := Option.ite_none_right_eq_some.mp hstep
      obtain rfl := Option.some.inj hstop
      exact ⟨h.order, h.producers⟩

/-- Nothing is lost, put twice or reordered, whoever takes and puts, and in whatever order. -/
theorem fifo_along (capacity : Nat) (actions : List (Action α)) :
    (system α capacity).Along World.Fifo (World.start capacity) actions :=
  System.Along.of_invariant (fun _ _ _ h hstep => h.step hstep) (fifo_start capacity) actions

/-- A batch waits for room twice, and the element of another thread comes between. -/
example : (([.put 0 10, .run 0, .run 0, .run 0, .putAll 1 [20, 30], .run 1, .take 2 none,
      .put 0 40, .run 0, .run 0, .run 0, .wake 1, .run 1, .take 2 (some 5), .wake 1, .run 1, .run 1,
      .run 1, .take 2 (some 5), .wake 1, .run 1, .run 1, .run 1] :
        List (Action Nat)).foldlM World.step (start 1)).map
      (fun world => (world.takes, world.queue.queue, world.enqueued))
    = some ([[10], [40], [20]], [30], [(0, 10), (0, 40), (1, 20), (1, 30)]) := rfl

end World

end TapSdk.QueueThreads
