/-!
# The blocking queue

`base/blocking_queue.h`, operation by operation. Each runs under the queue's own lock; one that
would wait on a condition variable is not enabled.
-/

namespace TapSdk

structure BlockingQueue (α : Type) where
  queue : List α
  capacity : Nat
  stopped : Bool

namespace BlockingQueue

variable {α : Type}

def new (capacity : Nat) : BlockingQueue α := ⟨[], capacity, false⟩

/-- `Put(task)`; it waits while the queue is full and not stopped. -/
def put (queue : BlockingQueue α) (task : α) : Option (BlockingQueue α) :=
  if queue.queue.length = queue.capacity ∧ queue.stopped = false then none
  else some { queue with queue := queue.queue ++ [task] }

def putAll (queue : BlockingQueue α) (tasks : List α) : Option (BlockingQueue α) :=
  if queue.queue.length + tasks.length ≤ queue.capacity ∧ queue.stopped = false then
    some { queue with queue := queue.queue ++ tasks }
  else tasks.foldlM put queue

/-- `Take(limit)`; it waits while the queue is empty and not stopped. -/
def take (queue : BlockingQueue α) (limit : Nat) : Option (List α × BlockingQueue α) :=
  if queue.stopped then some ([], queue)
  else if queue.queue = [] then none
  else some (queue.queue.take limit, { queue with queue := queue.queue.drop limit })

def stop (queue : BlockingQueue α) : BlockingQueue α := { queue with stopped := true }

variable {queue next : BlockingQueue α}

theorem put_spec {task : α} (h : queue.put task = some next) :
    next = { queue with queue := queue.queue ++ [task] } := by
  unfold put at h
  split at h
  · cases h
  · exact (Option.some.inj h).symm

theorem putAll_spec {tasks : List α} (h : queue.putAll tasks = some next) :
    next = { queue with queue := queue.queue ++ tasks } := by
  have hfold : ∀ before : BlockingQueue α, tasks.foldlM put before = some next →
      next = { before with queue := before.queue ++ tasks } := by
    clear h
    induction tasks with
    | nil =>
        intro before hrun
        rw [List.append_nil]
        exact (Option.some.inj hrun).symm
    | cons task rest ih =>
        intro before hrun
        rw [List.foldlM_cons] at hrun
        obtain ⟨first, hfirst, hrest⟩ := Option.bind_eq_some_iff.mp hrun
        rw [ih first hrest, put_spec hfirst, List.append_assoc]
        rfl
  unfold putAll at h
  split at h
  · exact (Option.some.inj h).symm
  · exact hfold queue h

/-- What is taken is the front of the queue, and nothing when the queue is stopped. -/
theorem take_spec {limit : Nat} {tasks : List α} (h : queue.take limit = some (tasks, next)) :
    ∃ count, count ≤ queue.queue.length ∧ tasks = queue.queue.take count
      ∧ next = { queue with queue := queue.queue.drop count } := by
  unfold take at h
  split at h
  · obtain ⟨rfl, rfl⟩ := Prod.mk.inj (Option.some.inj h)
    exact ⟨0, Nat.zero_le _, rfl, rfl⟩
  · split at h
    · cases h
    · obtain ⟨rfl, rfl⟩ := Prod.mk.inj (Option.some.inj h)
      refine ⟨min limit queue.queue.length, Nat.min_le_right _ _, ?_, ?_⟩
      · rw [List.take_eq_take_min]
      · rw [← List.drop_eq_drop_min]

end BlockingQueue

end TapSdk
