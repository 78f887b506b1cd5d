import TapSdk.Base.BlockingQueue
import TapSdk.Library.Run

/-!
# Threads at the blocking queue

`base/blocking_queue.h` for any number of threads, as it is built without assertions. A thread that
holds the lock takes its steps one at a time: `SetCapacity` takes no lock and may come between any
two of them. A wait gives the lock back, and may end without a reason. The elements are of a type
that is not made from a size, as that of the one queue of the SDK is not, so that `Take(limit)`
makes room for as many as it takes.
-/

namespace TapSdk.QueueThreads

open Library

variable {α : Type}

/-- Where a thread is. The first four are of threads that hold the lock, or of none. -/
inductive Phase (α : Type) where
  | idle
  -- Before the condition of the loop that waits for room, with what is still to be put.
  | testing (tasks : List α)
  -- After that loop.
  | pushing (task : α) (rest : List α)
  -- In the branch of `Put(tasks)` that has found room for all of them.
  | filling (tasks : List α)
  | waitingFull (task : α) (rest : List α)
  -- Nothing as limit is that of `Take()`.
  | waitingEmpty (limit : Option Nat)

namespace Phase

/-- What the thread has been given to put and has not put yet. -/
def remaining : Phase α → List α
  | .idle | .waitingEmpty _ => []
  | .testing tasks | .filling tasks => tasks
  | .pushing task rest | .waitingFull task rest => task :: rest

end Phase

inductive Action (α : Type) where
  | put (thread : Nat) (task : α)
  | putAll (thread : Nat) (tasks : List α)
  | take (thread : Nat) (limit : Option Nat)
  -- The next step of the thread that holds the lock.
  | run (thread : Nat)
  -- A wait ends, and the thread has the lock again.
  | wake (thread : Nat)
  | setCapacity (capacity : Nat)
  | stop

/-- The queue and its threads. The last three are not in the program: what has been given to `Put`,
pushed and returned by `Take`, in the order of the lock. -/
structure World (α : Type) where
  queue : BlockingQueue α
  owner : Option Nat
  threads : Nat → Phase α
  submitted : Nat → List α
  enqueued : List (Nat × α)
  takes : List (List α)

def maxCapacity : Nat := 10000

namespace World

def start (capacity : Nat) : World α := ⟨.new capacity, none, fun _ => .idle, fun _ => [], [], []⟩

def goTo (world : World α) (thread : Nat) (phase : Phase α) : World α :=
  { world with threads := fun other => if other = thread then phase else world.threads other }

def push (world : World α) (thread : Nat) (task : α) : World α :=
  { world with
    queue := { world.queue with queue := world.queue.queue ++ [task] }
    enqueued := world.enqueued ++ [(thread, task)] }

def isFull (world : World α) : Bool := world.queue.queue.length = world.queue.capacity

/-! ### `Put` -/

def put (world : World α) (thread : Nat) (task : α) : World α :=
  { world.goTo thread (.testing [task]) with owner := some thread }

def putAll (world : World α) (thread : Nat) (tasks : List α) : World α :=
  let fits := world.queue.queue.length + tasks.length ≤ world.queue.capacity
  let phase := if fits ∧ world.queue.stopped = false then .filling tasks else .testing tasks
  { world.goTo thread phase with owner := some thread }

def release (world : World α) (thread : Nat) (phase : Phase α) : World α :=
  { world.goTo thread phase with owner := none }

def run (world : World α) (thread : Nat) : Option (World α) :=
  match world.threads thread with
  | .testing [] => some (world.release thread .idle)
  | .testing (task :: rest) =>
      if world.isFull ∧ world.queue.stopped = false then
        some (world.release thread (.waitingFull task rest))
      else some (world.goTo thread (.pushing task rest))
  | .pushing task rest => some ((world.push thread task).goTo thread (.testing rest))
  | .filling [] => some (world.release thread .idle)
  | .filling (task :: rest) => some ((world.push thread task).goTo thread (.filling rest))
  | .idle | .waitingFull _ _ | .waitingEmpty _ => none

/-! ### `Take` -/

/-- How many elements a call takes. -/
def takeCount (world : World α) (limit : Option Nat) : Nat :=
  match limit with
  | none => 1
  | some limit => min limit world.queue.queue.length

/-- From the condition of the loop on, with what is returned. A queue that is stopped gives
nothing. -/
def take (world : World α) (thread : Nat) (limit : Option Nat) : Option (List α) × World α :=
  if world.queue.queue = [] ∧ world.queue.stopped = false then
    (none, world.goTo thread (.waitingEmpty limit))
  else if world.queue.stopped then (some [], world.goTo thread .idle)
  else
    let count := world.takeCount limit
    (some (world.queue.queue.take count),
      { world.goTo thread .idle with
        queue := { world.queue with queue := world.queue.queue.drop count } })

def wake (world : World α) (thread : Nat) : Option (Option (List α) × World α) :=
  match world.threads thread with
  | .waitingFull task rest =>
      some (none, { world.goTo thread (.testing (task :: rest)) with owner := some thread })
  | .waitingEmpty limit => some (world.take thread limit)
  | .idle | .testing _ | .pushing _ _ | .filling _ => none

/-! ### Steps -/

def setCapacity (world : World α) (capacity : Nat) : World α :=
  { world with queue := { world.queue with
      capacity := if 0 < capacity then capacity else maxCapacity } }

def isIdle (world : World α) (thread : Nat) : Bool :=
  match world.threads thread with
  | .idle => true
  | .testing _ | .pushing _ _ | .filling _ | .waitingFull _ _ | .waitingEmpty _ => false

/-- The thread has been given these to put. -/
def submit (thread : Nat) (tasks : List α) (world : World α) : World α :=
  { world with submitted := fun other =>
      if other = thread then world.submitted other ++ tasks else world.submitted other }

/-- A call of `Take` has returned these, if it has returned. -/
def receive (taken : Option (List α) × World α) : World α :=
  { taken.2 with takes := taken.2.takes ++ taken.1.toList }

def step (world : World α) : Action α → Option (World α)
  | .put thread task =>
      if world.owner = none ∧ world.isIdle thread then
        some ((world.put thread task).submit thread [task])
      else none
  | .putAll thread tasks =>
      if world.owner = none ∧ world.isIdle thread then
        some ((world.putAll thread tasks).submit thread tasks)
      else none
  | .take thread limit =>
      if world.owner = none ∧ world.isIdle thread then some (receive (world.take thread limit))
      else none
  | .run thread => if world.owner = some thread then world.run thread else none
  | .wake thread => if world.owner = none then (world.wake thread).map receive else none
  | .setCapacity capacity => some (world.setCapacity capacity)
  | .stop => if world.owner = none then some { world with queue := world.queue.stop } else none

end World

def system (α : Type) (capacity : Nat) : System (World α) (Action α) where
  init world := world = World.start capacity
  step := World.step

end TapSdk.QueueThreads
