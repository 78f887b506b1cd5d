import TapSdk.Base.Timer

/-!
# The thread of the timer

`CoreTimer::Looper` with the threads around it: those that post, remove, pause and resume, and the
one that runs the destructor. Every access to a flag, an event or the queue is a step. `HostEvent`
is one bit. `Set` sets it, and a wait that finds it set clears it and goes on; the condition
variable only decides who runs next. A call that stores and then signals has two steps, and the
number of calls between the two is part of the state.

Calls that other threads make come before the destructor, and may still be on their way to their
`Set` when it starts. A callback posts and removes whenever it runs.
-/

namespace TapSdk.Timer

open Library

inductive Looper where
  | notStarted
  | checkShuttingDown
  | checkPaused
  | clearPausedSet
  | advancing
  -- `Advance` has returned `next_time`.
  | returned (nextTime : Option Int)
  | waitFor
  | setWaitSet
  | wait
  | clearWaitSet
  | setPausedSet
  | pauseWait
  | exited
  deriving DecidableEq

/-- How far the destructor has come, by its last step. -/
inductive Destructor where
  | none
  | shuttingDown
  | paused
  | shuttingDownAgain
  | pauseSet
  | hostSet
  | joined
  deriving DecidableEq

structure TimerThreads where
  timer : CoreTimer
  looper : Looper
  -- The time of the first message when `Advance` last returned.
  front : Option Int
  hostEvent : Bool
  pauseEvent : Bool
  paused : Bool
  pausedSet : Bool
  waitSet : Bool
  shuttingDown : Bool
  -- Calls between the store and the `Set` that follows it.
  posting : Nat
  resuming : Nat
  pausing : Nat
  destructor : Destructor

inductive ThreadOp where
  | start
  | looper
  -- The wait with a timeout gives up.
  | timeout
  -- `Advance`, on the looper's thread.
  | advance (now : Int)
  | scan
  | invoke
  | relock (now : Int)
  | postEvent (event : EventId) (duration : Int) (userData : Nat) (now : Int)
  | postSet
  | removeMessage (handle : UInt32)
  | removeEvent (event : EventId)
  | dropEvent (event : EventId)
  | resume
  | resumeSet
  | pause
  | pauseSet
  | destroy

namespace TimerThreads

variable (heap : HeapFunctions Message)

def setLooper (threads : TimerThreads) (looper : Looper) : TimerThreads :=
  { threads with looper := looper }

def setTimer (threads : TimerThreads) (timer : CoreTimer) : TimerThreads :=
  { threads with timer := timer }

/-- A callback is running. -/
def inCallback (threads : TimerThreads) : Bool :=
  match threads.timer.phase with
  | .invoking _ => true
  | .invoked => true
  | _ => false

/-- A call can take `basic_lock`, from another thread before the destructor or from a callback. -/
def canCall (threads : TimerThreads) : Bool :=
  threads.timer.unlocked && (threads.destructor = .none || threads.inCallback)

/-- The next step of `Looper`, outside `Advance`; a wait on an event that is not set blocks. -/
def looperStep (threads : TimerThreads) : Option TimerThreads :=
  match threads.looper with
  | .checkShuttingDown =>
      some (threads.setLooper (if threads.shuttingDown then .exited else .checkPaused))
  | .checkPaused =>
      some (threads.setLooper (if threads.paused then .setPausedSet else .clearPausedSet))
  | .clearPausedSet => some { threads with pausedSet := false, looper := .advancing }
  | .returned (some nextTime) =>
      some (threads.setLooper (if nextTime > 0 then .waitFor else .clearWaitSet))
  | .returned none => some (threads.setLooper .setWaitSet)
  | .setWaitSet => some { threads with waitSet := true, looper := .wait }
  | .waitFor =>
      if threads.hostEvent then some { threads with hostEvent := false, looper := .clearWaitSet }
      else none
  | .wait =>
      if threads.hostEvent then some { threads with hostEvent := false, looper := .clearWaitSet }
      else none
  | .clearWaitSet => some { threads with waitSet := false, looper := .checkPaused }
  | .setPausedSet => some { threads with pausedSet := true, looper := .pauseWait }
  | .pauseWait =>
      if threads.pauseEvent then
        some { threads with pauseEvent := false, looper := .checkShuttingDown }
      else none
  | _ => none

/-- The head of the loop of `Advance`; the looper goes on when there is a value to return. -/
def scanStep (threads : TimerThreads) : TimerThreads :=
  match threads.timer.scan heap with
  | (timer, none) => threads.setTimer timer
  | (timer, some value) =>
      { threads with
        timer := timer
        looper := .returned value
        front := threads.timer.msgQueue.head?.map (·.when) }

def destructorStep (threads : TimerThreads) : Option TimerThreads :=
  match threads.destructor with
  | .none => some { threads with shuttingDown := true, destructor := .shuttingDown }
  | .shuttingDown => some { threads with paused := true, destructor := .paused }
  | .paused => some { threads with shuttingDown := true, destructor := .shuttingDownAgain }
  | .shuttingDownAgain => some { threads with pauseEvent := true, destructor := .pauseSet }
  | .pauseSet => some { threads with hostEvent := true, destructor := .hostSet }
  | .hostSet =>
      -- `timer_thread` is null when the thread was never started
      if threads.looper = .exited ∨ threads.looper = .notStarted then
        some { threads with destructor := .joined }
      else none
  | .joined => none

def step (threads : TimerThreads) : ThreadOp → Option TimerThreads
  | .start =>
      if threads.looper = .notStarted ∧ threads.destructor = .none then
        some (threads.setLooper .checkShuttingDown)
      else none
  | .looper => threads.looperStep
  | .timeout =>
      match threads.looper with
      | .waitFor => if threads.hostEvent then none else some (threads.setLooper .clearWaitSet)
      | _ => none
  | .advance now =>
      if threads.looper = .advancing ∧ threads.timer.phase = .idle then
        some (threads.setTimer (threads.timer.readClock now))
      else none
  | .scan =>
      if threads.looper = .advancing ∧ threads.timer.phase = .scanning then
        some (threads.scanStep heap)
      else none
  | .invoke =>
      match threads.timer.phase with
      | .invoking _ => some (threads.setTimer (threads.timer.setPhase .invoked))
      | _ => none
  | .relock now =>
      if threads.timer.phase = .invoked then
        some (threads.setTimer (threads.timer.readClock now))
      else none
  | .postEvent event duration userData now =>
      if threads.canCall ∧ (threads.timer.event event).alive then
        some { threads with
          timer := threads.timer.postEvent heap event duration userData now
          posting := threads.posting + 1 }
      else none
  | .postSet =>
      if threads.posting > 0 then
        some { threads with hostEvent := true, posting := threads.posting - 1 }
      else none
  | .removeMessage handle =>
      if threads.canCall then some (threads.setTimer (threads.timer.removeMessage heap handle))
      else none
  | .removeEvent event =>
      if threads.canCall ∧ (threads.timer.event event).alive then
        some (threads.setTimer (threads.timer.removeEvent heap event))
      else none
  | .dropEvent event => some (threads.setTimer (threads.timer.dropEvent event))
  | .resume =>
      if threads.destructor = .none then
        some { threads with paused := false, resuming := threads.resuming + 1 }
      else none
  | .resumeSet =>
      if threads.resuming > 0 then
        some { threads with pauseEvent := true, resuming := threads.resuming - 1 }
      else none
  | .pause =>
      if threads.destructor = .none then
        some { threads with paused := true, pausing := threads.pausing + 1 }
      else none
  | .pauseSet =>
      if threads.pausing > 0 then
        some { threads with pauseEvent := true, pausing := threads.pausing - 1 }
      else none
  | .destroy => threads.destructorStep

def start (event : EventId → Event) : TimerThreads where
  timer := ⟨[], 0, 0, event, .idle⟩
  looper := .notStarted
  front := none
  hostEvent := false
  pauseEvent := false
  paused := false
  pausedSet := false
  waitSet := false
  shuttingDown := false
  posting := 0
  resuming := 0
  pausing := 0
  destructor := .none

end TimerThreads

def threadSystem (heap : HeapFunctions Message) : System TimerThreads ThreadOp where
  init threads := ∃ event, threads = TimerThreads.start event
  step threads op := threads.step heap op

end TapSdk.Timer
