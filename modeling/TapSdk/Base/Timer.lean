import TapSdk.Library.Heap
import TapSdk.Library.Run
import Mathlib.Data.Prod.Lex

/-!
# The timer queue

`base/timer.cpp`, without its thread: posting, removing, and `Advance`, which runs what is due. A
message is ordered by its time and then by its handle, and `msg_queue` is a heap in that order.
`Advance` lets go of `basic_lock` around each callback, so its program points are states here, and
every operation that takes the lock is a step of its own. Times are nanoseconds, as integers.
-/

namespace TapSdk.Timer

open Library

abbrev EventId := Nat

structure Event where
  -- Some `shared_ptr` to it is left.
  alive : Bool
  active : Bool

/-- `CoreTimer::Message`; an empty `weak_ptr` is `none`. -/
structure Message where
  event : Option EventId
  when : Int
  userData : Nat
  handle : UInt32
  deriving DecidableEq

def Message.key (message : Message) : Int ×ₗ Nat := toLex (message.when, message.handle.toNat)

/-- Where `Advance` is. -/
inductive Phase where
  | idle
  -- At the head of the loop, with the clock just read and `basic_lock` held.
  | scanning
  -- `basic_lock` is released, and the event has not been locked yet.
  | invoking (message : Message)
  -- The callback has returned, or there was none.
  | invoked
  deriving DecidableEq

structure CoreTimer where
  msgQueue : List Message
  eventFifoId : UInt32
  globalTimer : Int
  event : EventId → Event
  phase : Phase

/-- A call of the callback of an event: the event, how late it is, and the user data. -/
structure Call where
  event : EventId
  later : Int
  userData : Nat

namespace CoreTimer

variable (heap : HeapFunctions Message)

def setActive (timer : CoreTimer) (event : EventId) (active : Bool) : CoreTimer :=
  { timer with event := fun other =>
      if other = event then { timer.event event with active := active } else timer.event other }

def setMsgQueue (timer : CoreTimer) (queue : List Message) : CoreTimer :=
  { timer with msgQueue := queue }

def setPhase (timer : CoreTimer) (phase : Phase) : CoreTimer := { timer with phase := phase }

/-- `basic_lock` can be taken. -/
def unlocked (timer : CoreTimer) : Bool := timer.phase ≠ .scanning

/-- `event.lock()`. -/
def lock (timer : CoreTimer) (message : Message) : Option EventId :=
  message.event.filter fun event => (timer.event event).alive

def newMessage (timer : CoreTimer) (event : EventId) (duration : Int) (userData : Nat) (now : Int) :
    Message :=
  ⟨some event, duration + now, userData, timer.eventFifoId⟩

def postEvent (timer : CoreTimer) (event : EventId) (duration : Int) (userData : Nat) (now : Int) :
    CoreTimer :=
  { (timer.setActive event true).setMsgQueue
      (heap.pushHeap (timer.msgQueue ++ [timer.newMessage event duration userData now])) with
    eventFifoId := timer.eventFifoId + 1 }

def removeIf (timer : CoreTimer) (removes : Message → Bool) : CoreTimer :=
  if timer.msgQueue.any removes then
    timer.setMsgQueue (heap.makeHeap (timer.msgQueue.filter fun message => !removes message))
  else timer

def hasHandle (handle : UInt32) (message : Message) : Bool := message.handle = handle

def isOf (timer : CoreTimer) (event : EventId) (message : Message) : Bool :=
  timer.lock message = some event

def removeMessage (timer : CoreTimer) (handle : UInt32) : CoreTimer :=
  timer.removeIf heap (hasHandle handle)

def removeEvent (timer : CoreTimer) (event : EventId) : CoreTimer :=
  (timer.setActive event false).removeIf heap (timer.isOf event)

/-- The last `shared_ptr` to the event goes away. -/
def dropEvent (timer : CoreTimer) (event : EventId) : CoreTimer :=
  { timer with event := fun other =>
      if other = event then { timer.event event with alive := false } else timer.event other }

/-- Both locks are taken, or `basic_lock` is taken again, and the clock is read. -/
def readClock (timer : CoreTimer) (now : Int) : CoreTimer :=
  { timer with globalTimer := now, phase := .scanning }

/-- The front has been moved from when `pop_heap` compares it: its event is gone, its key is not. -/
def popFront (front : Message) (rest : List Message) : List Message :=
  (heap.popHeap ({ front with event := none } :: rest)).dropLast

/-- The head of the loop of `Advance`: one message is taken out, or there is a value to return. -/
def scan (timer : CoreTimer) : CoreTimer × Option (Option Int) :=
  match timer.msgQueue with
  | front :: rest =>
      if front.when ≤ timer.globalTimer then
        ((timer.setMsgQueue (popFront heap front rest)).setPhase (.invoking front), none)
      else (timer.setPhase .idle, some (some (front.when - timer.globalTimer)))
  | [] => (timer.setPhase .idle, some none)

/-- `Event::Invoke`, for an event that is still there. -/
def invoke (timer : CoreTimer) (message : Message) : Option Call :=
  (timer.lock message).bind fun event =>
    if (timer.event event).active then
      some ⟨event, timer.globalTimer - message.when, message.userData⟩
    else none

end CoreTimer

/-! ### Runs -/

inductive TimerOp where
  | postEvent (event : EventId) (duration : Int) (userData : Nat) (now : Int)
  | removeMessage (handle : UInt32)
  | removeEvent (event : EventId)
  | dropEvent (event : EventId)
  -- `Advance` is entered.
  | advance (now : Int)
  | scan
  | invoke
  -- The lock is taken again.
  | relock (now : Int)

structure Pop where
  message : Message
  -- The last reading of the clock.
  reading : Int
  -- `msg_queue` before the message was taken out.
  queue : List Message

structure Return where
  value : Option Int
  reading : Int
  queue : List Message

/-- The timer, the last reading of the clock, and what has happened. -/
structure TimerRun where
  timer : CoreTimer
  clock : Int
  posted : List Message
  removed : List Message
  popped : List Pop
  returned : List Return
  called : List Call

namespace TimerRun

variable (heap : HeapFunctions Message)

def step (run : TimerRun) : TimerOp → Option TimerRun
  | .postEvent event duration userData now =>
      -- the caller holds the event
      if run.timer.unlocked ∧ (run.timer.event event).alive ∧ run.clock ≤ now then
        some { run with
          timer := run.timer.postEvent heap event duration userData now
          clock := now
          posted := run.posted ++ [run.timer.newMessage event duration userData now] }
      else none
  | .removeMessage handle =>
      if run.timer.unlocked then
        some { run with
          timer := run.timer.removeMessage heap handle
          removed := run.removed ++ run.timer.msgQueue.filter fun message =>
            message.handle = handle }
      else none
  | .removeEvent event =>
      if run.timer.unlocked ∧ (run.timer.event event).alive then
        some { run with
          timer := run.timer.removeEvent heap event
          removed := run.removed ++ run.timer.msgQueue.filter fun message =>
            message.event = some event }
      else none
  | .dropEvent event => some { run with timer := run.timer.dropEvent event }
  | .advance now =>
      if run.timer.phase = .idle ∧ run.clock ≤ now then
        some { run with timer := run.timer.readClock now, clock := now }
      else none
  | .scan =>
      if run.timer.phase = .scanning then
        match run.timer.msgQueue, run.timer.scan heap with
        | _, (timer, some value) =>
            some { run with
              timer := timer
              returned := run.returned ++ [⟨value, run.clock, run.timer.msgQueue⟩] }
        | front :: _, (timer, none) =>
            some { run with
              timer := timer
              popped := run.popped ++ [⟨front, run.clock, run.timer.msgQueue⟩] }
        | [], (_, none) => none
      else none
  | .invoke =>
      match run.timer.phase with
      | .invoking message =>
          some { run with
            timer := run.timer.setPhase .invoked
            called := run.called ++ (run.timer.invoke message).toList }
      | _ => none
  | .relock now =>
      if run.timer.phase = .invoked ∧ run.clock ≤ now then
        some { run with timer := run.timer.readClock now, clock := now }
      else none

def start (clock : Int) (event : EventId → Event) : TimerRun where
  timer := ⟨[], 0, 0, event, .idle⟩
  clock := clock
  posted := []
  removed := []
  popped := []
  returned := []
  called := []

end TimerRun

def timerSystem (heap : HeapFunctions Message) : System TimerRun TimerOp where
  init run := ∃ clock event, run = TimerRun.start clock event
  step run op := run.step heap op

end TapSdk.Timer
