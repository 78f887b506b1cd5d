import TapSdk.Library.Json
import TapSdk.Library.Run

/-!
# Futures

`Result`, `Promise` and `Future` of `sdk/result.h`. The copies of a future share its promise. What
an operation does under the lock of the promise is one step; a callback is called after the lock has
been released, and that is another one, which is also where the operation ends.
-/

namespace TapSdk.Future

open Library

inductive ErrorCode where
  | noErr
  | errTimeout
  deriving DecidableEq

structure Error where
  code : ErrorCode
  msg : Bytes
  deriving DecidableEq

structure Result (τ : Type) where
  value : Option τ
  error : Error
  deriving DecidableEq

/-- The result of a promise that has not been set. -/
def Result.timeout {τ : Type} : Result τ := ⟨none, ⟨.errTimeout, []⟩⟩

/-- Of a callback only its address is here. -/
structure Promise (κ τ : Type) where
  retrieved : Bool
  result : Result τ
  cb : Option κ

namespace Promise

variable {κ τ : Type}

def new : Promise κ τ := ⟨false, .timeout, none⟩

/-- `AWait` under the lock, when there is no result yet. -/
def register (promise : Promise κ τ) (callback : κ) : Promise κ τ :=
  { promise with cb := some callback }

/-- `Set` under the lock. -/
def set (promise : Promise κ τ) (res : Result τ) : Promise κ τ :=
  if promise.retrieved then promise else { promise with result := res, retrieved := true }

/-! ### `Get(timeout_ms)` -/

inductive CvStatus where
  -- Notified, or without a reason.
  | noTimeout
  | timeout
  deriving DecidableEq

/-- What happens while `Get` waits: another thread sets the promise, or the wait ends. -/
inductive Event (τ : Type) where
  | set (res : Result τ)
  | wake (status : CvStatus)

inductive Progress (τ : Type) where
  | returned (result : Result τ) (unused : List (Event τ))
  | waiting

/-- The loop, from inside a wait on. Its condition is tested when the wait ends. -/
def getWaiting (promise : Promise κ τ) : List (Event τ) → Progress τ
  | [] => .waiting
  | .set res :: rest => (promise.set res).getWaiting rest
  | .wake status :: rest =>
      let timeout := status = .timeout
      if promise.retrieved = false ∨ timeout then promise.getWaiting rest
      else .returned promise.result rest

def get (promise : Promise κ τ) (events : List (Event τ)) : Progress τ :=
  if promise.retrieved = false then promise.getWaiting events else .returned promise.result events

end Promise

/-! ### `AWait` and `Set` -/

/-- The promise with the operations under way and what has happened. -/
structure World (κ τ : Type) where
  promise : Promise κ τ
  -- Calls of `AWait` that have found a result and have not called their callback yet.
  calling : List κ
  -- The call of `Set` that has found a callback and has not called it yet.
  firing : Bool
  -- The callbacks of the calls of `AWait` that have returned.
  awaited : List κ
  -- What `Set` has been called with, in the order of the lock, and how many of the calls have
  -- returned.
  sets : List (Result τ)
  setsReturned : Nat
  invocations : List (κ × Result τ)

inductive Action (κ τ : Type) where
  | aWait (callback : κ)
  | callBack (callback : κ)
  | set (res : Result τ)
  | fire

namespace World

variable {κ τ : Type} [DecidableEq κ]

def new : World κ τ := ⟨.new, [], false, [], [], 0, []⟩

def invoke (world : World κ τ) (callback : κ) : World κ τ :=
  { world with invocations := world.invocations ++ [(callback, world.promise.result)] }

def aWait (world : World κ τ) (callback : κ) : World κ τ :=
  if world.promise.retrieved then { world with calling := callback :: world.calling }
  else { world with
    promise := world.promise.register callback
    awaited := callback :: world.awaited }

def callBack (world : World κ τ) (callback : κ) : Option (World κ τ) :=
  if callback ∈ world.calling then
    some { world.invoke callback with
      calling := world.calling.erase callback
      awaited := callback :: world.awaited }
  else none

def set (world : World κ τ) (res : Result τ) : World κ τ :=
  let entered := { world with promise := world.promise.set res, sets := world.sets ++ [res] }
  if world.promise.retrieved = false ∧ world.promise.cb.isSome then { entered with firing := true }
  else { entered with setsReturned := world.setsReturned + 1 }

/-- The slot is read again after the lock has been released. -/
def fire (world : World κ τ) : Option (World κ τ) :=
  if world.firing then
    world.promise.cb.map fun callback =>
      { world.invoke callback with firing := false, setsReturned := world.setsReturned + 1 }
  else none

def step (world : World κ τ) : Action κ τ → Option (World κ τ)
  | .aWait callback => some (world.aWait callback)
  | .callBack callback => world.callBack callback
  | .set res => some (world.set res)
  | .fire => world.fire

end World

/-- Any number of calls on copies of one future, in any order. -/
def system (κ τ : Type) [DecidableEq κ] : System (World κ τ) (Action κ τ) where
  init world := world = World.new
  step := World.step

end TapSdk.Future
