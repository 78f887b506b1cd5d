import TapSdk.Duration.Statistics

/-!
# Handlers as single steps

The listeners that `InitEvents` registers, each carried out to its end, and the launches between
which they are called. A process may end after any of them; the next launch finds the storage it
leaves.
-/

namespace TapSdk.Duration

open Library

namespace Statistics

/-- The steps of a handler, one after the other; a `Put` that has to wait stops it. -/
def performAll (statistics : Statistics) (event : DurEvent) :
    List HandlerStep → Option (DurEvent × Statistics)
  | [] => some (event, statistics)
  | step :: todo =>
      match statistics.perform event step with
      | some (event, next) => next.performAll event todo
      | none => none

/-- The handler that holds `event_lock` runs until it releases it. -/
def runHandler (statistics : Statistics) : Option Statistics :=
  match statistics.handler with
  | none => some statistics
  | some ⟨event, todo⟩ =>
      (statistics.performAll event todo).map fun (_, next) => { next with handler := none }

inductive Call where
  | gameStart (gameId gamePkg : Str) (now : UInt64)
  | onForeground (now : UInt64)
  | onBackground (now : UInt64)
  | onNewUser (user : Option User) (now : UInt64)

def call (statistics : Statistics) : Call → Option Statistics
  | .gameStart gameId gamePkg now => (statistics.gameStart gameId gamePkg now).runHandler
  | .onForeground now => (statistics.onForeground now).runHandler
  | .onBackground now => (statistics.onBackground now).runHandler
  | .onNewUser user now => (statistics.onNewUser user now).runHandler

end Statistics

/-- The storage between two processes, or the process that runs. -/
inductive Life where
  | off (storage : DurPersistence)
  | running (statistics : Statistics)

namespace Life

inductive Op where
  | launch (deviceId uuid : Str) (now : UInt64)
  | call (call : Statistics.Call)

def storage : Life → DurPersistence
  | .off storage => storage
  | .running statistics => statistics.persistence

def step (life : Life) : Op → Option Life
  | .launch deviceId uuid now =>
      ((Statistics.construct life.storage deviceId).init uuid now).map .running
  | .call call =>
      match life with
      | .off _ => none
      | .running statistics => (statistics.call call).map .running

/-- Before the first launch of a sequence, over any storage. -/
def system : System Life Op where
  init life := ∃ storage, life = .off storage
  step := step

end Life

end TapSdk.Duration
