import TapSdk.Duration.Launches

/-!
# The statistics while they are initialized

`DurationStatistics::Init`, one operation at a time, while other threads call the listeners that
have been registered already and the timer runs the heartbeats that have been posted. The state
comes with a record of the stored events that were put in the queue, and of those that will be; the
program does not have the record.
-/

namespace TapSdk.Duration

open Library

/-- How far `Init` has come. -/
inductive Phase where
  -- Before `NewGameSession`.
  | constructed
  -- In `InitEvents`, which registers four listeners.
  | registering (listeners : Nat)
  -- Before `InitHeatBeats`.
  | registered
  -- In `InitHistory`: before the cached configuration is read, before the events are, and with
  -- those that have not expired, which are to be put in the queue.
  | beating
  | configured
  | readHistory (pending : List DurEvent)
  -- Before `InitReportThread`.
  | queuedHistory
  -- Before `InitRequest`.
  | reporting
  | initialized
  deriving DecidableEq

namespace Phase

/-- The listeners that are registered. -/
def listeners : Phase → Nat
  | .constructed => 0
  | .registering listeners => listeners
  | _ => 4

/-- The heartbeats have been posted. -/
def beats : Phase → Bool
  | .constructed | .registering _ | .registered => false
  | _ => true

/-- What other threads can do by now. The event `request_config` is there when `Init` is through. -/
def admits (phase : Phase) : Statistics.Op → Bool
  | .onNewUser _ _ => 1 ≤ phase.listeners
  | .onForeground _ => 2 ≤ phase.listeners
  | .onBackground _ => 3 ≤ phase.listeners
  | .gameStart _ _ _ => 4 ≤ phase.listeners
  | .handler | .reporter _ => true
  | .localHeatBeat _ | .onlineHeatBeat _ => phase.beats
  | .refreshConfig _ => phase = .initialized

/-- What `InitHistory` is about to put in the queue. -/
def pending : Phase → List DurEvent
  | .readHistory pending => pending
  | _ => []

end Phase

structure Startup where
  statistics : Statistics
  phase : Phase
  -- `GameStart` has posted the event `request_config` before there was one.
  crashed : Bool
  -- The stored events that a handler or `InitHistory` has put in the queue.
  puts : List DurEvent
  -- What handlers have stored, and what was read of the history and had not expired.
  known : List DurEvent

namespace Startup

/-- What the thread of `Init` gets from outside: the new session, and the clock as `EventExpired`
reads it. -/
structure InitInput where
  uuid : Str
  clock : DurEvent → UInt64

inductive Op where
  | init (input : InitInput)
  | run (op : Statistics.Op)

def start (storage : DurPersistence) (deviceId : Str) : Startup where
  statistics := Statistics.construct storage deviceId
  phase := .constructed
  crashed := false
  puts := []
  known := []

def loadConfig (statistics : Statistics) : Statistics :=
  match statistics.persistence.getLatestConfig with
  | some config => statistics.refreshConfig config false
  | none => statistics

/-- The stored events that have not expired. -/
def unexpired (statistics : Statistics) (clock : DurEvent → UInt64) : List DurEvent :=
  statistics.persistence.getEvents.filter fun event => !statistics.eventExpired (clock event) event

/-- The next operation of `Init`. -/
def initStep (startup : Startup) (input : InitInput) : Option Startup :=
  match startup.phase with
  | .constructed => some { startup with
      statistics := startup.statistics.newGameSession input.uuid, phase := .registering 0 }
  | .registering listeners => some { startup with
      phase := if listeners < 3 then .registering (listeners + 1) else .registered }
  | .registered => some { startup with phase := .beating }
  | .beating => some { startup with
      statistics := loadConfig startup.statistics, phase := .configured }
  | .configured =>
      let pending := unexpired startup.statistics input.clock
      some { startup with phase := .readHistory pending, known := startup.known ++ pending }
  | .readHistory pending =>
      (startup.statistics.reportQueue.putAll pending).map fun queue => { startup with
        statistics := { startup.statistics with reportQueue := queue }
        phase := .queuedHistory
        puts := startup.puts ++ pending }
  | .queuedHistory => some { startup with
      statistics := startup.statistics.initReportThread, phase := .reporting }
  | .reporting => some { startup with
      statistics := startup.statistics.initRequest, phase := .initialized }
  | .initialized => none

/-- What a handler puts in the queue with this step. -/
def putBy (statistics : Statistics) : Statistics.Op → List DurEvent
  | .handler =>
      match statistics.handler with
      | some ⟨event, .putEvent :: _⟩ => [event]
      | _ => []
  | _ => []

/-- The step is the last one of `GameStart`, which posts `request_config` after it. -/
def postsRequest (statistics next : Statistics) : Bool :=
  next.handler = none && statistics.handler.any fun handler => handler.event.action = .gameStart

def runStep (startup : Startup) (op : Statistics.Op) : Option Startup :=
  if startup.phase.admits op then
    (startup.statistics.step op).map fun next => { startup with
      statistics := next
      crashed := startup.phase ≠ .initialized && postsRequest startup.statistics next
      puts := startup.puts ++ putBy startup.statistics op
      known := startup.known ++ startup.statistics.storedBy op }
  else none

def step (startup : Startup) (op : Op) : Option Startup :=
  if startup.crashed then none
  else
    match op with
    | .init input => startup.initStep input
    | .run op => startup.runStep op

def system : System Startup Op where
  init startup := ∃ storage deviceId, startup = start storage deviceId
  step := step

end Startup

end TapSdk.Duration
