import TapSdk.Duration.Account

/-!
# One launch after the other

The storage outlives the process. A device starts with an empty storage; each launch constructs the
statistics, runs `NewGameSession` and the rest of `Init`, and works until the process ends, which it
may do between any two storage operations. The device also has the clock and a record of every event
that was ever stored; the program does not have the record.
-/

namespace TapSdk.Duration

open Library

namespace Statistics

/-- The `GAME_END` that `NewGameSession` builds from the session it finds. -/
def endEvent (statistics : Statistics) (session : GameSession) : DurEvent where
  id := 0
  action := .gameEnd
  tapUser := statistics.tapUser
  userId := session.userId
  gameId := session.gameId
  gamePkg := session.gamePkg
  deviceId := statistics.deviceId
  session := session.session
  timestamp := session.lastBeats
  lastTimestamp := session.lastTimestamp

/-- `NewGameSession` up to the comment `new game`. -/
def endSession (statistics : Statistics) : Statistics :=
  match statistics.persistence.getLatestSession with
  | none => statistics
  | some session => { statistics with
      persistence := (statistics.persistence.addOrMergeEvent (statistics.endEvent session)).2
      userId := session.userId
      tapUser := session.tapUser }

/-- The rest of `NewGameSession`. -/
def openSession (statistics : Statistics) (uuid : Str) : Statistics :=
  saveSession { statistics with
    gameSession := uuid
    localSession := { statistics.localSession with session := uuid } }

theorem newGameSession_eq (statistics : Statistics) (uuid : Str) :
    statistics.newGameSession uuid = statistics.endSession.openSession uuid := by
  cases hlatest : statistics.persistence.getLatestSession with
  | none => simp only [newGameSession, endSession, openSession, hlatest]
  | some session => simp only [newGameSession, endSession, openSession, hlatest, endEvent]

/-- The time that a step reads; a step of the reporter reads it when it builds its report. -/
def Op.reading : Op → Option UInt64
  | .gameStart _ _ now | .onForeground now | .onBackground now | .onNewUser _ now
  | .localHeatBeat now | .onlineHeatBeat now => some now
  | .reporter input => some input.now
  | .handler | .refreshConfig _ => none

/-- The time is read under `event_lock`. Elsewhere a handler may come between the reading and what
the step does with it. -/
def Op.readsLocked : Op → Bool
  | .localHeatBeat _ | .reporter _ => false
  | _ => true

/-- What a step stores. -/
def storedBy (statistics : Statistics) : Op → List DurEvent
  | .handler =>
      match statistics.handler with
      | some ⟨event, .addOrMergeEvent :: _⟩ => [(statistics.persistence.addOrMergeEvent event).1]
      | _ => []
  | _ => []

/-- The storage that a process leaves. `Delete` removes its rows one at a time, and `deleted` says
how many a process that ends there has removed. -/
def left (statistics : Statistics) (deleted : Nat) : DurPersistence :=
  match statistics.reportThread with
  | some (.answered events _ _ answer) =>
      if answer.settles then statistics.persistence.delete (events.take deleted)
      else statistics.persistence
  | _ => statistics.persistence

end Statistics

inductive Process where
  | off (storage : DurPersistence)
  -- In `NewGameSession`, with the old session ended.
  | ended (statistics : Statistics)
  -- The new session has its row, and the rest of `Init` is to come.
  | opened (statistics : Statistics)
  | running (statistics : Statistics)

def Process.storage : Process → DurPersistence
  | .off storage => storage
  | .ended statistics | .opened statistics | .running statistics => statistics.persistence

structure Device where
  process : Process
  -- The largest time that was read.
  clock : UInt64
  -- The clock at the last launch.
  launched : UInt64
  -- What `CreateUUID` has returned.
  uuids : List Str
  -- What `AddOrMergeEvent` has stored, in order, whether as a new row or into an old one.
  stored : List DurEvent

namespace Device

inductive Op where
  | launch (deviceId : Str)
  | openSession (uuid : Str)
  | finishInit (now : UInt64)
  | run (op : Statistics.Op)
  | crash (deleted : Nat)

def start : Device where
  process := .off ⟨Table.empty, Table.empty, Table.empty⟩
  clock := 0
  launched := 0
  uuids := []
  stored := []

def launch (device : Device) (storage : DurPersistence) (deviceId : Str) : Device :=
  let constructed := Statistics.construct storage deviceId
  { device with
    process := .ended constructed.endSession
    launched := device.clock
    stored := device.stored ++ (storage.getLatestSession.map fun session =>
      (storage.addOrMergeEvent (constructed.endEvent session)).1).toList }

/-- The reading of the step fits a clock that never goes back. -/
def admits (device : Device) (op : Statistics.Op) : Bool :=
  op.reading.all fun now => (if op.readsLocked then device.clock else device.launched) ≤ now

def read (device : Device) (reading : Option UInt64) : UInt64 :=
  reading.elim device.clock (max device.clock)

def run (device : Device) (statistics : Statistics) (op : Statistics.Op) (next : Statistics) :
    Device :=
  { device with
    process := .running next
    clock := device.read op.reading
    stored := device.stored ++ statistics.storedBy op }

def step (device : Device) (op : Op) : Option Device :=
  match device.process, op with
  | .off storage, .launch deviceId => some (device.launch storage deviceId)
  | .ended statistics, .openSession uuid =>
      if uuid ∈ device.uuids then none
      else some { device with
        process := .opened (statistics.openSession uuid), uuids := uuid :: device.uuids }
  | .opened statistics, .finishInit now =>
      if device.clock ≤ now then
        (statistics.initHistory now).map fun configured => { device with
          process := .running configured.initReportThread.initRequest, clock := now }
      else none
  | .running statistics, .run op =>
      if device.admits op then (statistics.step op).map (device.run statistics op) else none
  | .ended statistics, .crash deleted | .opened statistics, .crash deleted
  | .running statistics, .crash deleted =>
      some { device with process := .off (statistics.left deleted) }
  | _, _ => none

def system : System Device Op where
  init device := device = start
  step := step

end Device

end TapSdk.Duration
