import Mathlib.Algebra.Group.Nat.Defs
import TapSdk.Base.BlockingQueue
import TapSdk.Duration.Model
import TapSdk.Library.Run

/-!
# Duration statistics

`duration/duration.cpp`. A handler runs under `event_lock`, but the reporter thread and the timer do
not wait for it: a handler is the list of what it still has to do, one storage or queue operation at
a time, and so is an iteration of the reporter. The clock, the answers of the server and the
uninitialized `report_success` come with the step that reads them.
-/

namespace TapSdk.Duration

open Library

def maxReportEvents : Nat := 20

inductive Answer where
  | success
  | failure (status : Int)
  deriving DecidableEq

/-- The client errors, other than 404, for which the reporter gives the events up. -/
def Answer.discards : Answer → Bool
  | .success => false
  | .failure status => 400 ≤ status ∧ status < 500 ∧ status ≠ 404

inductive Reporter where
  -- At the condition of the outer loop.
  | loop
  -- In `Take`.
  | waiting
  -- At the top of the inner loop.
  | building (events : List DurEvent) (reportSuccess : Bool)
  -- In `PostSync`.
  | posting (events reports : List DurEvent) (now : UInt64) (hasHeatBeats : Bool)
  | answered (events : List DurEvent) (now : UInt64) (hasHeatBeats : Bool) (answer : Answer)
  -- About to take `event_lock` to save the time of the heartbeat.
  | beating (events : List DurEvent) (now : UInt64)
  -- At the condition of the inner loop.
  | checking (events : List DurEvent) (reportSuccess : Bool)
  | exited
  deriving DecidableEq

inductive HandlerStep where
  -- The game and the times of a game start go into `local_session`.
  | startSession
  -- The time of the event goes into `local_session`.
  | touchSession
  -- The user goes into `local_session`.
  | userSession
  | updateSession
  | addOrMergeEvent
  | putEvent
  deriving DecidableEq

structure Handler where
  event : DurEvent
  todo : List HandlerStep
  deriving DecidableEq

structure Statistics where
  persistence : DurPersistence
  running : Bool
  foreground : Bool
  localSession : GameSession
  reportConfig : ReportConfig
  -- The thread object, which is there until the destructor joins it.
  reportThread : Option Reporter
  reportQueue : BlockingQueue DurEvent
  tapUser : Bool
  deviceId : Str
  userId : Str
  gameId : Str
  gamePkg : Str
  gameSession : Str
  -- The handler that holds `event_lock`.
  handler : Option Handler
  -- A thread object was destroyed without having been joined, which ends the process.
  terminated : Bool

namespace Statistics

def construct (storage : DurPersistence) (deviceId : Str) : Statistics where
  persistence := storage
  running := false
  foreground := true
  localSession := GameSession.default
  reportConfig := ReportConfig.default
  reportThread := none
  reportQueue := BlockingQueue.new (2 ^ 32 - 1)
  tapUser := false
  deviceId := deviceId
  userId := []
  gameId := []
  gamePkg := []
  gameSession := []
  handler := none
  terminated := false

def saveSession (statistics : Statistics) : Statistics :=
  let (session, storage) := statistics.persistence.updateSession statistics.localSession
  { statistics with localSession := session, persistence := storage }

def newEvent (statistics : Statistics) (action : EventAction) (timestamp lastTimestamp : UInt64) :
    DurEvent where
  id := 0
  action := action
  tapUser := statistics.tapUser
  userId := statistics.userId
  gameId := statistics.gameId
  gamePkg := statistics.gamePkg
  deviceId := statistics.deviceId
  session := statistics.gameSession
  timestamp := timestamp
  lastTimestamp := lastTimestamp

/-! ### Starting and stopping -/

/-- `NewGameSession`; `uuid` is what `CreateUUID` returns. -/
def newGameSession (statistics : Statistics) (uuid : Str) : Statistics :=
  let ended := match statistics.persistence.getLatestSession with
    | none => statistics
    | some session =>
        let event : DurEvent :=
          { id := 0, action := .gameEnd, tapUser := statistics.tapUser, userId := session.userId
            gameId := session.gameId, gamePkg := session.gamePkg, deviceId := statistics.deviceId
            session := session.session, timestamp := session.lastBeats
            lastTimestamp := session.lastTimestamp }
        { statistics with
          persistence := (statistics.persistence.addOrMergeEvent event).2
          userId := session.userId
          tapUser := session.tapUser }
  saveSession { ended with
    gameSession := uuid
    localSession := { ended.localSession with session := uuid } }

def eventExpired (statistics : Statistics) (now : UInt64) (event : DurEvent) : Bool :=
  let availableStartTs :=
    if statistics.reportConfig.availableStartTs ≠ 0 then statistics.reportConfig.availableStartTs
    else now - 3 * 24 * 60 * 60
  event.timestamp < availableStartTs

def stop (statistics : Statistics) : Statistics :=
  if statistics.running then
    { statistics with running := false, reportQueue := statistics.reportQueue.stop }
  else statistics

/-- `InitReportThread`. The old thread object, if there is one, is destroyed. -/
def initReportThread (statistics : Statistics) : Statistics :=
  if statistics.running then statistics
  else if statistics.reportConfig.enable = false then statistics
  else { statistics with
    running := true
    reportThread := some .loop
    terminated := statistics.terminated || statistics.reportThread.isSome }

def refreshConfig (statistics : Statistics) (config : ReportConfig) (net : Bool) : Statistics :=
  let refreshed := { statistics with reportConfig := config }
  if net then
    let switched := if config.enable then refreshed.initReportThread else refreshed.stop
    let (stored, storage) := switched.persistence.updateConfig switched.reportConfig
    { switched with reportConfig := stored, persistence := storage }
  else refreshed

def initHistory (statistics : Statistics) (now : UInt64) : Option Statistics :=
  let configured := match statistics.persistence.getLatestConfig with
    | some config => statistics.refreshConfig config false
    | none => statistics
  let pending := configured.persistence.getEvents
  if pending = [] then some configured
  else
    (configured.reportQueue.putAll
        (pending.filter fun event => !configured.eventExpired now event)).map
      fun queue => { configured with reportQueue := queue }

/-- `InitRequest`, as far as it touches the reporter. -/
def initRequest (statistics : Statistics) : Statistics := { statistics with running := true }

def init (statistics : Statistics) (uuid : Str) (now : UInt64) : Option Statistics :=
  ((statistics.newGameSession uuid).initHistory now).map (·.initReportThread.initRequest)

/-! ### Handlers -/

structure User where
  userId : Str
  containTapInfo : Bool

def gameStart (statistics : Statistics) (gameId gamePkg : Str) (now : UInt64) : Statistics :=
  let started := { statistics with gameId := gameId, gamePkg := gamePkg }
  { started with handler := some ⟨started.newEvent .gameStart now 0,
    [.addOrMergeEvent, .putEvent, .startSession, .updateSession]⟩ }

/-- `OnForeground` and `OnBackground`, which differ in the action and the flag; without a game the
assertion throws. -/
def onWindow (statistics : Statistics) (foreground : Bool) (now : UInt64) : Statistics :=
  if statistics.gameId = [] then statistics
  else
    let action : EventAction := if foreground then .gameForeground else .gameBackground
    { statistics with
      foreground := foreground
      handler := some ⟨statistics.newEvent action now statistics.localSession.lastTimestamp,
        [.touchSession, .updateSession, .addOrMergeEvent, .putEvent]⟩ }

def onForeground (statistics : Statistics) (now : UInt64) : Statistics :=
  statistics.onWindow true now

def onBackground (statistics : Statistics) (now : UInt64) : Statistics :=
  statistics.onWindow false now

def setSessionUser (statistics : Statistics) : Statistics :=
  { statistics with localSession := { statistics.localSession with
    userId := statistics.userId, tapUser := statistics.tapUser } }

def onNewUser (statistics : Statistics) (user : Option User) (now : UInt64) : Statistics :=
  match user with
  | some user =>
      if statistics.userId ≠ user.userId then
        let login := { statistics with tapUser := user.containTapInfo, userId := user.userId }
        { login with
          handler := some ⟨login.newEvent .userLogin now login.localSession.lastTimestamp,
            [.touchSession, .updateSession, .addOrMergeEvent, .putEvent, .userSession,
              .updateSession]⟩ }
      else statistics.setSessionUser.saveSession
  | none =>
      let logout := { statistics with tapUser := false, userId := [] }
      { logout with
        handler := some ⟨logout.newEvent .userLogout now logout.localSession.lastTimestamp,
          [.touchSession, .userSession, .updateSession, .addOrMergeEvent, .putEvent]⟩ }

/-- One step of a handler: the event, which may have got its id, and the state. -/
def perform (statistics : Statistics) (event : DurEvent) :
    HandlerStep → Option (DurEvent × Statistics)
  | .startSession => some (event, { statistics with localSession := { statistics.localSession with
      gameId := statistics.gameId, gamePkg := statistics.gamePkg, gameStart := event.timestamp
      lastBeats := event.timestamp, lastTimestamp := event.timestamp } })
  | .touchSession => some (event, { statistics with localSession := { statistics.localSession with
      lastBeats := event.timestamp, lastTimestamp := event.timestamp } })
  | .userSession => some (event, statistics.setSessionUser)
  | .updateSession => some (event, statistics.saveSession)
  | .addOrMergeEvent =>
      let (stored, storage) := statistics.persistence.addOrMergeEvent event
      some (stored, { statistics with persistence := storage })
  | .putEvent =>
      (statistics.reportQueue.put event).map fun queue =>
        (event, { statistics with reportQueue := queue })

def handlerStep (statistics : Statistics) : Option Statistics :=
  match statistics.handler with
  | some ⟨event, step :: todo⟩ =>
      (statistics.perform event step).map fun (event, next) =>
        { next with handler := if todo = [] then none else some ⟨event, todo⟩ }
  | _ => none

/-- The timer event `local_heat_beat`, which takes no lock. -/
def localHeatBeat (statistics : Statistics) (now : UInt64) : Statistics :=
  if statistics.foreground ∧ statistics.gameId ≠ [] then
    saveSession { statistics with
      localSession := { statistics.localSession with lastBeats := now } }
  else statistics

def onlineHeatBeat (statistics : Statistics) (now : UInt64) : Option Statistics :=
  if statistics.foreground ∧ statistics.gameId ≠ [] then
    if statistics.handler = none then
      let event := statistics.newEvent .heatBeat now statistics.localSession.lastTimestamp
      (statistics.reportQueue.put event).map fun queue => { statistics with reportQueue := queue }
    else none
  else some statistics

/-! ### The reporter -/

/-- The pass of the reporter over its batch: the batch, in which the first heartbeat may have got
new times, what is to be reported, and whether a heartbeat is in it. -/
def buildReports (statistics : Statistics) (now : UInt64) :
    List DurEvent → Bool → List DurEvent × List DurEvent × Bool
  | [], hasHeatBeats => ([], [], hasHeatBeats)
  | event :: rest, hasHeatBeats =>
      if event.action ≠ .heatBeat then
        let (events, reports, last) := buildReports statistics now rest hasHeatBeats
        (event :: events, event :: reports, last)
      else if hasHeatBeats || !statistics.foreground then
        let (events, reports, last) := buildReports statistics now rest hasHeatBeats
        (event :: events, reports, last)
      else
        let beat := { event with
          timestamp := now, lastTimestamp := statistics.localSession.lastTimestamp }
        let (events, reports, last) := buildReports statistics now rest true
        (beat :: events, beat :: reports, last)

structure ReporterInput where
  -- What is in `report_success` before it is assigned.
  uninitialized : Bool
  now : UInt64
  answer : Answer

def setReporter (statistics : Statistics) (reporter : Reporter) : Statistics :=
  { statistics with reportThread := some reporter }

/-- One step of the thread that `InitReportThread` starts. -/
def reporterStep (statistics : Statistics) (input : ReporterInput) : Option Statistics :=
  match statistics.reportThread with
  | none | some .exited => none
  | some .loop => some (statistics.setReporter (if statistics.running then .waiting else .exited))
  | some .waiting =>
      (statistics.reportQueue.take maxReportEvents).map fun (events, queue) =>
        { statistics with reportQueue := queue }.setReporter (.building events input.uninitialized)
  | some (.building events reportSuccess) =>
      let (events, reports, hasHeatBeats) := statistics.buildReports input.now events false
      some (statistics.setReporter
        (if reports = [] then .checking events reportSuccess
          else .posting events reports input.now hasHeatBeats))
  | some (.posting events _ now hasHeatBeats) =>
      some (statistics.setReporter (.answered events now hasHeatBeats input.answer))
  | some (.answered events now hasHeatBeats answer) =>
      let deleted := { statistics with persistence := statistics.persistence.delete events }
      if answer = .success then
        some (deleted.setReporter
          (if hasHeatBeats then .beating events now else .checking events true))
      else if answer.discards then some (deleted.setReporter .loop)
      else some (statistics.setReporter (.checking events false))
  | some (.beating events now) =>
      if statistics.handler = none then
        let beaten := if now > statistics.localSession.lastTimestamp then
            saveSession { statistics with
              localSession := { statistics.localSession with lastTimestamp := now } }
          else statistics
        some (beaten.setReporter (.checking events true))
      else none
  | some (.checking events reportSuccess) =>
      some (statistics.setReporter
        (if !reportSuccess && statistics.running then .building events reportSuccess else .loop))

/-! ### Runs -/

inductive Op where
  | gameStart (gameId gamePkg : Str) (now : UInt64)
  | onForeground (now : UInt64)
  | onBackground (now : UInt64)
  | onNewUser (user : Option User) (now : UInt64)
  | handler
  | localHeatBeat (now : UInt64)
  | onlineHeatBeat (now : UInt64)
  | reporter (input : ReporterInput)
  | refreshConfig (config : ReportConfig)

/-- A handler starts once `event_lock` is free. -/
def locked (statistics next : Statistics) : Option Statistics :=
  if statistics.handler = none then some next else none

def step (statistics : Statistics) (op : Op) : Option Statistics :=
  if statistics.terminated then none
  else
    match op with
    | .gameStart gameId gamePkg now =>
        statistics.locked (statistics.gameStart gameId gamePkg now)
    | .onForeground now => statistics.locked (statistics.onForeground now)
    | .onBackground now => statistics.locked (statistics.onBackground now)
    | .onNewUser user now => statistics.locked (statistics.onNewUser user now)
    | .handler => statistics.handlerStep
    | .localHeatBeat now => some (statistics.localHeatBeat now)
    | .onlineHeatBeat now => statistics.onlineHeatBeat now
    | .reporter input => statistics.reporterStep input
    | .refreshConfig config => some (statistics.refreshConfig config true)

/-- The statistics from `Init` on, over any storage. -/
def system : System Statistics Op where
  init statistics := ∃ storage deviceId uuid now,
    (construct storage deviceId).init uuid now = some statistics
  step := step

end Statistics

end TapSdk.Duration
