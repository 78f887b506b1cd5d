import TapSdk.Base.Timer
import TapSdk.Duration.Statistics

/-!
# The events of the statistics on the timer

What `duration/duration.cpp` does on the timer. The two heartbeats post themselves again, and so
does the request for the configuration when it fails; the interval of the online heartbeat comes
from the configuration and the user. A callback runs within `Advance`, without `basic_lock`, and
`Advance` goes on when it has returned. What the callbacks store and queue is not here: it is in the
statistics.

The times at which `GameStart` posted, and those at which the online heartbeat fired, are a record
that the program does not have.
-/

namespace TapSdk.Duration

open Library Timer

/-- `Ms`, in nanoseconds, of a count that was computed in 32 bits. -/
def ms (count : UInt32) : Int := 1000000 * (count.toNat : Int)

def localHeatBeatInterval : Int := ms (5 * 1000)

def configRetry : Int := ms (3 * 1000)

/-- A local variable of the callback, so that every call starts with it. -/
def configRetryTimes : Int := 3

inductive OwnEvent where
  | localHeatBeat
  | onlineHeatBeat
  | requestConfig
  deriving DecidableEq

namespace OwnEvent

def id : OwnEvent → EventId
  | .localHeatBeat => 0
  | .onlineHeatBeat => 1
  | .requestConfig => 2

def ofId : EventId → Option OwnEvent
  | 0 => some .localHeatBeat
  | 1 => some .onlineHeatBeat
  | 2 => some .requestConfig
  | _ => none

end OwnEvent

/-- How far `Init` has come. -/
inductive Stage where
  | constructed
  -- After `NewGameSession`.
  | opened
  -- After `InitHeatBeats`.
  | beating
  -- After `InitRequest`.
  | initialized
  deriving DecidableEq

/-- A callback that is running, and the clock as `Advance` had read it before the call. -/
structure Callback where
  event : OwnEvent
  reading : Int

/-- The online heartbeat fired and was posted again. -/
structure Beat where
  reading : Int
  deadline : Int

structure TimerEvents where
  run : TimerRun
  stage : Stage
  reportConfig : ReportConfig
  onlineHeatBeatInterval : Int
  onlineHeatBeatIntervalNoTap : Int
  onlineTickInterval : Int
  tapUser : Bool
  userId : Str
  callback : Option Callback
  gameStarts : List Int
  beats : List Beat

namespace TimerEvents

def construct (clock : Int) (event : EventId → Event) : TimerEvents where
  run := TimerRun.start clock event
  stage := .constructed
  reportConfig := ReportConfig.default
  onlineHeatBeatInterval := ms (ReportConfig.default.tapFrequency * 1000)
  onlineHeatBeatIntervalNoTap := ms (ReportConfig.default.noTapFrequency * 1000)
  onlineTickInterval := ms (ReportConfig.default.noTapFrequency * 1000)
  tapUser := false
  userId := []
  callback := none
  gameStarts := []
  beats := []

def selectTick (state : TimerEvents) : TimerEvents :=
  { state with onlineTickInterval :=
      if state.tapUser then state.onlineHeatBeatInterval else state.onlineHeatBeatIntervalNoTap }

/-- `NewGameSession`, with what `GetLatestSession` returns. -/
def newGameSession (state : TimerEvents) : Option GameSession → TimerEvents
  | some session => selectTick { state with userId := session.userId, tapUser := session.tapUser }
  | none => state

def refreshConfig (state : TimerEvents) (config : ReportConfig) : TimerEvents :=
  selectTick { state with
    reportConfig := config
    onlineHeatBeatInterval := ms (config.tapFrequency * 1000)
    onlineHeatBeatIntervalNoTap := ms (config.noTapFrequency * 1000) }

def onNewUser (state : TimerEvents) : Option Statistics.User → TimerEvents
  | some user =>
      if state.userId ≠ user.userId then
        selectTick { state with tapUser := user.containTapInfo, userId := user.userId }
      else state.selectTick
  | none =>
      { state with
        tapUser := false
        userId := []
        onlineTickInterval := state.onlineHeatBeatIntervalNoTap }

section

variable (heap : HeapFunctions Message)

def post (state : TimerEvents) (event : OwnEvent) (duration : Int) (now : Int) :
    Option TimerEvents :=
  (state.run.step heap (.postEvent event.id duration 0 now)).map fun run =>
    { state with run := run }

/-- The callback that `Event::Invoke` calls, if it is one of the statistics. -/
def calls (state : TimerEvents) : Option Callback :=
  match state.run.timer.phase with
  | .invoking message =>
      (state.run.timer.invoke message).bind fun call =>
        (OwnEvent.ofId call.event).map fun event => ⟨event, state.run.timer.globalTimer⟩
  | _ => none

/-- The rest of a callback, from where it posts or has the result of its request. -/
def finish (state : TimerEvents) (result : Option ReportConfig) (now : Int) :
    Callback → Option TimerEvents
  | ⟨.localHeatBeat, _⟩ => state.post heap .localHeatBeat localHeatBeatInterval now
  | ⟨.onlineHeatBeat, reading⟩ =>
      (state.post heap .onlineHeatBeat state.onlineTickInterval now).map fun next =>
        { next with beats := next.beats ++ [⟨reading, state.onlineTickInterval + now⟩] }
  | ⟨.requestConfig, _⟩ =>
      match result with
      | some config => some (state.refreshConfig config)
      | none =>
          if configRetryTimes > 0 then state.post heap .requestConfig configRetry now
          else some state

end

inductive Op where
  | newGameSession (latest : Option GameSession)
  -- The clock is read for each of the two posts.
  | initHeatBeats (now later : Int)
  -- The cached configuration is read, and the event `request_config` made.
  | initHistory (cached : Option ReportConfig)
  | onNewUser (user : Option Statistics.User)
  -- The last line of `GameStart`.
  | gameStart (now : Int)
  -- `Advance`, and what others do with events of their own.
  | timer (op : TimerOp)
  | finish (result : Option ReportConfig) (now : Int)

/-- What others do: they have no hold of these events, and nobody takes anything out of the
timer. -/
def foreign : TimerOp → Bool
  | .postEvent event _ _ _ | .dropEvent event => OwnEvent.ofId event = none
  | .removeMessage _ | .removeEvent _ => false
  | _ => true

def timerStep (heap : HeapFunctions Message) (state : TimerEvents) : TimerOp → Option TimerEvents
  | .invoke =>
      (state.run.step heap .invoke).map fun run =>
        { state with run := run, callback := state.calls }
  | .relock now =>
      -- the callback has returned
      if state.callback.isNone then
        (state.run.step heap (.relock now)).map fun run => { state with run := run }
      else none
  | op =>
      if foreign op then (state.run.step heap op).map fun run => { state with run := run } else none

def step (heap : HeapFunctions Message) (state : TimerEvents) : Op → Option TimerEvents
  | .newGameSession latest =>
      if state.stage = .constructed then
        some { state.newGameSession latest with stage := .opened }
      else none
  | .initHeatBeats now later =>
      if state.stage = .opened then
        (state.post heap .localHeatBeat localHeatBeatInterval now).bind fun posted =>
          (posted.post heap .onlineHeatBeat posted.onlineTickInterval later).map fun next =>
            { next with stage := .beating }
      else none
  | .initHistory cached =>
      if state.stage = .beating then
        some { (cached.elim state state.refreshConfig) with stage := .initialized }
      else none
  | .onNewUser user => if state.stage = .constructed then none else some (state.onNewUser user)
  | .gameStart now =>
      if state.stage = .initialized then
        (state.post heap .requestConfig 0 now).map fun next =>
          { next with gameStarts := next.gameStarts ++ [now] }
      else none
  | .timer op => state.timerStep heap op
  | .finish result now =>
      state.callback.bind fun callback =>
        (state.finish heap result now callback).map fun next => { next with callback := none }

def system (heap : HeapFunctions Message) : System TimerEvents Op where
  init state := ∃ clock event, (∀ own : OwnEvent, event own.id = ⟨true, true⟩)
    ∧ state = construct clock event
  step state op := state.step heap op

/-- How often the callback of the event has been called. -/
def called (state : TimerEvents) (event : OwnEvent) : Nat :=
  state.run.called.countP fun call => call.event = event.id

end TimerEvents

end TapSdk.Duration
