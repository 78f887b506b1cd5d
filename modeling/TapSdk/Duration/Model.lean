import TapSdk.Library.Table

/-!
# Duration events, sessions and the report configuration

`duration/dur_model.h` and the storage of `duration/persistence.cpp`. The members of an event that
the reporter fills in before it reports, and that are not stored, are left out. Ids are
autoincrement keys; an id of zero marks an object that has not been stored.
-/

namespace TapSdk.Duration

open Library

abbrev Str := List UInt8

inductive EventAction where
  | nullEvent
  | gameStart
  | gameForeground
  | gameBackground
  | gameEnd
  | heatBeat
  | userLogin
  | userLogout
  deriving DecidableEq

structure DurEvent where
  id : Nat
  action : EventAction
  tapUser : Bool
  userId : Str
  gameId : Str
  gamePkg : Str
  deviceId : Str
  session : Str
  timestamp : UInt64
  lastTimestamp : UInt64
  deriving DecidableEq

structure GameSession where
  id : Nat
  tapUser : Bool
  session : Str
  userId : Str
  gameId : Str
  gamePkg : Str
  gameStart : UInt64
  lastBeats : UInt64
  lastTimestamp : UInt64
  deriving DecidableEq

structure ReportConfig where
  id : Nat
  enable : Bool
  noTapEnable : Bool
  tapFrequency : UInt32
  noTapFrequency : UInt32
  availableStartTs : UInt64
  deriving DecidableEq

def ReportConfig.default : ReportConfig := ⟨0, true, true, 150, 300, 0⟩

def GameSession.default : GameSession := ⟨0, false, [], [], [], [], 0, 0, 0⟩

/-! ### Storage -/

/-- The three tables of `tap_dur.sqlite`. -/
structure DurPersistence where
  events : Table DurEvent
  sessions : Table GameSession
  configs : Table ReportConfig

namespace DurPersistence

def insertEvent (storage : DurPersistence) (event : DurEvent) : DurEvent × DurPersistence :=
  ({ event with id := storage.events.sequence + 1 },
    { storage with events := storage.events.insert fun id => { event with id := id } })

/-- `AddOrMergeEvent`; the event comes back with its id. -/
def addOrMergeEvent (storage : DurPersistence) (event : DurEvent) : DurEvent × DurPersistence :=
  match storage.events.latest with
  | some (id, old) =>
      if event.action = old.action ∧ old.session = event.session then
        let merged := { event with id := id }
        (merged, { storage with events := storage.events.update id merged })
      else storage.insertEvent event
  | none => storage.insertEvent event

def delete (storage : DurPersistence) (events : List DurEvent) : DurPersistence :=
  { storage with
    events := events.foldl
      (fun table event => if event.id ≠ 0 then table.remove event.id else table) storage.events }

def getEvents (storage : DurPersistence) : List DurEvent :=
  storage.events.all.map fun (id, row) => { row with id := id }

/-- `UpdateSession`; the session comes back with its id. -/
def updateSession (storage : DurPersistence) (session : GameSession) :
    GameSession × DurPersistence :=
  if session.id = 0 then
    ({ session with id := storage.sessions.sequence + 1 },
      { storage with sessions := storage.sessions.insert fun id => { session with id := id } })
  else (session, { storage with sessions := storage.sessions.update session.id session })

/-- `UpdateConfig`; the configuration comes back with its id. -/
def updateConfig (storage : DurPersistence) (config : ReportConfig) :
    ReportConfig × DurPersistence :=
  if config.id = 0 then
    ({ config with id := storage.configs.sequence + 1 },
      { storage with configs := storage.configs.insert fun id => { config with id := id } })
  else (config, { storage with configs := storage.configs.update config.id config })

def getLatestConfig (storage : DurPersistence) : Option ReportConfig :=
  storage.configs.latest.map fun (id, row) => { row with id := id }

def getLatestSession (storage : DurPersistence) : Option GameSession :=
  storage.sessions.latest.map fun (id, row) => { row with id := id }

end DurPersistence

end TapSdk.Duration
