import TapSdk.Library.Ledger
import TapSdk.Tracker.Manager

/-!
# The tracker as its callers see it

The manager together with what can be observed from outside: which message objects have been
flushed, for which of them `FlushTracker` returned `true`, and the groups whose upload was reported
as a success. The ledger beside it is the account that is to be checked against the files: it says,
message by message, in which slot a message was put and with which upload it left.
-/

namespace TapSdk.Tracker

open Library

/-- A message object, with its contents when it was flushed. -/
abbrev Flushed := Nat × TrackMessageImpl

abbrev Slot := UInt64 × Nat

structure Service where
  manager : Manager
  -- The flag `flushed` of every message object.
  flushed : Nat → Bool
  -- The messages for which `FlushTracker` returned `true`.
  acknowledged : List Flushed
  -- The groups whose upload was completed with success.
  uploads : List LogGroup
  ledger : Ledger Slot Flushed

inductive ServiceOp where
  | flush (id : Nat) (message : TrackMessageImpl) (env : FlushEnv)
  | check (order : List UInt64) (clock : Nat → UInt32)
  | complete (position : Nat) (success : Bool) (env : CompletionEnv)
  | restart (names : List Str) (env : LoadEnv)

namespace Service

variable (ext : Externals)

/-- The first start, in a directory without files. -/
def start (trackerGroupSize : UInt32) : Service where
  manager := Manager.empty (fun _ => none) trackerGroupSize
  flushed := fun _ => false
  acknowledged := []
  uploads := []
  ledger := Ledger.empty

/-- `FlushTracker`. The flag is set before anything else is tried. -/
def flush (service : Service) (id : Nat) (message : TrackMessageImpl) (env : FlushEnv) : Service :=
  if service.flushed id then service
  else
    let (taken, manager) := service.manager.flushTracker ext message env
    let tried := { service with
      manager := manager
      flushed := fun other => if other = id then true else service.flushed other }
    match taken, message.config with
    | some index, some config => { tried with
        acknowledged := service.acknowledged ++ [(id, message)]
        ledger := service.ledger.accept (config.hash, index) (id, message) }
    | _, _ => tried

/-- `FlushTracker` as it is called: before `Init` and without a message it returns at once, and so
it does for a message that is flagged already. -/
def flushTracker (service : Service) (inited : Bool) (tracker : Option Flushed) (env : FlushEnv) :
    Bool × Service :=
  match inited, tracker with
  | true, some (id, message) =>
      if service.flushed id then (false, service)
      else
        ((service.manager.flushTracker ext message env).1.isSome, service.flush ext id message env)
  | _, _ => (false, service)

def complete (service : Service) (position : Nat) (success : Bool) (env : CompletionEnv) :
    Option Service :=
  match service.manager.inFlight[position]?, service.manager.complete ext position success env with
  | some upload, some manager =>
      if success then
        some { service with
          manager := manager
          uploads := service.uploads ++ upload.request.toList
          ledger := service.ledger.deliver (upload.hash, upload.index) }
      else some { service with manager := manager }
  | _, _ => none

def step (service : Service) : ServiceOp → Option Service
  | .flush id message env => some (service.flush ext id message env)
  | .check order clock => some { service with
      manager := service.manager.checkAndUploadTrackers ext order clock }
  | .complete position success env => service.complete ext position success env
  | .restart names env => some { service with
      manager := service.manager.restart ext service.manager.files names env }

def system (trackerGroupSize : UInt32) : System Service ServiceOp where
  init service := service = start trackerGroupSize
  step service op := service.step ext op

end Service

end TapSdk.Tracker
