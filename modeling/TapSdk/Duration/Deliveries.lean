import TapSdk.Duration.Launches

/-!
# What was delivered

A device together with the events of its successful POSTs, in order. A heartbeat stands for the time
since `last_timestamp`, and `last_timestamp` moves only after its POST has succeeded. The record
also says whether a handler has stamped an event with the old `last_timestamp` since the reporter
built what it is posting.
-/

namespace TapSdk.Duration

open Library

/-- A time in the interval the event stands for. -/
def DurEvent.Covers (event : DurEvent) (time : UInt64) : Prop :=
  event.lastTimestamp < time ∧ time ≤ event.timestamp

def DurEvent.Overlaps (event other : DurEvent) : Prop :=
  ∃ time, event.Covers time ∧ other.Covers time

namespace Statistics

/-- What the POST in flight delivers if this is the answer. -/
def deliveredBy (statistics : Statistics) : Op → List DurEvent
  | .reporter input =>
      match statistics.reportThread with
      | some (.posting _ reports _ _) => if input.answer = .success then reports else []
      | _ => []
  | _ => []

/-- A handler has stamped its event, and `local_session` still has the times from before. -/
def stamping (statistics : Statistics) : Bool :=
  statistics.handler.any fun handler => handler.todo.head? = some .touchSession

/-- The step builds a new report. -/
def builds (statistics : Statistics) : Op → Bool
  | .reporter _ =>
      match statistics.reportThread with
      | some (.building _ _) => true
      | _ => false
  | _ => false

/-- The time of a heartbeat that was delivered and is still to be saved. -/
def unsavedBeat (statistics : Statistics) : Option UInt64 :=
  match statistics.reportThread with
  | some (.answered _ now true .success) | some (.beating _ now) => some now
  | _ => none

/-- The step stamps an event with `last_timestamp`, or destroys the thread of the reporter. -/
def disturbs (statistics : Statistics) : Op → Bool
  | .onForeground _ | .onBackground _ => statistics.gameId ≠ []
  | .onNewUser (some user) _ => statistics.userId ≠ user.userId
  | .onNewUser none _ => true
  | .refreshConfig config => config.enable && !statistics.running
  | _ => false

/-- The POST in flight carries a heartbeat. -/
def postsBeat (statistics : Statistics) : Bool :=
  match statistics.reportThread with
  | some (.posting _ _ _ hasHeatBeats) => hasHeatBeats
  | _ => false

end Statistics

structure Deliveries where
  device : Device
  delivered : List DurEvent
  stamped : Bool

namespace Deliveries

def start : Deliveries := ⟨Device.start, [], false⟩

def record (deliveries : Deliveries) (next : Device) : Device.Op → Deliveries
  | .run op =>
      match deliveries.device.process, next.process with
      | .running statistics, .running after =>
          { device := next
            delivered := deliveries.delivered ++ statistics.deliveredBy op
            stamped := (!statistics.builds op && deliveries.stamped) || after.stamping }
      | _, _ => { deliveries with device := next }
  | _ => { deliveries with device := next }

def step (deliveries : Deliveries) (op : Device.Op) : Option Deliveries :=
  (deliveries.device.step op).map fun next => deliveries.record next op

def system : System Deliveries Device.Op where
  init deliveries := deliveries = start
  step := step

/-- A POST with a heartbeat succeeds only if no handler has stamped an event since it was built, and
until the time of the heartbeat is saved no handler stamps one and the process does not end. -/
def undisturbed (deliveries : Deliveries) : Device.Op → Bool
  | .run op =>
      match deliveries.device.process, op with
      | .running statistics, .reporter input =>
          statistics.postsBeat → input.answer = .success → deliveries.stamped = false
      | .running statistics, op => statistics.disturbs op → statistics.unsavedBeat = none
      | _, _ => true
  | .crash _ =>
      match deliveries.device.process with
      | .running statistics => statistics.unsavedBeat = none
      | _ => true
  | _ => true

end Deliveries

end TapSdk.Duration
