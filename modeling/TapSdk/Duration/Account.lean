import TapSdk.Duration.Statistics

/-!
# What became of an event

The statistics together with a record of the run: which events the handlers have stored, in order,
everything that was put in the queue, how much of it has been taken, and which entries are settled.
The record tells apart events that are equal; the program does not have it.
-/

namespace TapSdk.Duration

open Library

structure Entry where
  event : DurEvent
  -- For an event that a handler has put: its position among the stored events. A heartbeat, and an
  -- event that was found at the start, has none.
  ticket : Option Nat

structure Account where
  statistics : Statistics
  -- What `AddOrMergeEvent` has stored for the handlers, in order.
  stored : List DurEvent
  entries : List Entry
  taken : Nat
  -- A POST with the entry has succeeded, or a client error other than 404 has discarded it.
  settled : Nat → Bool

def Answer.settles (answer : Answer) : Bool := answer = .success || answer.discards

namespace Account

/-- After `Init`, with the history in the queue. -/
def start (statistics : Statistics) : Account where
  statistics := statistics
  stored := []
  entries := statistics.reportQueue.queue.map fun event => ⟨event, none⟩
  taken := 0
  settled := fun _ => false

def recordHandler (account : Account) (next : Statistics) : Account :=
  match account.statistics.handler with
  | some ⟨event, .addOrMergeEvent :: _⟩ => { account with
      statistics := next
      stored := account.stored
        ++ [(account.statistics.persistence.addOrMergeEvent event).1] }
  | some ⟨event, .putEvent :: _⟩ => { account with
      statistics := next
      entries := account.entries ++ [⟨event, some (account.stored.length - 1)⟩] }
  | _ => { account with statistics := next }

def recordReporter (account : Account) (input : Statistics.ReporterInput) (next : Statistics) :
    Account :=
  match account.statistics.reportThread with
  | some .waiting => { account with
      statistics := next
      taken := account.taken
        + (account.statistics.reportQueue.queue.length - next.reportQueue.queue.length) }
  | some (.posting events ..) => { account with
      statistics := next
      settled := fun position => account.settled position
        || (input.answer.settles && decide (account.taken - events.length ≤ position)
          && decide (position < account.taken)) }
  | _ => { account with statistics := next }

def record (account : Account) (next : Statistics) : Statistics.Op → Account
  | .handler => account.recordHandler next
  | .reporter input => account.recordReporter input next
  | .onlineHeatBeat _ => { account with
      statistics := next
      entries := account.entries
        ++ (next.reportQueue.queue.drop account.statistics.reportQueue.queue.length).map
          fun event => ⟨event, none⟩ }
  | _ => { account with statistics := next }

def step (account : Account) (op : Statistics.Op) : Option Account :=
  (account.statistics.step op).map fun next => account.record next op

def system : System Account Statistics.Op where
  init account := ∃ statistics, Statistics.system.init statistics ∧ account = start statistics
  step := step

end Account

end TapSdk.Duration
