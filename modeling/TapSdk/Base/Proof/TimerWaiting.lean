import TapSdk.Base.Proof.TimerQueue

/-!
# What waits in the timer

The messages that have not been called: those in the queue, and the one that `Advance` has taken out
and is about to call. A post adds one and a call takes one away; nothing else changes what waits.
-/

namespace TapSdk.Timer.TimerRun

open Library

variable {heap : HeapFunctions Message} {run next : TimerRun}

def inFlight (run : TimerRun) : List Message :=
  match run.timer.phase with
  | .invoking message => [message]
  | _ => []

/-- The messages that have not been called yet. -/
def waiting (run : TimerRun) : List Message := run.timer.msgQueue ++ run.inFlight

def isInvoking : Phase → Bool
  | .invoking _ => true
  | _ => false

theorem inFlight_of_phase {phase : Phase} (hphase : run.timer.phase = phase)
    (hnot : isInvoking phase = false) : run.inFlight = [] := by
  unfold inFlight
  rw [hphase]
  cases phase with
  | invoking message => cases hnot
  | _ => rfl

/-- A message was posted at this time. -/
structure Posted (run : TimerRun) (message : Message) (now : Int) (next : TimerRun) : Prop where
  waiting : next.waiting.Perm (message :: run.waiting)
  called : next.called = run.called
  before : run.clock ≤ now
  clock : next.clock = now

theorem posted_of_step (hheap : heap.Correct Message.key) (horderly : run.Orderly)
    {event : EventId} {duration now : Int} {userData : Nat}
    (hstep : run.step heap (.postEvent event duration userData now) = some next) :
    run.Posted (run.timer.newMessage event duration userData now) now next := by
  simp only [step] at hstep
  split at hstep
  · rename_i henabled
    obtain rfl := Option.some.inj hstep
    obtain ⟨_, hperm⟩ := CoreTimer.postEvent_spec hheap horderly.heap event duration userData now
    have hfront := hperm.trans List.perm_append_comm
    exact ⟨hfront.append_right run.inFlight, rfl, henabled.2.2, rfl⟩
  · cases hstep

/-- Nothing was posted, and nothing called. -/
structure Quiet (run next : TimerRun) : Prop where
  waiting : next.waiting.Perm run.waiting
  called : next.called = run.called
  clock : run.clock ≤ next.clock

theorem quiet_scan (hheap : heap.Correct Message.key) (horderly : run.Orderly)
    (hstep : run.step heap .scan = some next) : run.Quiet next := by
  simp only [step] at hstep
  split at hstep
  · rename_i hphase
    have hnone : run.inFlight = [] := inFlight_of_phase hphase rfl
    rcases @CoreTimer.scan_cases heap run.timer with
      ⟨front, rest, hqueue, _, hscan⟩ | ⟨front, rest, hqueue, _, hscan⟩ | ⟨hqueue, hscan⟩
    · rw [hqueue, hscan] at hstep
      cases hstep
      have hheapQueue := horderly.heap
      unfold CoreTimer.IsHeapQueue at hheapQueue
      rw [hqueue] at hheapQueue
      obtain ⟨_, hperm⟩ := CoreTimer.popFront_spec hheap hheapQueue
      refine ⟨?_, rfl, le_refl _⟩
      rw [waiting, waiting, hnone, hqueue, List.append_nil]
      exact (hperm.append_right [front]).trans List.perm_append_comm
    · rw [hqueue, hscan] at hstep
      cases hstep
      refine ⟨?_, rfl, le_refl _⟩
      rw [waiting, waiting, hnone]
      exact List.Perm.refl _
    · rw [hqueue, hscan] at hstep
      cases hstep
      refine ⟨?_, rfl, le_refl _⟩
      rw [waiting, waiting, hnone]
      exact List.Perm.refl _
  · cases hstep

theorem waiting_of_invoking {message : Message} (hphase : run.timer.phase = .invoking message) :
    run.waiting.Perm (message :: run.timer.msgQueue) := by
  have hflight : run.inFlight = [message] := by rw [inFlight, hphase]
  rw [waiting, hflight]
  exact List.perm_append_comm

theorem waiting_of_phase {phase : Phase} (hphase : run.timer.phase = phase)
    (hnot : isInvoking phase = false) : run.waiting = run.timer.msgQueue := by
  rw [waiting, inFlight_of_phase hphase hnot, List.append_nil]

theorem waiting_invoke (hstep : run.step heap .invoke = some next) :
    ∃ message, run.timer.phase = .invoking message ∧ run.waiting.Perm (message :: next.waiting)
      ∧ next = { run with
          timer := run.timer.setPhase .invoked
          called := run.called ++ (run.timer.invoke message).toList } := by
  simp only [step] at hstep
  split at hstep
  · rename_i message hphase
    obtain rfl := Option.some.inj hstep
    refine ⟨message, hphase, ?_, rfl⟩
    rw [@waiting_of_phase { run with
      timer := run.timer.setPhase .invoked
      called := run.called ++ (run.timer.invoke message).toList } .invoked rfl rfl]
    exact waiting_of_invoking hphase
  · cases hstep

/-- `Advance` reads the clock, from outside or after a callback. -/
theorem quiet_readClock {op : TimerOp} {now : Int} (hop : op = .advance now ∨ op = .relock now)
    (hstep : run.step heap op = some next) :
    run.Quiet next ∧ next = { run with timer := run.timer.readClock now, clock := now } := by
  rcases hop with rfl | rfl
  all_goals
    simp only [step] at hstep
    split at hstep
    · rename_i henabled
      obtain rfl := Option.some.inj hstep
      refine ⟨⟨?_, rfl, henabled.2⟩, rfl⟩
      rw [waiting, waiting, inFlight_of_phase henabled.1 rfl]
      exact List.Perm.refl _
    · cases hstep

/-- The messages of one event that wait. -/
def messagesOf (run : TimerRun) (event : EventId) : List Message :=
  run.waiting.filter fun message => message.event = some event

/-- One message more waits in the one state than in the other. -/
theorem messagesOf_cons {message : Message} (hwaiting : next.waiting.Perm (message :: run.waiting))
    (event : EventId) : (next.messagesOf event).Perm
      ((if message.event = some event then [message] else []) ++ run.messagesOf event) := by
  have hfiltered := hwaiting.filter fun message => message.event = some event
  rw [List.filter_cons] at hfiltered
  unfold messagesOf
  split at hfiltered <;> rename_i hevent <;> simp only [decide_eq_true_eq] at hevent
  · rw [if_pos hevent]
    exact hfiltered
  · rw [if_neg hevent]
    exact hfiltered

theorem length_messagesOf_cons {message : Message}
    (hwaiting : next.waiting.Perm (message :: run.waiting)) (event : EventId) :
    (next.messagesOf event).length
      = (decide (message.event = some event)).toNat + (run.messagesOf event).length := by
  rw [(messagesOf_cons hwaiting event).length_eq, List.length_append]
  by_cases hevent : message.event = some event <;> simp [hevent]

theorem Quiet.messagesOf (hquiet : run.Quiet next) (event : EventId) :
    (next.messagesOf event).Perm (run.messagesOf event) := hquiet.waiting.filter _

end TapSdk.Timer.TimerRun
