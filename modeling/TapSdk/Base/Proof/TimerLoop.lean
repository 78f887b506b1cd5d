import TapSdk.Base.TimerLoop
import TapSdk.Base.Proof.TimerQueue

/-!
# No wake-up of the timer is lost

A state in which the looper sleeps although somebody has work for it is not reachable. What makes it
so is said per program point. From the moment `Advance` computes a wait until the wait consumes the
bit, an earlier message in the queue means that its poster still has its `Set` to do or has done it.
The same holds of `Resume` from the moment the looper has seen `paused`. Once the destructor has set
both bits, consuming one of them leads out of the loop.
-/

namespace TapSdk.Timer

open Library

variable {heap : HeapFunctions Message}

namespace TimerThreads

variable {threads next : TimerThreads} {op : ThreadOp}

/-- The looper waits for an event that is not set. -/
def Blocked (threads : TimerThreads) : Prop :=
  ((threads.looper = .waitFor ∨ threads.looper = .wait) ∧ threads.hostEvent = false)
    ∨ (threads.looper = .pauseWait ∧ threads.pauseEvent = false)

/-- A message that the wait was not computed for, and nobody about to say so. -/
def PostLost (threads : TimerThreads) : Prop :=
  threads.posting = 0
    ∧ ((threads.looper = .waitFor ∧ ∃ message ∈ threads.timer.msgQueue,
          ∀ time, threads.front = some time → message.when < time)
      ∨ (threads.looper = .wait ∧ threads.timer.msgQueue ≠ []))

def ResumeLost (threads : TimerThreads) : Prop :=
  threads.looper = .pauseWait ∧ threads.paused = false ∧ threads.resuming = 0

/-- The destructor has made both of its `Set` calls. -/
def Signalled (threads : TimerThreads) : Prop :=
  threads.destructor = .hostSet ∨ threads.destructor = .joined

/-! ### The invariant -/

/-- Between the return of `Advance` and the end of the wait it computed. -/
inductive TimedWait : Looper → Prop where
  | returned (nextTime : Int) : TimedWait (.returned (some nextTime))
  | waitFor : TimedWait .waitFor

inductive UntimedWait : Looper → Prop where
  | returned : UntimedWait (.returned none)
  | setWaitSet : UntimedWait .setWaitSet
  | wait : UntimedWait .wait

/-- Between the check that saw `paused` and the end of the wait. -/
inductive PausedWait : Looper → Prop where
  | setPausedSet : PausedWait .setPausedSet
  | pauseWait : PausedWait .pauseWait

/-- The program points from which a stopped timer does not wait on `host_event` again. -/
inductive Leaving : Looper → Prop where
  | clearWaitSet : Leaving .clearWaitSet
  | checkPaused : Leaving .checkPaused
  | setPausedSet : Leaving .setPausedSet
  | pauseWait : Leaving .pauseWait
  | checkShuttingDown : Leaving .checkShuttingDown
  | exited : Leaving .exited

structure HostAlert (threads : TimerThreads) : Prop where
  timed : TimedWait threads.looper → ∃ time, threads.front = some time
    ∧ ((∀ message ∈ threads.timer.msgQueue, time ≤ message.when) ∨ 0 < threads.posting
      ∨ threads.hostEvent = true)
  untimed : UntimedWait threads.looper →
    threads.timer.msgQueue = [] ∨ 0 < threads.posting ∨ threads.hostEvent = true

structure PauseAlert (threads : TimerThreads) : Prop where
  resumes : PausedWait threads.looper →
    threads.paused = true ∨ 0 < threads.resuming ∨ threads.pauseEvent = true

structure Stops (threads : TimerThreads) : Prop where
  shuttingDown : threads.destructor ≠ .none → threads.shuttingDown = true
  paused : threads.destructor ≠ .none → threads.destructor ≠ .shuttingDown → threads.paused = true
  pauseSet : threads.destructor = .pauseSet ∨ threads.Signalled → threads.pauseEvent = true
    ∨ threads.looper = .checkShuttingDown ∨ threads.looper = .exited
  hostSet : threads.Signalled → threads.hostEvent = true ∨ Leaving threads.looper

/-- `paused` is seen before the wait begins, and only a `Resume` takes it back. -/
theorem PauseAlert.step (h : threads.PauseAlert) (hstep : threads.step heap op = some next) :
    next.PauseAlert := by
  obtain ⟨hresumes⟩ := h
  constructor
  cases op with
  | looper =>
      simp only [TimerThreads.step, looperStep] at hstep
      split at hstep <;> grind [PausedWait, setLooper]
  | scan =>
      simp only [TimerThreads.step, scanStep] at hstep
      split at hstep <;> grind [PausedWait, setTimer]
  | timeout =>
      simp only [TimerThreads.step] at hstep
      split at hstep <;> grind [PausedWait, setLooper]
  | destroy =>
      simp only [TimerThreads.step, destructorStep] at hstep
      split at hstep <;> grind [PausedWait]
  | _ => grind [PausedWait, setLooper, setTimer, TimerThreads.step]

/-- The flags are stored before the bits are set, and no call takes them back. -/
theorem Stops.step (h : threads.Stops) (hstep : threads.step heap op = some next) : next.Stops := by
  obtain ⟨hshuttingDown, hpaused, hpauseSet, hhostSet⟩ := h
  unfold Signalled at hpauseSet hhostSet
  cases op with
  | looper =>
      simp only [TimerThreads.step, looperStep] at hstep
      split at hstep <;> constructor <;> grind [Leaving, setLooper, Signalled]
  | scan =>
      simp only [TimerThreads.step, scanStep] at hstep
      split at hstep <;> constructor <;> grind [Leaving, setTimer, Signalled]
  | timeout =>
      simp only [TimerThreads.step] at hstep
      split at hstep <;> constructor <;> grind [Leaving, setLooper, Signalled]
  | destroy =>
      simp only [TimerThreads.step, destructorStep] at hstep
      split at hstep <;> constructor <;> grind [Leaving, Signalled]
  | _ => constructor <;> grind [Leaving, setLooper, setTimer, Signalled, TimerThreads.step]

theorem HostAlert.setTimer (h : threads.HostAlert) {timer : CoreTimer}
    (hsub : ∀ message ∈ timer.msgQueue, message ∈ threads.timer.msgQueue) :
    (threads.setTimer timer).HostAlert := by
  constructor
  · intro htimed
    obtain ⟨time, hfront, halert⟩ := h.timed htimed
    refine ⟨time, hfront, halert.imp_left fun hlate message hmessage => ?_⟩
    exact hlate message (hsub message hmessage)
  · intro huntimed
    refine (h.untimed huntimed).imp_left fun hempty => ?_
    apply List.eq_nil_iff_forall_not_mem.mpr
    intro message hmessage
    have hold := hsub message hmessage
    rw [hempty] at hold
    cases hold

/-- A message that is popped leaves the queue; otherwise the wait is computed from the least one. -/
theorem HostAlert.scanStep (hheap : heap.Correct Message.key) (hqueue : threads.timer.IsHeapQueue)
    (h : threads.HostAlert) : (threads.scanStep heap).HostAlert := by
  unfold CoreTimer.IsHeapQueue at hqueue
  rcases @CoreTimer.scan_cases heap threads.timer with
    ⟨front, rest, hcons, _, hscan⟩ | ⟨front, rest, hcons, _, hscan⟩ | ⟨hnil, hscan⟩
  · simp only [TimerThreads.scanStep, hscan]
    apply h.setTimer
    intro message hmessage
    rw [hcons] at hqueue ⊢
    exact List.mem_cons_of_mem _ ((CoreTimer.popFront_spec hheap hqueue).2.subset hmessage)
  · simp only [TimerThreads.scanStep, hscan]
    constructor
    · intro _
      refine ⟨front.when, by rw [hcons]; rfl, Or.inl fun message hmessage => ?_⟩
      have hmem : message ∈ front :: rest := hcons ▸ hmessage
      rw [hcons] at hqueue
      rcases List.mem_cons.mp hmem with rfl | hrest
      · exact le_refl _
      · exact Message.when_le_of_key_le (hqueue.head_le _ (List.mem_map_of_mem hrest))
    · intro huntimed
      cases huntimed
  · simp only [TimerThreads.scanStep, hscan]
    constructor
    · intro htimed
      cases htimed
    · intro _
      exact Or.inl hnil

theorem isHeapQueue_step (hheap : heap.Correct Message.key) (hqueue : threads.timer.IsHeapQueue)
    (hstep : threads.step heap op = some next) : next.timer.IsHeapQueue := by
  cases op with
  | looper =>
      simp only [TimerThreads.step, looperStep] at hstep
      split at hstep <;> grind [setLooper]
  | scan =>
      simp only [TimerThreads.step] at hstep
      split at hstep
      · cases hstep
        rcases @CoreTimer.scan_cases heap threads.timer with
          ⟨front, rest, hcons, _, hscan⟩ | ⟨front, rest, _, _, hscan⟩ | ⟨_, hscan⟩
        · unfold CoreTimer.IsHeapQueue at hqueue
          rw [hcons] at hqueue
          simp only [scanStep, hscan]
          exact (CoreTimer.popFront_spec hheap hqueue).1
        · simp only [scanStep, hscan]
          exact hqueue
        · simp only [scanStep, hscan]
          exact hqueue
      · cases hstep
  | postEvent event duration userData now =>
      simp only [TimerThreads.step] at hstep
      split at hstep
      · cases hstep
        exact (CoreTimer.postEvent_spec hheap hqueue event duration userData now).1
      · cases hstep
  | removeMessage handle =>
      simp only [TimerThreads.step] at hstep
      split at hstep
      · cases hstep
        exact (CoreTimer.removeIf_spec hheap hqueue _).1
      · cases hstep
  | removeEvent event =>
      simp only [TimerThreads.step] at hstep
      split at hstep
      · cases hstep
        exact (@CoreTimer.removeIf_spec heap (threads.timer.setActive event false) hheap hqueue _).1
      · cases hstep
  | timeout =>
      simp only [TimerThreads.step] at hstep
      split at hstep <;> grind [setLooper]
  | destroy =>
      simp only [TimerThreads.step, destructorStep] at hstep
      split at hstep <;> grind
  | _ => grind [setLooper, setTimer, TimerThreads.step, CoreTimer.readClock, CoreTimer.setPhase,
      CoreTimer.dropEvent, CoreTimer.IsHeapQueue]

theorem HostAlert.step (h : threads.HostAlert) (hheap : heap.Correct Message.key)
    (hqueue : threads.timer.IsHeapQueue) (hstep : threads.step heap op = some next) :
    next.HostAlert := by
  cases op with
  | looper =>
      obtain ⟨htimed, huntimed⟩ := h
      simp only [TimerThreads.step, looperStep] at hstep
      split at hstep <;> constructor <;> grind [TimedWait, UntimedWait, setLooper]
  | timeout =>
      simp only [TimerThreads.step] at hstep
      split at hstep <;> constructor <;> grind [TimedWait, UntimedWait, setLooper]
  | scan =>
      simp only [TimerThreads.step] at hstep
      split at hstep
      · cases hstep
        exact h.scanStep hheap hqueue
      · cases hstep
  | postEvent event duration userData now =>
      simp only [TimerThreads.step] at hstep
      split at hstep
      · cases hstep
        constructor
        · intro htimed
          obtain ⟨time, hfront, _⟩ := h.timed htimed
          exact ⟨time, hfront, Or.inr (Or.inl (Nat.succ_pos _))⟩
        · intro _
          exact Or.inr (Or.inl (Nat.succ_pos _))
      · cases hstep
  | postSet =>
      simp only [TimerThreads.step] at hstep
      split at hstep
      · cases hstep
        constructor
        · intro htimed
          obtain ⟨time, hfront, _⟩ := h.timed htimed
          exact ⟨time, hfront, Or.inr (Or.inr rfl)⟩
        · intro _
          exact Or.inr (Or.inr rfl)
      · cases hstep
  | removeMessage handle =>
      simp only [TimerThreads.step] at hstep
      split at hstep
      · cases hstep
        exact h.setTimer fun message hmessage =>
          (CoreTimer.removeIf_spec hheap hqueue _).2.1.symm.subset (List.mem_append_left _ hmessage)
      · cases hstep
  | removeEvent event =>
      simp only [TimerThreads.step] at hstep
      split at hstep
      · cases hstep
        exact h.setTimer fun message hmessage =>
          (@CoreTimer.removeIf_spec heap (threads.timer.setActive event false) hheap hqueue
            _).2.1.symm.subset (List.mem_append_left _ hmessage)
      · cases hstep
  | advance now =>
      simp only [TimerThreads.step] at hstep
      split at hstep
      · cases hstep
        exact h.setTimer fun _ => id
      · cases hstep
  | invoke =>
      simp only [TimerThreads.step] at hstep
      split at hstep
      · cases hstep
        exact h.setTimer fun _ => id
      · cases hstep
  | relock now =>
      simp only [TimerThreads.step] at hstep
      split at hstep
      · cases hstep
        exact h.setTimer fun _ => id
      · cases hstep
  | dropEvent event =>
      cases hstep
      exact h.setTimer fun _ => id
  | destroy =>
      obtain ⟨htimed, huntimed⟩ := h
      simp only [TimerThreads.step, destructorStep] at hstep
      split at hstep <;> constructor <;> grind
  | _ =>
      obtain ⟨htimed, huntimed⟩ := h
      constructor <;> grind [TimedWait, UntimedWait, setLooper, TimerThreads.step]

structure Alert (threads : TimerThreads) : Prop where
  queue : threads.timer.IsHeapQueue
  host : threads.HostAlert
  pause : threads.PauseAlert
  stops : threads.Stops

theorem alert_of_reaches (hheap : heap.Correct Message.key)
    (hreach : (threadSystem heap).Reachable threads) : threads.Alert := by
  refine hreach.invariant Alert ?_ ?_
  · rintro threads ⟨event, rfl⟩
    refine ⟨isHeap_nil, ⟨fun h => ?_, fun h => ?_⟩, ⟨fun h => ?_⟩, ⟨?_, ?_, ?_, ?_⟩⟩
    · cases h
    · cases h
    · cases h
    · exact fun h => absurd rfl h
    · exact fun h => absurd rfl h
    · simp [start, Signalled]
    · simp [start, Signalled]
  · intro threads op next halert _ hstep
    exact ⟨isHeapQueue_step hheap halert.queue hstep, halert.host.step hheap halert.queue hstep,
      halert.pause.step hstep, halert.stops.step hstep⟩

/-- **No wake-up is lost**: no reachable state has the looper asleep with a message it should run, a
resumption it should see, or a destructor that has called it. -/
theorem no_lost_wake_up (hheap : heap.Correct Message.key)
    (hreach : (threadSystem heap).Reachable threads) :
    ¬ (threads.Blocked ∧ (threads.PostLost ∨ threads.ResumeLost ∨ threads.Signalled)) := by
  have halert := alert_of_reaches hheap hreach
  rintro ⟨hblocked, hpost | hresume | hsignalled⟩
  · obtain ⟨hposting, ⟨hwait, message, hmessage, hearlier⟩ | ⟨hwait, hnonempty⟩⟩ := hpost
    · obtain ⟨time, hfront, hlate | hpending | hset⟩ := halert.host.timed (hwait ▸ .waitFor)
      · exact absurd (hearlier time hfront) (not_lt.mpr (hlate message hmessage))
      · omega
      · simp [Blocked, hwait, hset] at hblocked
    · rcases halert.host.untimed (hwait ▸ .wait) with hempty | hpending | hset
      · exact hnonempty hempty
      · omega
      · simp [Blocked, hwait, hset] at hblocked
  · obtain ⟨hwait, hpaused, hresuming⟩ := hresume
    rcases halert.pause.resumes (hwait ▸ .pauseWait) with htrue | hpending | hset
    · rw [hpaused] at htrue
      cases htrue
    · omega
    · simp [Blocked, hwait, hset] at hblocked
  · rcases hblocked with ⟨hwait, hunset⟩ | ⟨hwait, hunset⟩
    · rcases halert.stops.hostSet hsignalled with hset | hleaving
      · rw [hunset] at hset
        cases hset
      · rcases hwait with hwait | hwait
        · rw [hwait] at hleaving
          cases hleaving
        · rw [hwait] at hleaving
          cases hleaving
    · rcases halert.stops.pauseSet (Or.inr hsignalled) with hset | hout
      · rw [hunset] at hset
        cases hset
      · simp [hwait] at hout

/-- The looper finds nothing to do and waits; a message is posted meanwhile. -/
def postedWhileWaiting : List ThreadOp :=
  [.start, .looper, .looper, .looper, .advance 3, .scan, .looper, .looper, .postEvent 0 5 0 4]

theorem no_lost_wake_up_postedWhileWaiting : ∃ threads,
    postedWhileWaiting.foldlM (threadSystem (sortingHeap Message.key)).step
        (TimerThreads.start fun _ => ⟨true, true⟩) = some threads
      ∧ threads.looper = .wait ∧ threads.posting = 1
      ∧ ¬ (threads.Blocked
        ∧ (threads.PostLost ∨ threads.ResumeLost ∨ threads.Signalled)) := by
  have hrun : (postedWhileWaiting.foldlM (threadSystem (sortingHeap Message.key)).step
      (TimerThreads.start fun _ => ⟨true, true⟩)).any (fun threads =>
        threads.looper = .wait ∧ threads.posting = 1) = true := by
    decide +kernel
  obtain ⟨threads, hlast, hseen⟩ := (Option.any_eq_true _ _).mp hrun
  obtain ⟨hlooper, hposting⟩ := of_decide_eq_true hseen
  have hstart : (threadSystem (sortingHeap Message.key)).Reachable
      (TimerThreads.start fun _ => ⟨true, true⟩) := .init ⟨_, rfl⟩
  have hreach := hstart.foldlM (fun _ _ _ => trivial) hlast
  exact ⟨threads, hlast, hlooper, hposting,
    no_lost_wake_up (sortingHeap_correct Message.key) hreach⟩

end TimerThreads

end TapSdk.Timer
