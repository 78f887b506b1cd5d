import Mathlib.Algebra.Group.Nat.Defs
import TapSdk.Base.Timer

/-!
# Every message once, in order, never early

The invariant of a run of the timer. The queue is a heap, and together with what was removed and
what was popped it is what was posted. It is stated for every program point at which another thread,
or the callback itself, can get at the queue.
-/

namespace TapSdk.Timer

open Library

variable {heap : HeapFunctions Message}

/-! ### One operation on the queue -/

theorem Message.when_le_of_key_le {message other : Message} (h : message.key ≤ other.key) :
    message.when ≤ other.when := by
  rcases Prod.Lex.le_iff.mp h with hlt | heq
  · exact le_of_lt hlt
  · exact le_of_eq heq.1

namespace CoreTimer

variable {timer : CoreTimer}

def IsHeapQueue (timer : CoreTimer) : Prop := IsHeap (timer.msgQueue.map Message.key)

theorem postEvent_spec (hheap : heap.Correct Message.key) (h : timer.IsHeapQueue)
    (event : EventId) (duration : Int) (userData : Nat) (now : Int) :
    (timer.postEvent heap event duration userData now).IsHeapQueue
      ∧ (timer.postEvent heap event duration userData now).msgQueue.Perm
          (timer.msgQueue ++ [timer.newMessage event duration userData now]) :=
  hheap.push timer.msgQueue _ h

/-- The messages of an event that is still there. -/
theorem isOf_eq {event : EventId} (halive : (timer.event event).alive = true) (message : Message) :
    timer.isOf event message = decide (message.event = some event) := by
  unfold isOf lock
  cases hevent : message.event with
  | none => rfl
  | some other =>
      by_cases heq : other = event
      · subst heq
        simp [halive]
      · simp [Option.filter, heq]

theorem removeIf_spec (hheap : heap.Correct Message.key) (h : timer.IsHeapQueue)
    (removes : Message → Bool) :
    (timer.removeIf heap removes).IsHeapQueue
      ∧ timer.msgQueue.Perm
        ((timer.removeIf heap removes).msgQueue ++ timer.msgQueue.filter removes)
      ∧ (timer.removeIf heap removes).eventFifoId = timer.eventFifoId
      ∧ (timer.removeIf heap removes).globalTimer = timer.globalTimer
      ∧ (timer.removeIf heap removes).phase = timer.phase := by
  unfold removeIf
  split
  · obtain ⟨hmade, hperm⟩ := hheap.make (timer.msgQueue.filter fun message => !removes message)
    refine ⟨hmade, ?_, rfl, rfl, rfl⟩
    calc List.Perm timer.msgQueue (timer.msgQueue.filter removes
          ++ timer.msgQueue.filter fun message => !removes message) :=
          (List.filter_append_perm _ _).symm
      List.Perm _ ((timer.msgQueue.filter fun message => !removes message)
          ++ timer.msgQueue.filter removes) := List.perm_append_comm
      List.Perm _ (heap.makeHeap (timer.msgQueue.filter fun message => !removes message)
          ++ timer.msgQueue.filter removes) := hperm.symm.append_right _
  · rename_i hnone
    have hfilter : timer.msgQueue.filter removes = [] := by
      rw [List.filter_eq_nil_iff]
      intro message hmessage hremoves
      exact hnone (List.any_eq_true.mpr ⟨message, hmessage, hremoves⟩)
    rw [hfilter, List.append_nil]
    exact ⟨h, List.Perm.refl _, rfl, rfl, rfl⟩

/-- The front that was moved from is still the least, and it is what `pop_back` drops. -/
theorem popFront_spec (hheap : heap.Correct Message.key) {front : Message} {rest : List Message}
    (h : IsHeap ((front :: rest).map Message.key)) :
    IsHeap ((popFront heap front rest).map Message.key) ∧ (popFront heap front rest).Perm rest := by
  obtain ⟨rest', hpop, hrest, hperm⟩ := hheap.pop { front with event := none } rest h
  unfold popFront
  rw [hpop, List.dropLast_concat]
  exact ⟨hrest, hperm⟩

/-- What the head of the loop of `Advance` does. -/
theorem scan_cases (timer : CoreTimer) :
    (∃ front rest, timer.msgQueue = front :: rest ∧ front.when ≤ timer.globalTimer
        ∧ timer.scan heap
          = ((timer.setMsgQueue (popFront heap front rest)).setPhase (.invoking front), none))
      ∨ (∃ front rest, timer.msgQueue = front :: rest ∧ timer.globalTimer < front.when
        ∧ timer.scan heap
          = (timer.setPhase .idle, some (some (front.when - timer.globalTimer))))
      ∨ (timer.msgQueue = [] ∧ timer.scan heap = (timer.setPhase .idle, some none)) := by
  cases hqueue : timer.msgQueue with
  | nil =>
      right
      right
      exact ⟨rfl, by simp only [scan, hqueue]⟩
  | cons front rest =>
      by_cases hdue : front.when ≤ timer.globalTimer
      · left
        exact ⟨front, rest, rfl, hdue, by simp only [scan, hqueue, hdue, if_true]⟩
      · right
        left
        exact ⟨front, rest, rfl, not_le.mp hdue, by simp only [scan, hqueue, hdue, if_false]⟩

end CoreTimer

/-! ### The invariant of a run -/

/-- The message was first in the queue it was taken from, and due. -/
structure Pop.First (pop : Pop) : Prop where
  mem : pop.message ∈ pop.queue
  least : ∀ other ∈ pop.queue, pop.message.key ≤ other.key
  due : pop.message.when ≤ pop.reading

/-- The time that is left until the first message is due, or nothing for an empty queue. -/
structure Return.Remaining (ret : Return) : Prop where
  none_iff : ret.value = none ↔ ret.queue = []
  some_of : ∀ remaining, ret.value = some remaining → 0 < remaining
    ∧ ∃ front ∈ ret.queue, (∀ other ∈ ret.queue, front.when ≤ other.when)
      ∧ remaining = front.when - ret.reading

/-- Handles are given out in order, and have not run out. -/
structure TimerRun.Numbered (run : TimerRun) : Prop where
  few : run.posted.length < 2 ^ 32
  fifo : run.timer.eventFifoId = UInt32.ofNat run.posted.length
  handles : run.posted.map (·.handle) = (List.range run.posted.length).map UInt32.ofNat

structure TimerRun.Orderly (run : TimerRun) : Prop where
  heap : run.timer.IsHeapQueue
  conserved : run.posted.Perm
    (run.timer.msgQueue ++ run.removed ++ run.popped.map (·.message))
  clock : run.timer.phase = .scanning → run.timer.globalTimer = run.clock
  popped : ∀ pop ∈ run.popped, pop.First
  returned : ∀ ret ∈ run.returned, ret.Remaining

def FewPosts (run : TimerRun) : TimerOp → Prop
  | .postEvent .. => run.posted.length + 1 < 2 ^ 32
  | _ => True

instance (run : TimerRun) (op : TimerOp) : Decidable (FewPosts run op) := by
  cases op <;> unfold FewPosts <;> infer_instance

namespace TimerRun

variable {run next : TimerRun} {op : TimerOp}

theorem Orderly.postEvent (h : run.Orderly) (hheap : heap.Correct Message.key) (event : EventId)
    (duration : Int) (userData : Nat) (now : Int) (hunlocked : run.timer.unlocked = true) :
    ({ run with
        timer := run.timer.postEvent heap event duration userData now
        clock := now
        posted := run.posted ++ [run.timer.newMessage event duration userData now] } :
      TimerRun).Orderly := by
  obtain ⟨hqueue, hperm⟩ :=
    CoreTimer.postEvent_spec hheap h.heap event duration userData now
  refine ⟨hqueue, ?_, ?_, h.popped, h.returned⟩
  · have hposted := h.conserved
    rw [List.perm_iff_count] at hposted hperm ⊢
    intro message
    have hmessage := hposted message
    have hqueued := hperm message
    simp only [List.count_append] at hmessage hqueued ⊢
    omega
  · intro hscanning
    have hphase : run.timer.phase = .scanning := hscanning
    simp [CoreTimer.unlocked, hphase] at hunlocked

theorem Orderly.removeIf (h : run.Orderly) (hheap : heap.Correct Message.key) {timer : CoreTimer}
    (htimer : timer.msgQueue = run.timer.msgQueue)
    (hglobal : timer.globalTimer = run.timer.globalTimer) (hphase : timer.phase = run.timer.phase)
    (removes : Message → Bool) :
    ({ run with
        timer := timer.removeIf heap removes
        removed := run.removed ++ run.timer.msgQueue.filter removes } : TimerRun).Orderly := by
  have hheapTimer : timer.IsHeapQueue := by
    unfold CoreTimer.IsHeapQueue
    rw [htimer]
    exact h.heap
  obtain ⟨hqueue, hperm, _, hglobal', hphase'⟩ := CoreTimer.removeIf_spec hheap hheapTimer removes
  refine ⟨hqueue, ?_, ?_, h.popped, h.returned⟩
  · have hposted := h.conserved
    rw [htimer] at hperm
    rw [List.perm_iff_count] at hposted hperm ⊢
    intro message
    have hmessage := hposted message
    have hqueued := hperm message
    simp only [List.count_append] at hmessage hqueued ⊢
    omega
  · intro hscanning
    rw [hphase', hphase] at hscanning
    rw [hglobal', hglobal]
    exact h.clock hscanning

/-- A scan that ends leaves the queue and adds what it returns. -/
theorem Orderly.ret (h : run.Orderly) {ret : Return} (hret : ret.Remaining) :
    ({ run with
        timer := run.timer.setPhase .idle
        returned := run.returned ++ [ret] } : TimerRun).Orderly := by
  refine ⟨h.heap, h.conserved, fun hidle => absurd hidle (by simp [CoreTimer.setPhase]),
    h.popped, ?_⟩
  intro other hother
  rcases List.mem_append.mp hother with hold | hnew
  · exact h.returned other hold
  · rw [List.mem_singleton.mp hnew]
    exact hret

theorem Orderly.scan (h : run.Orderly) (hheap : heap.Correct Message.key)
    (hphase : run.timer.phase = .scanning) (hstep : run.step heap .scan = some next) :
    next.Orderly := by
  have hclock := h.clock hphase
  simp only [step, hphase, if_true] at hstep
  rcases @CoreTimer.scan_cases heap run.timer with
    ⟨front, rest, hqueue, hdue, hscan⟩ | ⟨front, rest, hqueue, hlate, hscan⟩ | ⟨hqueue, hscan⟩
  · rw [hqueue, hscan] at hstep
    cases hstep
    have hheapQueue := h.heap
    unfold CoreTimer.IsHeapQueue at hheapQueue
    rw [hqueue] at hheapQueue
    obtain ⟨hrest, hperm⟩ := CoreTimer.popFront_spec hheap hheapQueue
    refine ⟨hrest, ?_, fun hidle => absurd hidle (by simp [CoreTimer.setPhase]), ?_, h.returned⟩
    · have hposted := h.conserved
      rw [hqueue] at hposted
      rw [List.perm_iff_count] at hposted hperm ⊢
      intro message
      have hmessage := hposted message
      have hqueued : (CoreTimer.popFront heap front rest).count message = rest.count message :=
        hperm message
      simp only [List.count_append, List.map_append, List.count_cons, List.map_cons, List.map_nil,
        List.count_nil, CoreTimer.setPhase, CoreTimer.setMsgQueue] at hmessage ⊢
      omega
    · intro pop hpop
      rcases List.mem_append.mp hpop with hold | hnew
      · exact h.popped pop hold
      · rw [List.mem_singleton.mp hnew]
        refine ⟨List.mem_cons_self, ?_, by rw [← hclock]; exact hdue⟩
        intro other hother
        rcases List.mem_cons.mp hother with rfl | hother
        · exact le_refl _
        · exact hheapQueue.head_le _ (List.mem_map_of_mem hother)
  · rw [hqueue, hscan] at hstep
    cases hstep
    refine h.ret ⟨by simp, fun remaining hvalue => ?_⟩
    cases hvalue
    refine ⟨by omega, front, List.mem_cons_self, ?_, by rw [hclock]⟩
    intro other hother
    have hheapQueue := h.heap
    unfold CoreTimer.IsHeapQueue at hheapQueue
    rw [hqueue] at hheapQueue
    rcases List.mem_cons.mp hother with rfl | hother
    · exact le_refl _
    · exact Message.when_le_of_key_le (hheapQueue.head_le _ (List.mem_map_of_mem hother))
  · rw [hqueue, hscan] at hstep
    cases hstep
    exact h.ret ⟨by simp, fun remaining hvalue => by cases hvalue⟩

/-- A step that changes neither the queue nor the record. -/
theorem Orderly.congr (h : run.Orderly) (hqueue : next.timer.msgQueue = run.timer.msgQueue)
    (hposted : next.posted = run.posted) (hremoved : next.removed = run.removed)
    (hpopped : next.popped = run.popped) (hreturned : next.returned = run.returned)
    (hclock : next.timer.phase = .scanning → next.timer.globalTimer = next.clock) :
    next.Orderly := by
  refine ⟨?_, ?_, hclock, ?_, ?_⟩
  · unfold CoreTimer.IsHeapQueue
    rw [hqueue]
    exact h.heap
  · rw [hposted, hqueue, hremoved, hpopped]
    exact h.conserved
  · rw [hpopped]
    exact h.popped
  · rw [hreturned]
    exact h.returned

theorem Orderly.step (h : run.Orderly) (hheap : heap.Correct Message.key)
    (hstep : run.step heap op = some next) : next.Orderly := by
  cases op with
  | postEvent event duration userData now =>
      simp only [TimerRun.step] at hstep
      split at hstep
      · rename_i henabled
        cases hstep
        exact h.postEvent hheap event duration userData now henabled.1
      · cases hstep
  | removeMessage handle =>
      simp only [TimerRun.step] at hstep
      split at hstep
      · cases hstep
        exact h.removeIf hheap rfl rfl rfl _
      · cases hstep
  | removeEvent event =>
      simp only [TimerRun.step] at hstep
      split at hstep
      · rename_i henabled
        cases hstep
        simp only [← CoreTimer.isOf_eq henabled.2]
        exact @Orderly.removeIf heap run h hheap (run.timer.setActive event false) rfl rfl rfl _
      · cases hstep
  | dropEvent event =>
      cases hstep
      exact h.congr rfl rfl rfl rfl rfl h.clock
  | advance now =>
      simp only [TimerRun.step] at hstep
      split at hstep
      · cases hstep
        exact h.congr rfl rfl rfl rfl rfl fun _ => rfl
      · cases hstep
  | scan =>
      by_cases hphase : run.timer.phase = .scanning
      · exact h.scan hheap hphase hstep
      · simp only [TimerRun.step, hphase, if_false] at hstep
        cases hstep
  | invoke =>
      simp only [TimerRun.step] at hstep
      split at hstep
      · cases hstep
        refine h.congr rfl rfl rfl rfl rfl fun hscanning => ?_
        cases hscanning
      · cases hstep
  | relock now =>
      simp only [TimerRun.step] at hstep
      split at hstep
      · cases hstep
        exact h.congr rfl rfl rfl rfl rfl fun _ => rfl
      · cases hstep

theorem Numbered.step (h : run.Numbered) (hfew : FewPosts run op)
    (hstep : run.step heap op = some next) : next.Numbered := by
  have hsame : ∀ {other : TimerRun}, other.posted = run.posted →
      other.timer.eventFifoId = run.timer.eventFifoId → other.Numbered := by
    intro other hposted hfifo
    exact ⟨by rw [hposted]; exact h.few, by rw [hposted, hfifo]; exact h.fifo,
      by rw [hposted]; exact h.handles⟩
  have hremove : ∀ (timer : CoreTimer) (removes : Message → Bool),
      (timer.removeIf heap removes).eventFifoId = timer.eventFifoId := by
    intro timer removes
    unfold CoreTimer.removeIf
    split <;> rfl
  cases op with
  | postEvent event duration userData now =>
      simp only [TimerRun.step] at hstep
      split at hstep
      · cases hstep
        refine ⟨?_, ?_, ?_⟩
        · rw [List.length_append, List.length_singleton]
          exact hfew
        · rw [List.length_append, List.length_singleton, UInt32.ofNat_add]
          exact congrArg (· + 1) h.fifo
        · rw [List.length_append, List.length_singleton, List.range_succ, List.map_append,
            List.map_append, h.handles, List.map_singleton, List.map_singleton]
          exact congrArg (_ ++ [·]) h.fifo
      · cases hstep
  | removeMessage handle =>
      simp only [TimerRun.step] at hstep
      split at hstep
      · cases hstep
        exact hsame rfl (hremove _ _)
      · cases hstep
  | removeEvent event =>
      simp only [TimerRun.step] at hstep
      split at hstep
      · cases hstep
        exact hsame rfl (hremove _ _)
      · cases hstep
  | dropEvent event =>
      cases hstep
      exact hsame rfl rfl
  | advance now =>
      simp only [TimerRun.step] at hstep
      split at hstep
      · cases hstep
        exact hsame rfl rfl
      · cases hstep
  | scan =>
      by_cases hphase : run.timer.phase = .scanning
      · simp only [TimerRun.step, hphase, if_true] at hstep
        rcases @CoreTimer.scan_cases heap run.timer with
          ⟨front, rest, hqueue, _, hscan⟩ | ⟨front, rest, hqueue, _, hscan⟩ | ⟨hqueue, hscan⟩
        · rw [hqueue, hscan] at hstep
          cases hstep
          exact hsame rfl rfl
        · rw [hqueue, hscan] at hstep
          cases hstep
          exact hsame rfl rfl
        · rw [hqueue, hscan] at hstep
          cases hstep
          exact hsame rfl rfl
      · simp only [TimerRun.step, hphase, if_false] at hstep
        cases hstep
  | invoke =>
      simp only [TimerRun.step] at hstep
      split at hstep
      · cases hstep
        exact hsame rfl rfl
      · cases hstep
  | relock now =>
      simp only [TimerRun.step] at hstep
      split at hstep
      · cases hstep
        exact hsame rfl rfl
      · cases hstep

theorem Numbered.nodup (h : run.Numbered) : (run.posted.map (·.handle)).Nodup := by
  rw [h.handles]
  refine List.Nodup.map_on ?_ List.nodup_range
  intro i hi j hj heq
  have hfew := h.few
  have hi' := List.mem_range.mp hi
  have hj' := List.mem_range.mp hj
  have hnat := congrArg UInt32.toNat heq
  rw [UInt32.toNat_ofNat', UInt32.toNat_ofNat'] at hnat
  omega

end TimerRun

theorem orderly_of_reaches (hheap : heap.Correct Message.key) {run : TimerRun}
    (hreach : (timerSystem heap).Reaches FewPosts run) : run.Orderly ∧ run.Numbered := by
  refine hreach.invariant (fun run => run.Orderly ∧ run.Numbered) ?_ ?_
  · rintro run ⟨clock, event, rfl⟩
    refine ⟨⟨isHeap_nil, List.Perm.refl _, ?_, ?_, ?_⟩, ⟨Nat.two_pow_pos 32, rfl, rfl⟩⟩
    · intro hscanning
      cases hscanning
    · intro pop hpop
      cases hpop
    · intro ret hret
      cases hret
  · rintro run op next ⟨horderly, hnumbered⟩ hfew hstep
    exact ⟨horderly.step hheap hstep, hnumbered.step hfew hstep⟩

/-- **Every message once, in order, never early.** In every state of every run the queue is a heap
of what was posted less what was removed and popped. A popped message was the first of the queue it
was taken from and due at the clock's last reading; none is popped twice or after it was removed.
What `Advance` returns is the time to the first message, or nothing for an empty queue. -/
theorem delivers_once_in_order (hheap : heap.Correct Message.key) {run : TimerRun}
    (hreach : (timerSystem heap).Reaches FewPosts run) :
    IsHeap (run.timer.msgQueue.map Message.key)
      ∧ run.posted.Perm (run.timer.msgQueue ++ run.removed ++ run.popped.map (·.message))
      ∧ (∀ pop ∈ run.popped, pop.message ∈ pop.queue
          ∧ (∀ other ∈ pop.queue, pop.message.key ≤ other.key)
          ∧ pop.message.when ≤ pop.reading)
      ∧ (run.popped.map (·.message.handle)).Nodup
      ∧ (∀ message ∈ run.removed, ∀ pop ∈ run.popped, pop.message.handle ≠ message.handle)
      ∧ ∀ ret ∈ run.returned, (ret.value = none ↔ ret.queue = [])
          ∧ ∀ remaining, ret.value = some remaining → 0 < remaining
            ∧ ∃ front ∈ ret.queue, (∀ other ∈ ret.queue, front.when ≤ other.when)
              ∧ remaining = front.when - ret.reading := by
  obtain ⟨horderly, hnumbered⟩ := orderly_of_reaches hheap hreach
  have hnodup := (horderly.conserved.map (·.handle)).nodup_iff.mp hnumbered.nodup
  rw [List.map_append, List.map_append, List.map_map] at hnodup
  obtain ⟨_, hpopped, hdisjoint⟩ := List.nodup_append.mp hnodup
  refine ⟨horderly.heap, horderly.conserved, ?_, hpopped, ?_, ?_⟩
  · intro pop hpop
    have hfirst := horderly.popped pop hpop
    exact ⟨hfirst.mem, hfirst.least, hfirst.due⟩
  · intro message hmessage pop hpop heq
    refine hdisjoint message.handle ?_ pop.message.handle ?_ heq.symm
    · exact List.mem_append_right _ (List.mem_map_of_mem hmessage)
    · exact List.mem_map_of_mem hpop
  · intro ret hret
    have hremaining := horderly.returned ret hret
    exact ⟨hremaining.none_iff, hremaining.some_of⟩

/-- One message is posted for now, one for later, and `Advance` runs until it returns. -/
def twoPosts : List TimerOp :=
  [.postEvent 0 0 0 5, .postEvent 1 10 0 6, .advance 7, .scan, .invoke, .relock 8, .scan]

theorem delivers_once_in_order_twoPosts : ∃ run,
    (timerSystem (sortingHeap Message.key)).guarded FewPosts twoPosts
        (TimerRun.start 0 fun _ => ⟨true, true⟩) = some run
      ∧ run.popped.map (·.message.handle) = [0] ∧ run.returned.map (·.value) = [some 8]
      ∧ run.posted.Perm (run.timer.msgQueue ++ run.removed ++ run.popped.map (·.message)) := by
  have hrun : ((timerSystem (sortingHeap Message.key)).guarded FewPosts twoPosts
      (TimerRun.start 0 fun _ => ⟨true, true⟩)).any (fun run =>
        run.popped.map (·.message.handle) = [0]
          ∧ run.returned.map (·.value) = [some 8]) = true := by
    decide +kernel
  obtain ⟨run, hlast, hseen⟩ := (Option.any_eq_true _ _).mp hrun
  obtain ⟨hpopped, hreturned⟩ := of_decide_eq_true hseen
  have hstart : (timerSystem (sortingHeap Message.key)).Reaches FewPosts
      (TimerRun.start 0 fun _ => ⟨true, true⟩) := .init ⟨0, _, rfl⟩
  have hreach := hstart.guarded hlast
  obtain ⟨_, hconserved, _⟩ := delivers_once_in_order (sortingHeap_correct Message.key) hreach
  exact ⟨run, hlast, hpopped, hreturned, hconserved⟩

end TapSdk.Timer
