import TapSdk.Duration.Proof.TimerEvents

/-!
# A message that waits can be called

From a state in which no callback runs, the timer can go on until it takes a given message out of
the queue. What comes before the message is called first, and what those calls post is due after it:
the messages that come before it get fewer with every round of the loop of `Advance`.
-/

namespace TapSdk.Duration.TimerEvents

open Library Timer

variable {heap : HeapFunctions Message} {state next : TimerEvents} {op : Op}
  {allowed : TimerEvents → Op → Prop}

theorem sound_of_reaches (hheap : heap.Correct Message.key)
    (hreach : (system heap).Reaches allowed state) : state.Timely ∧ state.Single := by
  refine hreach.invariant (fun state => state.Timely ∧ state.Single) ?_ ?_
  · rintro _ ⟨clock, event, hown, rfl⟩
    refine ⟨timely_construct hown, fun own => ?_⟩
    cases own <;> exact Nat.zero_le _
  · rintro state op next ⟨htimely, hsingle⟩ _ hstep
    obtain ⟨hmoved, hnext⟩ := moved_of_step hheap htimely hstep
    exact ⟨hnext, hsingle.moved htimely hmoved⟩

/-- No callback runs, and `Advance` is not about to call one. -/
structure Free (state : TimerEvents) : Prop where
  callback : state.callback = none
  phase : state.run.timer.phase = .idle ∨ state.run.timer.phase = .invoked

theorem Free.waiting (h : state.Free) : state.run.waiting = state.run.timer.msgQueue := by
  rcases h.phase with hphase | hphase
  all_goals exact TimerRun.waiting_of_phase hphase rfl

/-! ### The steps of a round -/

theorem Free.step_readClock (h : state.Free) {reading : Int} (hclock : state.run.clock ≤ reading) :
    ∃ timerOp, state.step heap (.timer timerOp) = some { state with
      run := { state.run with timer := state.run.timer.readClock reading, clock := reading } } := by
  rcases h.phase with hphase | hphase
  · refine ⟨.advance reading, ?_⟩
    simp only [step, timerStep, TimerRun.step, hphase, hclock, and_self, if_true]
    rfl
  · refine ⟨.relock reading, ?_⟩
    simp only [step, timerStep, TimerRun.step, hphase, hclock, and_self, if_true, h.callback,
      Option.isNone_none]
    rfl

theorem step_scan {front : Message} {rest : List Message}
    (hphase : state.run.timer.phase = .scanning) (hqueue : state.run.timer.msgQueue = front :: rest)
    (hdue : front.when ≤ state.run.timer.globalTimer) :
    state.step heap (.timer .scan) = some { state with run := { state.run with
      timer := (state.run.timer.setMsgQueue (CoreTimer.popFront heap front rest)).setPhase
        (.invoking front)
      popped := state.run.popped ++ [⟨front, state.run.clock, front :: rest⟩] } } := by
  simp only [step, timerStep, TimerRun.step, hphase, if_true, CoreTimer.scan, hqueue, hdue, foreign]
  rfl

/-- After the call of the callback of this message, which may be still running. -/
def afterInvoke (state : TimerEvents) (message : Message) : TimerEvents :=
  { state with
    run := { state.run with
      timer := state.run.timer.setPhase .invoked
      called := state.run.called ++ (state.run.timer.invoke message).toList }
    callback := state.calls }

theorem step_invoke {message : Message} (hphase : state.run.timer.phase = .invoking message) :
    state.step heap (.timer .invoke) = some (state.afterInvoke message) := by
  simp only [step, timerStep, TimerRun.step, hphase]
  rfl

theorem Timely.exists_post (heap : HeapFunctions Message) (h : state.Timely)
    (hphase : state.run.timer.phase ≠ .scanning) {now : Int} (hclock : state.run.clock ≤ now)
    (event : OwnEvent) (duration : Int) :
    ∃ run, state.post heap event duration now = some { state with run := run }
      ∧ run.timer.phase = state.run.timer.phase := by
  have henabled : state.run.timer.unlocked = true ∧ (state.run.timer.event event.id).alive = true
      ∧ state.run.clock ≤ now := by
    refine ⟨decide_eq_true hphase, ?_, hclock⟩
    rw [h.own]
  simp only [post, TimerRun.step]
  rw [if_pos henabled]
  exact ⟨_, rfl, rfl⟩

/-- The callback that runs ends, with an answer that failed if it is the request. -/
theorem Timely.step_finish (h : state.Timely) {callback : Callback}
    (hcallback : state.callback = some callback) {now : Int} (hclock : state.run.clock ≤ now) :
    ∃ next, state.step heap (.finish none now) = some next ∧ next.Free
      ∧ next.onlineTickInterval = state.onlineTickInterval ∧ next.stage = state.stage
      ∧ next.gameStarts = state.gameStarts := by
  have hinvoked := (h.running callback hcallback).1
  have hphase : state.run.timer.phase ≠ .scanning := by rw [hinvoked]; nofun
  obtain ⟨event, reading⟩ := callback
  simp only [step, hcallback, Option.bind_some]
  cases event with
  | localHeatBeat =>
      obtain ⟨run, hpost, hsame⟩ :=
        h.exists_post heap hphase hclock .localHeatBeat localHeatBeatInterval
      simp only [finish, hpost, Option.map_some]
      exact ⟨_, rfl, ⟨rfl, Or.inr (hsame.trans hinvoked)⟩, rfl, rfl, rfl⟩
  | onlineHeatBeat =>
      obtain ⟨run, hpost, hsame⟩ :=
        h.exists_post heap hphase hclock .onlineHeatBeat state.onlineTickInterval
      simp only [finish, hpost, Option.map_some]
      exact ⟨_, rfl, ⟨rfl, Or.inr (hsame.trans hinvoked)⟩, rfl, rfl, rfl⟩
  | requestConfig =>
      obtain ⟨run, hpost, hsame⟩ := h.exists_post heap hphase hclock .requestConfig configRetry
      have htimes : configRetryTimes > 0 := by decide
      simp only [finish, if_pos htimes, hpost, Option.map_some]
      exact ⟨_, rfl, ⟨rfl, Or.inr (hsame.trans hinvoked)⟩, rfl, rfl, rfl⟩

/-! ### The rounds -/

/-- What a round does not change. -/
structure Kept (state next : TimerEvents) : Prop where
  tick : next.onlineTickInterval = state.onlineTickInterval
  stage : next.stage = state.stage
  gameStarts : next.gameStarts = state.gameStarts

theorem Kept.trans {last : TimerEvents} (h : state.Kept next) (h' : next.Kept last) :
    state.Kept last :=
  ⟨h'.tick.trans h.tick, h'.stage.trans h.stage, h'.gameStarts.trans h.gameStarts⟩

/-- `Advance` has read the clock and taken the front of the queue out. -/
structure Popped (front : Message) (reading : Int) (state next : TimerEvents) : Prop where
  kept : state.Kept next
  phase : next.run.timer.phase = .invoking front
  waiting : state.run.waiting.Perm next.run.waiting
  clock : next.run.clock = reading
  globalTimer : next.run.timer.globalTimer = reading
  called : next.run.called = state.run.called

theorem Free.exists_popped (h : state.Free) (hheap : heap.Correct Message.key)
    (hallowed : ∀ state timerOp, allowed state (.timer timerOp))
    (hreach : (system heap).Reaches allowed state) {message : Message}
    (hmem : message ∈ state.run.waiting) {reading : Int} (hclock : state.run.clock ≤ reading)
    (hdue : message.when ≤ reading) :
    ∃ next front, (system heap).Reaches allowed next ∧ Popped front reading state next
      ∧ front.key ≤ message.key ∧ front ∈ state.run.waiting := by
  obtain ⟨htimely, _⟩ := sound_of_reaches hheap hreach
  obtain ⟨timerOp, hread⟩ := @Free.step_readClock heap state h reading hclock
  have hreach' := System.Reaches.step hreach (hallowed state timerOp) hread
  have hheapQueue := htimely.orderly.heap
  have hwaiting := h.waiting
  unfold CoreTimer.IsHeapQueue at hheapQueue
  rw [hwaiting] at hmem
  obtain ⟨front, rest, hqueue⟩ := List.exists_cons_of_ne_nil (List.ne_nil_of_mem hmem)
  rw [hqueue] at hmem hheapQueue hwaiting
  have hleast : front.key ≤ message.key := by
    rcases List.mem_cons.mp hmem with rfl | hrest
    · exact le_refl _
    · exact hheapQueue.head_le _ (List.mem_map_of_mem hrest)
  have hfront : front.when ≤ reading := (Message.when_le_of_key_le hleast).trans hdue
  have hscan := @step_scan heap { state with run := { state.run with
      timer := state.run.timer.readClock reading, clock := reading } } front rest rfl hqueue hfront
  refine ⟨_, front, hreach'.step (hallowed _ .scan) hscan,
    ⟨⟨rfl, rfl, rfl⟩, rfl, ?_, rfl, rfl, rfl⟩, hleast, ?_⟩
  · obtain ⟨_, hperm⟩ := CoreTimer.popFront_spec hheap hheapQueue
    rw [hwaiting]
    change (front :: rest).Perm (CoreTimer.popFront heap front rest ++ [front])
    exact List.perm_append_comm.trans (hperm.symm.append_right [front])
  · rw [hwaiting]
    exact List.mem_cons_self

/-- The callback of the message has been called and has returned, and has posted this one. -/
structure Returned (front : Message) (added : Option Message)
    (state next : TimerEvents) : Prop where
  kept : state.Kept next
  free : next.Free
  clock : next.run.clock = state.run.clock
  called : ∀ event, next.called event
    = state.called event + if front.event = some event.id then 1 else 0
  waiting : (front :: next.run.waiting).Perm (added.toList ++ state.run.waiting)
  posted : ∀ message ∈ added, ∃ event : OwnEvent, front.event = some event.id
    ∧ message.event = some event.id ∧ message.when = state.interval event + state.run.clock
  posts : ∀ event : OwnEvent, front.event = some event.id → added ≠ none
  beats : front.event = some OwnEvent.onlineHeatBeat.id →
    ⟨state.run.timer.globalTimer, state.onlineTickInterval + state.run.clock⟩ ∈ next.beats

theorem Timely.called_afterInvoke (h : state.Timely) (front : Message) (event : OwnEvent) :
    (state.afterInvoke front).called event
      = state.called event + if front.event = some event.id then 1 else 0 :=
  h.called_invoked rfl event state.calls

theorem waiting_afterInvoke {front : Message} (hphase : state.run.timer.phase = .invoking front) :
    (front :: (state.afterInvoke front).run.waiting).Perm state.run.waiting := by
  rw [@TimerRun.waiting_of_phase (state.afterInvoke front).run .invoked rfl rfl]
  exact (TimerRun.waiting_of_invoking hphase).symm

/-- The message is of an event of somebody else. -/
theorem Timely.returned_of_foreign (h : state.Timely) {front : Message}
    (hphase : state.run.timer.phase = .invoking front) (hcalls : state.calls = none) :
    Returned front none state (state.afterInvoke front) := by
  have hother : ∀ event : OwnEvent, front.event ≠ some event.id := by
    intro event hevent
    cases hcalls.symm.trans ((h.calls_iff hphase ⟨event, _⟩).mpr ⟨hevent, rfl⟩)
  exact ⟨⟨rfl, rfl, rfl⟩, ⟨hcalls, Or.inr rfl⟩, rfl, h.called_afterInvoke front,
    waiting_afterInvoke hphase, nofun, fun event hevent => absurd hevent (hother event),
    fun hevent => absurd hevent (hother _)⟩

theorem exists_returned (hheap : heap.Correct Message.key)
    (hallowed : ∀ state timerOp, allowed state (.timer timerOp))
    (hfails : ∀ state now, allowed state (.finish none now))
    (hreach : (system heap).Reaches allowed state) {front : Message}
    (hphase : state.run.timer.phase = .invoking front) :
    ∃ next added, (system heap).Reaches allowed next ∧ Returned front added state next := by
  obtain ⟨htimely, _⟩ := sound_of_reaches hheap hreach
  have hreach' := hreach.step (hallowed state .invoke) (step_invoke hphase)
  obtain ⟨htimely', _⟩ := sound_of_reaches hheap hreach'
  cases hcalls : state.calls with
  | none => exact ⟨_, none, hreach', htimely.returned_of_foreign hphase hcalls⟩
  | some callback =>
      obtain ⟨next, hfinish, hfree, htick, hstage, hstarts⟩ :=
        @Timely.step_finish heap _ htimely' callback hcalls state.run.clock (le_refl _)
      have hreach'' := hreach'.step (hfails _ _) hfinish
      obtain ⟨hmoved, _⟩ := moved_of_step hheap htimely' hfinish
      cases hmoved with
      | @reposted callback' result now run message hcallback hposted hevent hwhen =>
          obtain rfl := Option.some.inj (hcalls.symm.trans hcallback)
          obtain ⟨hfront, hreading⟩ := (htimely.calls_iff hphase callback).mp hcalls
          refine ⟨_, some message, hreach'', ⟨htick, hstage, hstarts⟩, hfree,
            hposted.clock, ?_, ?_, ?_, fun _ _ => nofun, ?_⟩
          · intro event
            rw [← htimely.called_afterInvoke front event, called, called]
            change run.called.countP _ = _
            rw [hposted.called]
          · calc List.Perm (front :: run.waiting)
                  (front :: message :: (state.afterInvoke front).run.waiting) :=
                  hposted.waiting.cons front
              List.Perm _ (message :: front :: (state.afterInvoke front).run.waiting) :=
                  List.Perm.swap _ _ _
              List.Perm _ (message :: state.run.waiting) :=
                (waiting_afterInvoke hphase).cons message
          · intro other hother
            obtain rfl := Option.some.inj hother
            exact ⟨callback.event, hfront, hevent, hwhen⟩
          · intro honline
            have hbeat : callback.event = .onlineHeatBeat :=
              OwnEvent.id_inj (Option.some.inj (hfront.symm.trans honline))
            refine List.mem_append_right _ ?_
            rw [hbeat] at hwhen
            rw [if_pos hbeat, hreading, hwhen]
            exact List.mem_singleton.mpr rfl

theorem later_of_interval {message : Message} {reading : Int} (hdue : message.when ≤ reading)
    (hlater : message.when < state.onlineTickInterval + reading) (event : OwnEvent) :
    message.when < state.interval event + reading := by
  cases event with
  | localHeatBeat =>
      have hpos : 0 < localHeatBeatInterval := by decide
      change message.when < localHeatBeatInterval + reading
      omega
  | onlineHeatBeat => exact hlater
  | requestConfig =>
      have hpos : 0 < configRetry := by decide
      change message.when < configRetry + reading
      omega

theorem Single.eq_of_mem (h : state.Single) {event : OwnEvent} (hticket : state.tickets event ≤ 1)
    {message other : Message} (hmessage : message ∈ state.run.waiting)
    (hevent : message.event = some event.id) (hother : other ∈ state.run.waiting)
    (hevent' : other.event = some event.id) : other = message := by
  have hlength : (state.pending event).length ≤ 1 :=
    (Nat.le_add_right _ _).trans ((h event).trans hticket)
  have hmem : ∀ waiting ∈ state.run.waiting, waiting.event = some event.id →
      waiting ∈ state.pending event := by
    intro waiting hwaiting hown
    exact List.mem_filter.mpr ⟨hwaiting, decide_eq_true hown⟩
  have hfirst := hmem message hmessage hevent
  have hsecond := hmem other hother hevent'
  generalize state.pending event = pending at hlength hfirst hsecond
  match pending with
  | [] => cases hfirst
  | [only] => exact (List.mem_singleton.mp hsecond).trans (List.mem_singleton.mp hfirst).symm
  | _ :: _ :: _ => simp at hlength

/-- **The timer can go on until the message is taken out of the queue**, at any time at which it is
due and before which nothing is posted again. -/
theorem exists_invoking (hheap : heap.Correct Message.key)
    (hallowed : ∀ state timerOp, allowed state (.timer timerOp))
    (hfails : ∀ state now, allowed state (.finish none now))
    (hreach : (system heap).Reaches allowed state) (hfree : state.Free) {message : Message}
    (hmem : message ∈ state.run.waiting) {event : OwnEvent} (hevent : message.event = some event.id)
    (hticket : state.tickets event ≤ 1) {reading : Int} (hclock : state.run.clock ≤ reading)
    (hdue : message.when ≤ reading)
    (hlater : message.when < state.onlineTickInterval + reading) :
    ∃ last, (system heap).Reaches allowed last ∧ state.Kept last
      ∧ last.run.timer.phase = .invoking message ∧ last.run.clock = reading
      ∧ last.run.timer.globalTimer = reading ∧ last.called event = state.called event := by
  -- by the number of messages that come before this one, or at the same place
  obtain ⟨count, hcount⟩ : ∃ count,
      state.run.waiting.countP (fun other => other.key ≤ message.key) ≤ count := ⟨_, le_refl _⟩
  induction count generalizing state with
  | zero =>
      have hpos : 0 < state.run.waiting.countP fun other => other.key ≤ message.key :=
        List.countP_pos_iff.mpr ⟨message, hmem, decide_eq_true (le_refl message.key)⟩
      omega
  | succ count ih =>
      obtain ⟨mid, front, hmid, hpopped, hkey, hfront⟩ :=
        hfree.exists_popped hheap hallowed hreach hmem hclock hdue
      have hcalled : mid.called event = state.called event := by rw [called, called, hpopped.called]
      by_cases hsame : front = message
      · subst hsame
        exact ⟨mid, hmid, hpopped.kept, hpopped.phase, hpopped.clock, hpopped.globalTimer, hcalled⟩
      · obtain ⟨next, added, hnext, hreturned⟩ :=
          exists_returned hheap hallowed hfails hmid hpopped.phase
        have hother : front.event ≠ some event.id := by
          intro hown
          have hsingle := (sound_of_reaches hheap hreach).2
          exact hsame (hsingle.eq_of_mem hticket hmem hevent hfront hown)
        have hstays : message ∈ next.run.waiting := by
          have hin : message ∈ front :: next.run.waiting :=
            hreturned.waiting.mem_iff.mpr
              (List.mem_append_right _ (hpopped.waiting.mem_iff.mp hmem))
          rcases List.mem_cons.mp hin with rfl | hrest
          · exact absurd rfl hsame
          · exact hrest
        have hafter : added.toList.countP (fun other => other.key ≤ message.key) = 0 := by
          refine List.countP_eq_zero.mpr fun other hmore hle => ?_
          obtain ⟨own, _, _, hwhen⟩ := hreturned.posted other (Option.mem_toList.mp hmore)
          have hlate := @later_of_interval mid message reading hdue (hpopped.kept.tick ▸ hlater) own
          have hearly := Message.when_le_of_key_le (of_decide_eq_true hle)
          rw [hpopped.clock] at hwhen
          omega
        have hfewer : next.run.waiting.countP (fun other => other.key ≤ message.key) ≤ count := by
          have htotal := hreturned.waiting.countP_eq fun other => decide (other.key ≤ message.key)
          rw [List.countP_append, hafter, ← hpopped.waiting.countP_eq, List.countP_cons, if_pos
            (decide_eq_true hkey)] at htotal
          omega
        have hkeeps := hpopped.kept.trans hreturned.kept
        have htickets : next.tickets event = state.tickets event := by
          cases event <;> simp only [tickets, hkeeps.stage, hkeeps.gameStarts]
        obtain ⟨last, hlast, hkept, hphase, hclock', hreading, hsameCalls⟩ :=
          ih hnext hreturned.free hstays (htickets ▸ hticket)
            (le_of_eq (hreturned.clock.trans hpopped.clock))
              (by rw [hkeeps.tick]; exact hlater) hfewer
        refine ⟨last, hlast, hkeeps.trans hkept, hphase, hclock', hreading, ?_⟩
        rw [hsameCalls, hreturned.called, if_neg hother, hcalled]
        rfl

/-! ### The start -/

/-- After `InitHeatBeats`, on a timer that does nothing else. -/
theorem exists_beating (hheap : heap.Correct Message.key)
    (hopens : ∀ state latest, allowed state (.newGameSession latest))
    (hbeats : ∀ state now later, allowed state (.initHeatBeats now later))
    (latest : Option GameSession) (start : Int) :
    ∃ run, (system heap).Reaches allowed { (construct start fun _ => ⟨true, true⟩).newGameSession
          latest with run := run, stage := .beating }
      ∧ run.timer.phase = .idle ∧ run.clock = start ∧ run.called = []
      ∧ ∃ message ∈ run.waiting, message.event = some OwnEvent.onlineHeatBeat.id
        ∧ message.when = ((construct start fun _ => ⟨true, true⟩).newGameSession
          latest).onlineTickInterval + start := by
  obtain ⟨opened, hopened⟩ : ∃ opened, opened
    = ({ (construct start fun _ => ⟨true, true⟩).newGameSession latest with stage := .opened } :
      TimerEvents) := ⟨_, rfl⟩
  have hstep : (system heap).step (construct start fun _ => ⟨true, true⟩) (.newGameSession latest)
      = some opened := by
    rw [hopened]
    rfl
  have hreach : (system heap).Reaches allowed opened :=
    .step (.init ⟨start, _, fun _ => rfl, rfl⟩) (hopens _ latest) hstep
  have hrun : opened.run = TimerRun.start start fun _ => ⟨true, true⟩ := by
    rw [hopened]
    exact (newGameSession_timer _ latest).run
  have hidle : opened.run.timer.phase ≠ .scanning := by rw [hrun]; nofun
  have hclock : opened.run.clock ≤ start := by rw [hrun]; exact le_refl _
  obtain ⟨htimely, _⟩ := sound_of_reaches hheap hreach
  obtain ⟨first, hfirst, hphase⟩ :=
    htimely.exists_post heap hidle hclock .localHeatBeat localHeatBeatInterval
  obtain ⟨_, hsame, htimely', hposted⟩ := post_spec hheap htimely hfirst
  obtain rfl : first = _ := congrArg TimerEvents.run hsame
  obtain ⟨second, hsecond, hphase'⟩ := htimely'.exists_post heap (hphase ▸ hidle)
    (le_of_eq hposted.clock) .onlineHeatBeat opened.onlineTickInterval
  obtain ⟨_, hsame', _, hposted'⟩ := post_spec hheap htimely' hsecond
  obtain rfl : second = _ := congrArg TimerEvents.run hsame'
  have hbeating : (system heap).step opened (.initHeatBeats start start)
      = some { opened with run := second, stage := .beating } := by
    have hstage : opened.stage = .opened := by rw [hopened]
    change (if opened.stage = .opened then _ else none) = _
    rw [if_pos hstage, hfirst, Option.bind_some, hsecond, Option.map_some]
  refine ⟨second, ?_, ?_, hposted'.clock, ?_, _, hposted'.waiting.mem_iff.mpr List.mem_cons_self,
    rfl, ?_⟩
  · have hlast := hreach.step (hbeats opened start start) hbeating
    rw [hopened] at hlast
    exact hlast
  · rw [hphase', hphase, hrun]
    rfl
  · rw [hposted'.called, hposted.called, hrun]
    rfl
  · rw [hopened]
    rfl

end TapSdk.Duration.TimerEvents
