import TapSdk.Base.Proof.TimerWaiting
import TapSdk.Duration.TimerEvents

/-!
# One message for each event

Each of the three events is in one place at most: in the queue, taken out of it and about to be
called, or running. Nothing is lost either, so the timer can go on until a message that is in the
queue is called.
-/

namespace TapSdk.Duration

open Library Timer

theorem OwnEvent.ofId_id (event : OwnEvent) : OwnEvent.ofId event.id = some event := by
  cases event <;> rfl

theorem OwnEvent.id_inj {event other : OwnEvent} (h : event.id = other.id) : event = other := by
  have hsome := congrArg OwnEvent.ofId h
  rw [OwnEvent.ofId_id, OwnEvent.ofId_id] at hsome
  exact Option.some.inj hsome

theorem OwnEvent.id_ne_of_ofId {id : EventId} (h : OwnEvent.ofId id = none) (event : OwnEvent) :
    event.id ≠ id := by
  rintro rfl
  rw [OwnEvent.ofId_id] at h
  cases h

namespace TimerEvents

variable {heap : HeapFunctions Message} {state next : TimerEvents} {op : Op}

/-! ### The timer's side -/

structure Timely (state : TimerEvents) : Prop where
  orderly : state.run.Orderly
  own : ∀ event : OwnEvent, state.run.timer.event event.id = ⟨true, true⟩
  running : ∀ callback, state.callback = some callback →
    state.run.timer.phase = .invoked ∧ callback.reading = state.run.timer.globalTimer
  due : ∀ message, state.run.timer.phase = .invoking message →
    message.when ≤ state.run.timer.globalTimer
  read : state.run.timer.phase ≠ .idle → state.run.timer.globalTimer ≤ state.run.clock

theorem Timely.congr (h : state.Timely) (hrun : next.run = state.run)
    (hcallback : ∀ callback, next.callback = some callback → state.callback = some callback) :
    next.Timely := by
  refine ⟨?_, ?_, ?_, ?_, ?_⟩
  · rw [hrun]
    exact h.orderly
  · rw [hrun]
    exact h.own
  · intro callback hnext
    rw [hrun]
    exact h.running callback (hcallback callback hnext)
  · rw [hrun]
    exact h.due
  · rw [hrun]
    exact h.read

/-- A message is posted, by whoever. -/
theorem Timely.postEvent (h : state.Timely) (hheap : heap.Correct Message.key) {event : EventId}
    {duration now : Int} {userData : Nat} {run : TimerRun}
    (hstep : state.run.step heap (.postEvent event duration userData now) = some run) :
    ({ state with run := run } : TimerEvents).Timely := by
  have horderly := h.orderly.step hheap hstep
  simp only [TimerRun.step] at hstep
  split at hstep
  · rename_i henabled
    obtain rfl := Option.some.inj hstep
    refine ⟨horderly, ?_, h.running, h.due, ?_⟩
    · intro own
      change (if own.id = event then ({ state.run.timer.event event with active := true } : Event)
        else state.run.timer.event own.id) = ⟨true, true⟩
      split
      · rename_i heq
        rw [← heq, h.own]
      · exact h.own own
    · intro hidle
      exact (h.read hidle).trans henabled.2.2
  · cases hstep

theorem Timely.readClock (h : state.Timely) (hheap : heap.Correct Message.key) {timerOp : TimerOp}
    {now : Int} (hop : timerOp = .advance now ∨ timerOp = .relock now)
    (hcallback : state.callback = none) {run : TimerRun}
    (hstep : state.run.step heap timerOp = some run) :
    ({ state with run := run } : TimerEvents).Timely := by
  obtain ⟨_, hrun⟩ := TimerRun.quiet_readClock hop hstep
  have horderly := h.orderly.step hheap hstep
  subst hrun
  refine ⟨horderly, h.own, ?_, nofun, fun _ => le_refl _⟩
  intro callback hsome
  exact absurd (hcallback.symm.trans hsome) nofun

theorem Timely.scan (h : state.Timely) (hheap : heap.Correct Message.key) {run : TimerRun}
    (hstep : state.run.step heap .scan = some run) :
    ({ state with run := run } : TimerEvents).Timely := by
  have horderly := h.orderly.step hheap hstep
  simp only [TimerRun.step] at hstep
  split at hstep
  · rename_i hphase
    have hcallback : ∀ callback, state.callback = some callback → False := by
      intro callback hsome
      cases hphase.symm.trans (h.running callback hsome).1
    have hread := h.read (by rw [hphase]; decide)
    rcases @CoreTimer.scan_cases heap state.run.timer with
      ⟨front, rest, hqueue, hdue, hscan⟩ | ⟨front, rest, hqueue, _, hscan⟩ | ⟨hqueue, hscan⟩
    · rw [hqueue, hscan] at hstep
      cases hstep
      refine ⟨horderly, h.own, fun callback hsome => (hcallback callback hsome).elim, ?_,
        fun _ => hread⟩
      intro message hinvoking
      cases hinvoking
      exact hdue
    · rw [hqueue, hscan] at hstep
      cases hstep
      exact ⟨horderly, h.own, fun callback hsome => (hcallback callback hsome).elim,
        (fun _ hinvoking => by cases hinvoking), fun hidle => absurd rfl hidle⟩
    · rw [hqueue, hscan] at hstep
      cases hstep
      exact ⟨horderly, h.own, fun callback hsome => (hcallback callback hsome).elim,
        (fun _ hinvoking => by cases hinvoking), fun hidle => absurd rfl hidle⟩
  · cases hstep

theorem Timely.invoke (h : state.Timely) (hheap : heap.Correct Message.key) {run : TimerRun}
    (hstep : state.run.step heap .invoke = some run) :
    ({ state with run := run, callback := state.calls } : TimerEvents).Timely := by
  have horderly := h.orderly.step hheap hstep
  obtain ⟨message, hphase, _, hrun⟩ := TimerRun.waiting_invoke hstep
  subst hrun
  refine ⟨horderly, h.own, ?_, nofun, fun _ => h.read (by rw [hphase]; nofun)⟩
  intro callback hcalls
  refine ⟨rfl, ?_⟩
  change state.calls = some callback at hcalls
  simp only [calls, hphase] at hcalls
  obtain ⟨call, _, hown⟩ := Option.bind_eq_some_iff.mp hcalls
  obtain ⟨own, _, rfl⟩ := Option.map_eq_some_iff.mp hown
  rfl

/-! ### What a step does -/

/-- The messages of the event that have not been called. -/
def pending (state : TimerEvents) (event : OwnEvent) : List Message :=
  state.run.messagesOf event.id

def runs (state : TimerEvents) (event : OwnEvent) : Bool :=
  state.callback.any fun callback => callback.event = event

/-- What the callback of the event posts it with, unless the request has been answered. -/
def interval (state : TimerEvents) : OwnEvent → Int
  | .localHeatBeat => localHeatBeatInterval
  | .onlineHeatBeat => state.onlineTickInterval
  | .requestConfig => configRetry

/-- The run, the callback and the record are the same. -/
structure SameTimer (state next : TimerEvents) : Prop where
  run : next.run = state.run
  callback : next.callback = state.callback
  gameStarts : next.gameStarts = state.gameStarts
  beats : next.beats = state.beats

inductive Moved (state : TimerEvents) : Op → TimerEvents → Prop where
  | newGameSession (latest : Option GameSession) (hstage : state.stage = .constructed) :
      Moved state (.newGameSession latest) { state.newGameSession latest with stage := .opened }
  | initHeatBeats {now later : Int} {first second : TimerRun} {message beat : Message}
      (hstage : state.stage = .opened) (hfirst : state.run.Posted message now first)
      (hmessage : message.event = some OwnEvent.localHeatBeat.id)
      (hsecond : first.Posted beat later second)
      (hbeat : beat.event = some OwnEvent.onlineHeatBeat.id) :
      Moved state (.initHeatBeats now later) { state with run := second, stage := .beating }
  | initHistory (cached : Option ReportConfig) (hstage : state.stage = .beating) :
      Moved state (.initHistory cached)
        { (cached.elim state state.refreshConfig) with stage := .initialized }
  | onNewUser (user : Option Statistics.User) (hstage : state.stage ≠ .constructed) :
      Moved state (.onNewUser user) (state.onNewUser user)
  | gameStart {now : Int} {run : TimerRun} {message : Message} (hstage : state.stage = .initialized)
      (hposted : state.run.Posted message now run)
      (hevent : message.event = some OwnEvent.requestConfig.id) (hwhen : message.when = now) :
      Moved state (.gameStart now)
        { state with run := run, gameStarts := state.gameStarts ++ [now] }
  | quiet {op : TimerOp} {run : TimerRun} (hquiet : state.run.Quiet run) :
      Moved state (.timer op) { state with run := run }
  | foreign {op : TimerOp} {run : TimerRun} {message : Message} {now : Int}
      (hposted : state.run.Posted message now run)
      (hevent : ∀ event : OwnEvent, message.event ≠ some event.id) :
      Moved state (.timer op) { state with run := run }
  | invoked {message : Message} {run : TimerRun}
      (hphase : state.run.timer.phase = .invoking message)
      (hwaiting : state.run.waiting.Perm (message :: run.waiting))
      (hcalled : run.called = state.run.called ++ (state.run.timer.invoke message).toList)
      (hclock : run.clock = state.run.clock) :
      Moved state (.timer .invoke) { state with run := run, callback := state.calls }
  | reposted {callback : Callback} {result : Option ReportConfig} {now : Int} {run : TimerRun}
      {message : Message} (hcallback : state.callback = some callback)
      (hposted : state.run.Posted message now run)
      (hevent : message.event = some callback.event.id)
      (hwhen : message.when = state.interval callback.event + now) :
      Moved state (.finish result now) { state with
        run := run
        callback := none
        beats := state.beats ++ if callback.event = .onlineHeatBeat then
          [⟨callback.reading, message.when⟩] else [] }
  | answered {reading now : Int} (config : ReportConfig)
      (hcallback : state.callback = some ⟨.requestConfig, reading⟩) :
      Moved state (.finish (some config) now)
        { state.refreshConfig config with callback := none }

theorem post_spec (hheap : heap.Correct Message.key) (h : state.Timely) {event : OwnEvent}
    {duration now : Int} (hpost : state.post heap event duration now = some next) :
    ∃ run, next = { state with run := run } ∧ next.Timely
      ∧ state.run.Posted (state.run.timer.newMessage event.id duration 0 now) now run := by
  obtain ⟨run, hstep, rfl⟩ := Option.map_eq_some_iff.mp hpost
  exact ⟨run, rfl, h.postEvent hheap hstep, TimerRun.posted_of_step hheap h.orderly hstep⟩

theorem finish_spec (hheap : heap.Correct Message.key) (h : state.Timely)
    {result : Option ReportConfig} {now : Int} {callback : Callback} {finished : TimerEvents}
    (hcallback : state.callback = some callback)
    (hfinish : state.finish heap result now callback = some finished) :
    state.Moved (.finish result now) { finished with callback := none } ∧ finished.Timely := by
  obtain ⟨event, reading⟩ := callback
  cases event with
  | localHeatBeat =>
      obtain ⟨run, rfl, htimely, hposted⟩ := post_spec hheap h hfinish
      have hmoved := @Moved.reposted state _ result now run _ hcallback hposted rfl rfl
      refine ⟨?_, htimely⟩
      simpa using hmoved
  | onlineHeatBeat =>
      obtain ⟨posted, hpost, rfl⟩ := Option.map_eq_some_iff.mp hfinish
      obtain ⟨run, rfl, htimely, hposted⟩ := post_spec hheap h hpost
      exact ⟨.reposted hcallback hposted rfl rfl, htimely.congr rfl fun _ hsome => hsome⟩
  | requestConfig =>
      cases result with
      | some config =>
          obtain rfl := Option.some.inj hfinish
          exact ⟨.answered config hcallback, h.congr rfl fun _ hsome => hsome⟩
      | none =>
          obtain ⟨run, rfl, htimely, hposted⟩ := post_spec hheap h hfinish
          have hmoved := @Moved.reposted state _ none now run _ hcallback hposted rfl rfl
          refine ⟨?_, htimely⟩
          simpa using hmoved

theorem newGameSession_timer (state : TimerEvents) (latest : Option GameSession) :
    state.SameTimer (state.newGameSession latest) := by
  cases latest <;> exact ⟨rfl, rfl, rfl, rfl⟩

theorem onNewUser_timer (state : TimerEvents) (user : Option Statistics.User) :
    state.SameTimer (state.onNewUser user) := by
  cases user with
  | none => exact ⟨rfl, rfl, rfl, rfl⟩
  | some user =>
      simp only [onNewUser]
      split <;> exact ⟨rfl, rfl, rfl, rfl⟩

theorem loadConfig_timer (state : TimerEvents) (cached : Option ReportConfig) :
    state.SameTimer (cached.elim state state.refreshConfig) := by
  cases cached <;> exact ⟨rfl, rfl, rfl, rfl⟩

theorem SameTimer.setStage (h : state.SameTimer next) (stage : Stage) :
    state.SameTimer { next with stage := stage } := ⟨h.run, h.callback, h.gameStarts, h.beats⟩

theorem SameTimer.timely (hsame : state.SameTimer next) (h : state.Timely) : next.Timely :=
  h.congr hsame.run fun _ hsome => hsame.callback.symm.trans hsome

theorem moved_timer (hheap : heap.Correct Message.key) (h : state.Timely) {timerOp : TimerOp}
    (hstep : state.timerStep heap timerOp = some next) :
    state.Moved (.timer timerOp) next ∧ next.Timely := by
  cases timerOp with
  | invoke =>
      obtain ⟨run, hrun, rfl⟩ := Option.map_eq_some_iff.mp hstep
      have htimely := h.invoke hheap hrun
      obtain ⟨message, hphase, hwaiting, rfl⟩ := TimerRun.waiting_invoke hrun
      exact ⟨.invoked hphase hwaiting rfl rfl, htimely⟩
  | relock now =>
      simp only [timerStep] at hstep
      split at hstep
      · rename_i hnone
        obtain ⟨run, hrun, rfl⟩ := Option.map_eq_some_iff.mp hstep
        have hop : TimerOp.relock now = .advance now
            ∨ TimerOp.relock now = .relock now := Or.inr rfl
        exact ⟨.quiet (TimerRun.quiet_readClock hop hrun).1,
          h.readClock hheap hop (Option.isNone_iff_eq_none.mp hnone) hrun⟩
      · cases hstep
  | advance now =>
      obtain ⟨run, hrun, rfl⟩ := Option.map_eq_some_iff.mp hstep
      have hop : TimerOp.advance now = .advance now
          ∨ TimerOp.advance now = .relock now := Or.inl rfl
      refine ⟨.quiet (TimerRun.quiet_readClock hop hrun).1, h.readClock hheap hop ?_ hrun⟩
      -- `Advance` is entered only from outside, where no callback runs
      cases hcallback : state.callback with
      | none => rfl
      | some callback =>
          have hphase := (h.running callback hcallback).1
          simp [TimerRun.step, hphase] at hrun
  | scan =>
      obtain ⟨run, hrun, rfl⟩ := Option.map_eq_some_iff.mp hstep
      exact ⟨.quiet (TimerRun.quiet_scan hheap h.orderly hrun), h.scan hheap hrun⟩
  | postEvent event duration userData now =>
      simp only [timerStep] at hstep
      split at hstep
      · rename_i hother
        obtain ⟨run, hrun, rfl⟩ := Option.map_eq_some_iff.mp hstep
        refine ⟨.foreign (TimerRun.posted_of_step hheap h.orderly hrun) ?_, h.postEvent hheap hrun⟩
        intro own hown
        exact OwnEvent.id_ne_of_ofId (of_decide_eq_true hother) own (Option.some.inj hown).symm
      · cases hstep
  | dropEvent event =>
      simp only [timerStep] at hstep
      split at hstep
      · rename_i hother
        obtain ⟨run, hrun, rfl⟩ := Option.map_eq_some_iff.mp hstep
        obtain rfl := Option.some.inj hrun
        refine ⟨.quiet ⟨List.Perm.refl _, rfl, le_refl _⟩, ?_⟩
        refine ⟨h.orderly.congr rfl rfl rfl rfl rfl h.orderly.clock, ?_, h.running, h.due, h.read⟩
        intro own
        have hne := OwnEvent.id_ne_of_ofId (of_decide_eq_true hother) own
        change (if own.id = event then _ else state.run.timer.event own.id) = _
        rw [if_neg hne]
        exact h.own own
      · cases hstep
  | removeMessage handle => cases hstep
  | removeEvent event => cases hstep

theorem moved_of_step (hheap : heap.Correct Message.key) (h : state.Timely)
    (hstep : state.step heap op = some next) : state.Moved op next ∧ next.Timely := by
  cases op with
  | newGameSession latest =>
      simp only [step] at hstep
      split at hstep
      · rename_i hstage
        obtain rfl := Option.some.inj hstep
        exact ⟨.newGameSession latest hstage,
          ((state.newGameSession_timer latest).setStage .opened).timely h⟩
      · cases hstep
  | initHeatBeats now later =>
      simp only [step] at hstep
      split at hstep
      · rename_i hstage
        obtain ⟨first, hfirst, hrest⟩ := Option.bind_eq_some_iff.mp hstep
        obtain ⟨second, hsecond, rfl⟩ := Option.map_eq_some_iff.mp hrest
        obtain ⟨run, rfl, htimely, hposted⟩ := post_spec hheap h hfirst
        obtain ⟨run', rfl, htimely', hposted'⟩ := post_spec hheap htimely hsecond
        exact ⟨.initHeatBeats hstage hposted rfl hposted' rfl,
          htimely'.congr rfl fun _ hsome => hsome⟩
      · cases hstep
  | initHistory cached =>
      simp only [step] at hstep
      split at hstep
      · rename_i hstage
        obtain rfl := Option.some.inj hstep
        exact ⟨.initHistory cached hstage,
          ((state.loadConfig_timer cached).setStage .initialized).timely h⟩
      · cases hstep
  | onNewUser user =>
      simp only [step] at hstep
      split at hstep
      · cases hstep
      · rename_i hstage
        obtain rfl := Option.some.inj hstep
        exact ⟨.onNewUser user hstage, (state.onNewUser_timer user).timely h⟩
  | gameStart now =>
      simp only [step] at hstep
      split at hstep
      · rename_i hstage
        obtain ⟨posted, hpost, rfl⟩ := Option.map_eq_some_iff.mp hstep
        obtain ⟨run, rfl, htimely, hposted⟩ := post_spec hheap h hpost
        exact ⟨.gameStart hstage hposted rfl (Int.zero_add now),
          htimely.congr rfl fun _ hsome => hsome⟩
      · cases hstep
  | timer timerOp => exact moved_timer hheap h hstep
  | finish result now =>
      obtain ⟨callback, hcallback, hfinished⟩ := Option.bind_eq_some_iff.mp hstep
      obtain ⟨finished, hfinish, rfl⟩ := Option.map_eq_some_iff.mp hfinished
      obtain ⟨hmoved, htimely⟩ := finish_spec hheap h hcallback hfinish
      exact ⟨hmoved, htimely.congr rfl nofun⟩

theorem timely_construct {clock : Int} {event : EventId → Event}
    (hown : ∀ own : OwnEvent, event own.id = ⟨true, true⟩) : (construct clock event).Timely := by
  refine ⟨⟨isHeap_nil, List.Perm.refl _, nofun, nofun, nofun⟩, hown, nofun, nofun, ?_⟩
  intro hidle
  exact absurd rfl hidle

/-! ### Where an event is -/

theorem Timely.invoke_own (h : state.Timely) {message : Message} {event : OwnEvent}
    (hevent : message.event = some event.id) :
    ∃ later, state.run.timer.invoke message = some ⟨event.id, later, message.userData⟩ := by
  simp only [CoreTimer.invoke, CoreTimer.lock, hevent, Option.filter, h.own,
    Option.bind_some, if_true]
  exact ⟨_, rfl⟩

theorem invoke_event {timer : CoreTimer} {message : Message} {call : Call}
    (hinvoke : timer.invoke message = some call) : message.event = some call.event := by
  obtain ⟨event, hlock, hcall⟩ := Option.bind_eq_some_iff.mp hinvoke
  have hevent := (Option.filter_eq_some_iff.mp hlock).1
  split at hcall
  · obtain rfl := Option.some.inj hcall
    exact hevent
  · cases hcall

theorem OwnEvent.eq_id_of_ofId {id : EventId} {event : OwnEvent}
    (h : OwnEvent.ofId id = some event) :
    id = event.id := by
  unfold OwnEvent.ofId at h
  split at h <;> cases h <;> rfl

theorem Timely.calls_iff (h : state.Timely) {message : Message}
    (hphase : state.run.timer.phase = .invoking message) (callback : Callback) :
    state.calls = some callback ↔ message.event = some callback.event.id
      ∧ callback.reading = state.run.timer.globalTimer := by
  simp only [calls, hphase]
  constructor
  · intro hcalls
    obtain ⟨call, hinvoke, hown⟩ := Option.bind_eq_some_iff.mp hcalls
    obtain ⟨event, hid, rfl⟩ := Option.map_eq_some_iff.mp hown
    rw [invoke_event hinvoke, OwnEvent.eq_id_of_ofId hid]
    exact ⟨rfl, rfl⟩
  · rintro ⟨hevent, hreading⟩
    obtain ⟨later, hinvoke⟩ := h.invoke_own hevent
    rw [hinvoke, Option.bind_some, OwnEvent.ofId_id, ← hreading]
    rfl

theorem Timely.called_invoked (h : state.Timely) {message : Message} {run : TimerRun}
    (hcalled : run.called = state.run.called ++ (state.run.timer.invoke message).toList)
    (event : OwnEvent) (callback : Option Callback) :
    ({ state with run := run, callback := callback } : TimerEvents).called event
      = state.called event + if message.event = some event.id then 1 else 0 := by
  simp only [called, hcalled, List.countP_append]
  congr 1
  split
  · rename_i hevent
    obtain ⟨later, hinvoke⟩ := h.invoke_own hevent
    rw [hinvoke]
    simp
  · rename_i hevent
    cases hinvoke : state.run.timer.invoke message with
    | none => rfl
    | some call =>
        rw [invoke_event hinvoke] at hevent
        have hne : call.event ≠ event.id := fun heq => hevent (congrArg some heq)
        simp [hne]

theorem mem_messagesOf_of_posted {run after : TimerRun} {message other : Message} {now : Int}
    {event : OwnEvent} (hposted : run.Posted message now after)
    (hne : message.event ≠ some event.id) (hother : other ∈ after.messagesOf event.id) :
    other ∈ run.messagesOf event.id := by
  have hperm := TimerRun.messagesOf_cons hposted.waiting event.id
  rw [if_neg hne, List.nil_append] at hperm
  exact hperm.mem_iff.mp hother

/-- The messages of the event that were posted from outside its callback. -/
def tickets (state : TimerEvents) : OwnEvent → Nat
  | .requestConfig => state.gameStarts.length
  | _ =>
      match state.stage with
      | .constructed | .opened => 0
      | _ => 1

/-- Each event is in as many places as it was posted to from outside, or fewer. -/
def Single (state : TimerEvents) : Prop :=
  ∀ event, (state.pending event).length + (state.runs event).toNat ≤ state.tickets event

/-- An event that was posted once is nowhere else while its callback runs. -/
theorem Single.pending_of_runs (h : state.Single) {event : OwnEvent}
    (hticket : state.tickets event ≤ 1) {callback : Callback}
    (hcallback : state.callback = some callback) (hevent : callback.event = event) :
    state.pending event = [] := by
  have hone := h event
  have hruns : state.runs event = true := by
    rw [runs, hcallback]
    exact decide_eq_true hevent
  rw [hruns, Bool.toNat_true] at hone
  exact List.eq_nil_of_length_eq_zero (by omega)

theorem eq_of_posted {run : TimerRun} {message other : Message} {now : Int} {event : OwnEvent}
    (hnowhere : state.pending event = []) (hposted : state.run.Posted message now run)
    (hevent : message.event = some event.id) (hother : other ∈ run.messagesOf event.id) :
    other = message := by
  have hperm := TimerRun.messagesOf_cons hposted.waiting event.id
  rw [if_pos hevent] at hperm
  change (run.messagesOf _).Perm ([message] ++ state.pending event) at hperm
  rw [hnowhere, List.append_nil] at hperm
  exact List.mem_singleton.mp (hperm.mem_iff.mp hother)

theorem Single.congr (h : state.Single) (hsame : state.SameTimer next)
    (htickets : ∀ event, next.tickets event = state.tickets event) : next.Single := by
  intro event
  rw [pending, runs, hsame.run, hsame.callback, htickets]
  exact h event

theorem OwnEvent.some_id_iff {event other : OwnEvent} :
    some event.id = some other.id ↔ event = other :=
  ⟨fun h => OwnEvent.id_inj (Option.some.inj h), fun h => h ▸ rfl⟩

theorem onNewUser_stage (state : TimerEvents) (user : Option Statistics.User) :
    (state.onNewUser user).stage = state.stage := by
  cases user with
  | none => rfl
  | some user =>
      simp only [onNewUser]
      split <;> rfl

theorem runs_calls (h : state.Timely) {message : Message} {run : TimerRun}
    (hphase : state.run.timer.phase = .invoking message) (event : OwnEvent) :
    ({ state with run := run, callback := state.calls } : TimerEvents).runs event
      = decide (message.event = some event.id) := by
  rw [Bool.eq_iff_iff, decide_eq_true_iff, runs, Option.any_eq_true]
  constructor
  · rintro ⟨callback, hcalls, hevent⟩
    rw [← of_decide_eq_true hevent]
    exact ((h.calls_iff hphase callback).mp hcalls).1
  · intro hevent
    exact ⟨⟨event, _⟩, (h.calls_iff hphase _).mpr ⟨hevent, rfl⟩, decide_eq_true rfl⟩

theorem Single.moved (h : state.Single) (htimely : state.Timely) (hmoved : state.Moved op next) :
    next.Single := by
  cases hmoved with
  | newGameSession latest hstage =>
      have hsame := state.newGameSession_timer latest
      refine h.congr (hsame.setStage .opened) fun event => ?_
      cases event <;> simp [tickets, hstage, hsame.gameStarts]
  | initHistory cached hstage =>
      have hsame := state.loadConfig_timer cached
      refine h.congr (hsame.setStage .initialized) fun event => ?_
      cases event <;> simp [tickets, hstage, hsame.gameStarts]
  | onNewUser user hstage =>
      have hsame := state.onNewUser_timer user
      refine h.congr hsame fun event => ?_
      cases event <;> simp [tickets, state.onNewUser_stage user, hsame.gameStarts]
  | @initHeatBeats now later first second message beat hstage hfirst hmessage hsecond hbeat =>
      intro event
      have hone := h event
      have hlength := TimerRun.length_messagesOf_cons hsecond.waiting event.id
      have hlength' := TimerRun.length_messagesOf_cons hfirst.waiting event.id
      simp only [hbeat, hmessage, OwnEvent.some_id_iff] at hlength hlength'
      have htickets : ({ state with run := second, stage := .beating } : TimerEvents).tickets event
          = (decide (OwnEvent.onlineHeatBeat = event)).toNat
            + (decide (OwnEvent.localHeatBeat = event)).toNat + state.tickets event := by
        cases event <;> simp [tickets, hstage]
      rw [htickets]
      change (second.messagesOf event.id).length + (state.runs event).toNat ≤ _
      change (state.run.messagesOf event.id).length + _ ≤ _ at hone
      omega
  | @gameStart now run message hstage hposted hevent hwhen =>
      intro event
      have hone := h event
      have hlength := TimerRun.length_messagesOf_cons hposted.waiting event.id
      simp only [hevent, OwnEvent.some_id_iff] at hlength
      have htickets : ({ state with run := run, gameStarts := state.gameStarts ++ [now] } :
          TimerEvents).tickets event
            = (decide (OwnEvent.requestConfig = event)).toNat + state.tickets event := by
        cases event <;> simp [tickets, Nat.add_comm]
      rw [htickets]
      change (run.messagesOf event.id).length + (state.runs event).toNat ≤ _
      change (state.run.messagesOf event.id).length + _ ≤ _ at hone
      omega
  | @quiet timerOp run hquiet =>
      intro event
      change (run.messagesOf event.id).length + _ ≤ _
      rw [(hquiet.messagesOf event.id).length_eq]
      exact h event
  | @foreign timerOp run message now hposted hevent =>
      intro event
      have hlength := TimerRun.length_messagesOf_cons hposted.waiting event.id
      rw [decide_eq_false (hevent event), Bool.toNat_false, Nat.zero_add] at hlength
      change (run.messagesOf event.id).length + _ ≤ _
      rw [hlength]
      exact h event
  | @invoked message run hphase hwaiting hcalled hclock =>
      intro event
      have hone := h event
      have hlength := TimerRun.length_messagesOf_cons hwaiting event.id
      rw [runs_calls htimely hphase event]
      change (state.run.messagesOf event.id).length + _ ≤ _ at hone
      change (run.messagesOf event.id).length + _ ≤ state.tickets event
      omega
  | @reposted callback result now run message hcallback hposted hevent hwhen =>
      intro event
      have hone := h event
      have hlength := TimerRun.length_messagesOf_cons hposted.waiting event.id
      simp only [hevent, OwnEvent.some_id_iff] at hlength
      have hruns : state.runs event = decide (callback.event = event) := by
        rw [runs, hcallback]; rfl
      rw [hruns] at hone
      change (state.run.messagesOf event.id).length + _ ≤ _ at hone
      change (run.messagesOf event.id).length + 0 ≤ state.tickets event
      omega
  | answered config hcallback =>
      intro event
      have hone := h event
      change (state.pending event).length + 0 ≤ state.tickets event
      omega

end TimerEvents

end TapSdk.Duration
