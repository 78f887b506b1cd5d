import TapSdk.Duration.Proof.TimerProgress

/-!
# Requests for the configuration

A request that fails posts itself again three seconds later, every time: the counter of the retries
is a local variable of the callback. So there are as many requests as three seconds fit in the time
since the game was started, and one more.
-/

namespace TapSdk.Duration.TimerEvents

open Library Timer

variable {heap : HeapFunctions Message} {state next : TimerEvents} {op : Op}

/-- `GameStart` is called once, and every request fails. -/
def Failing (state : TimerEvents) : Op → Prop
  | .gameStart _ => state.gameStarts = []
  | .finish result _ => result = none
  | _ => True

instance (state : TimerEvents) (op : Op) : Decidable (Failing state op) := by
  cases op <;> unfold Failing <;> infer_instance

def requests (state : TimerEvents) : Nat := state.called .requestConfig

/-! ### At most one request in three seconds -/

structure Paced (state : TimerEvents) : Prop where
  once : state.gameStarts.length ≤ 1
  unstarted : state.gameStarts = [] → state.requests = 0
  waits : ∀ start ∈ state.gameStarts, ∀ message ∈ state.pending .requestConfig,
    start + configRetry * state.requests ≤ message.when
  elapsed : ∀ start ∈ state.gameStarts,
    start + configRetry * state.requests ≤ state.run.clock + configRetry

/-- A step that has nothing to do with the request. -/
theorem Paced.beside (h : state.Paced) (hstarts : next.gameStarts = state.gameStarts)
    (hrequests : next.requests = state.requests)
    (hpending : ∀ message ∈ next.pending .requestConfig, message ∈ state.pending .requestConfig)
    (hclock : state.run.clock ≤ next.run.clock) : next.Paced := by
  refine ⟨?_, ?_, ?_, ?_⟩
  · rw [hstarts]
    exact h.once
  · rw [hstarts, hrequests]
    exact h.unstarted
  · rw [hstarts, hrequests]
    intro start hstart message hmessage
    exact h.waits start hstart message (hpending message hmessage)
  · rw [hstarts, hrequests]
    intro start hstart
    have helapsed := h.elapsed start hstart
    omega

theorem Paced.sameTimer (h : state.Paced) (hsame : state.SameTimer next) : next.Paced := by
  refine h.beside hsame.gameStarts ?_ ?_ (le_of_eq (congrArg TimerRun.clock hsame.run.symm))
  · rw [requests, requests, called, called, hsame.run]
  · intro message hmessage
    rw [pending, hsame.run] at hmessage
    exact hmessage

theorem Paced.initHeatBeats (h : state.Paced) {now later : Int} {first second : TimerRun}
    {message beat : Message} (hfirst : state.run.Posted message now first)
    (hmessage : message.event = some OwnEvent.localHeatBeat.id)
    (hsecond : first.Posted beat later second)
    (hbeat : beat.event = some OwnEvent.onlineHeatBeat.id) :
    ({ state with run := second, stage := .beating } : TimerEvents).Paced := by
  refine h.beside rfl ?_ ?_ ?_
  · change second.called.countP _ = state.run.called.countP _
    rw [hsecond.called, hfirst.called]
  · intro other hother
    refine mem_messagesOf_of_posted hfirst (by rw [hmessage]; decide) ?_
    exact mem_messagesOf_of_posted hsecond (by rw [hbeat]; decide) hother
  · have hlast : second.clock = later := hsecond.clock
    have hmid := hsecond.before
    have hclock := hfirst.before
    rw [hfirst.clock] at hmid
    change state.run.clock ≤ second.clock
    omega

/-- `GameStart` posts the request, which is nowhere yet. -/
theorem Paced.gameStart (h : state.Paced) (hsingle : state.Single)
    (hunstarted : state.gameStarts = []) {now : Int} {run : TimerRun} {message : Message}
    (hposted : state.run.Posted message now run)
    (hevent : message.event = some OwnEvent.requestConfig.id) (hwhen : message.when = now) :
    ({ state with run := run, gameStarts := state.gameStarts ++ [now] } : TimerEvents).Paced := by
  have hnone : state.requests = 0 := h.unstarted hunstarted
  have hrequests : ({ state with run := run, gameStarts := state.gameStarts ++ [now] } :
      TimerEvents).requests = 0 := by
    rw [← hnone]
    change run.called.countP _ = state.run.called.countP _
    rw [hposted.called]
  have hnowhere : state.pending .requestConfig = [] := by
    have hone := hsingle .requestConfig
    rw [tickets, hunstarted, List.length_nil] at hone
    exact List.eq_nil_of_length_eq_zero (by omega)
  refine ⟨?_, fun hnil => by simp at hnil, ?_, ?_⟩
  · rw [hunstarted]
    exact le_refl _
  · intro start hstart other hother
    rw [hunstarted, List.nil_append, List.mem_singleton] at hstart
    rw [eq_of_posted hnowhere hposted hevent hother, hrequests, hstart, hwhen]
    simp
  · intro start hstart
    rw [hunstarted, List.nil_append, List.mem_singleton] at hstart
    have hpos : 0 < configRetry := by decide
    rw [hrequests, hstart]
    change now + configRetry * (0 : Nat) ≤ run.clock + configRetry
    rw [hposted.clock]
    omega

/-- The request is called: three seconds have gone by since it was called last. -/
theorem Paced.invoked (h : state.Paced) (htimely : state.Timely) (hsingle : state.Single)
    {message : Message} {run : TimerRun} (hphase : state.run.timer.phase = .invoking message)
    (hwaiting : state.run.waiting.Perm (message :: run.waiting))
    (hcalled : run.called = state.run.called ++ (state.run.timer.invoke message).toList)
    (hclock : run.clock = state.run.clock) :
    ({ state with run := run, callback := state.calls } : TimerEvents).Paced := by
  have hrequests := htimely.called_invoked hcalled .requestConfig state.calls
  have hperm := TimerRun.messagesOf_cons hwaiting OwnEvent.requestConfig.id
  by_cases hevent : message.event = some OwnEvent.requestConfig.id
  · rw [if_pos hevent] at hrequests hperm
    have hmem : message ∈ state.pending .requestConfig :=
      hperm.mem_iff.mpr (List.mem_append_left _ (List.mem_singleton.mpr rfl))
    have hone := hsingle .requestConfig
    have hlength : (state.pending .requestConfig).length
        = 1 + (run.messagesOf OwnEvent.requestConfig.id).length :=
      hperm.length_eq.trans List.length_append
    have honce := h.once
    rw [tickets] at hone
    refine ⟨h.once, ?_, ?_, ?_⟩
    · intro hnil
      rw [show state.gameStarts = [] from hnil] at hone
      simp only [List.length_nil] at hone
      omega
    · intro start hstart other hother
      have hnowhere : run.messagesOf OwnEvent.requestConfig.id = [] :=
        List.eq_nil_of_length_eq_zero (by omega)
      change other ∈ run.messagesOf _ at hother
      rw [hnowhere] at hother
      cases hother
    · intro start hstart
      have hwaited := h.waits start hstart message hmem
      have hdue := htimely.due message hphase
      have hread := htimely.read fun hidle => by cases hphase.symm.trans hidle
      change start + configRetry * (called _ .requestConfig : Nat) ≤ run.clock + configRetry
      rw [hrequests, hclock]
      change start + configRetry * ((state.requests + 1 : Nat) : Int) ≤ _
      rw [Int.natCast_add, Int.natCast_one, Int.mul_add, Int.mul_one]
      omega
  · rw [if_neg hevent] at hrequests hperm
    rw [List.nil_append] at hperm
    refine h.beside rfl hrequests ?_ (le_of_eq hclock.symm)
    intro other hother
    exact hperm.mem_iff.mpr hother

/-- The request failed and is posted again. -/
theorem Paced.reposted (h : state.Paced) (hsingle : state.Single) {callback : Callback} {now : Int}
    {run : TimerRun} {message : Message} {beats : List Beat}
    (hcallback : state.callback = some callback) (hposted : state.run.Posted message now run)
    (hevent : message.event = some callback.event.id)
    (hwhen : message.when = state.interval callback.event + now) :
    ({ state with run := run, callback := none, beats := beats } : TimerEvents).Paced := by
  have hrequests : ({ state with run := run, callback := none, beats := beats } :
      TimerEvents).requests = state.requests := by
    change run.called.countP _ = state.run.called.countP _
    rw [hposted.called]
  have hclock : state.run.clock ≤ run.clock := by
    rw [hposted.clock]
    exact hposted.before
  by_cases hrequest : callback.event = .requestConfig
  · have hticket : state.tickets .requestConfig ≤ 1 := h.once
    have hnowhere := hsingle.pending_of_runs hticket hcallback hrequest
    rw [hrequest] at hevent hwhen
    refine ⟨h.once, ?_, ?_, ?_⟩
    · rw [hrequests]
      exact h.unstarted
    · intro start hstart other hother
      have helapsed := h.elapsed start hstart
      have hbefore := hposted.before
      change message.when = configRetry + now at hwhen
      rw [eq_of_posted hnowhere hposted hevent hother, hrequests]
      omega
    · intro start hstart
      have helapsed := h.elapsed start hstart
      rw [hrequests]
      change _ ≤ run.clock + configRetry
      omega
  · refine h.beside rfl hrequests (fun other hother => ?_) hclock
    refine mem_messagesOf_of_posted hposted ?_ hother
    rw [hevent]
    exact fun hid => hrequest (OwnEvent.id_inj (Option.some.inj hid))

theorem Paced.moved (h : state.Paced) (htimely : state.Timely) (hsingle : state.Single)
    (hfailing : Failing state op) (hmoved : state.Moved op next) : next.Paced := by
  cases hmoved with
  | newGameSession latest hstage =>
      exact h.sameTimer ((state.newGameSession_timer latest).setStage .opened)
  | initHeatBeats hstage hfirst hmessage hsecond hbeat =>
      exact h.initHeatBeats hfirst hmessage hsecond hbeat
  | initHistory cached hstage =>
      exact h.sameTimer ((state.loadConfig_timer cached).setStage .initialized)
  | onNewUser user hstage => exact h.sameTimer (state.onNewUser_timer user)
  | gameStart hstage hposted hevent hwhen =>
      exact h.gameStart hsingle hfailing hposted hevent hwhen
  | @quiet timerOp run hquiet =>
      refine h.beside rfl ?_ (fun other hother => ?_) hquiet.clock
      · change run.called.countP _ = state.run.called.countP _
        rw [hquiet.called]
      · exact (hquiet.messagesOf _).mem_iff.mp hother
  | @foreign timerOp run message now hposted hevent =>
      refine h.beside rfl ?_ (fun other hother => ?_)
        (hposted.before.trans (le_of_eq hposted.clock.symm))
      · change run.called.countP _ = state.run.called.countP _
        rw [hposted.called]
      · exact mem_messagesOf_of_posted hposted (hevent .requestConfig) hother
  | invoked hphase hwaiting hcalled hclock =>
      exact h.invoked htimely hsingle hphase hwaiting hcalled hclock
  | reposted hcallback hposted hevent hwhen =>
      exact h.reposted hsingle hcallback hposted hevent hwhen
  | answered config hcallback => cases hfailing

theorem paced_of_reaches (hheap : heap.Correct Message.key)
    (hreach : (system heap).Reaches Failing state) : state.Paced := by
  have hall : state.Timely ∧ state.Single ∧ state.Paced := by
    refine hreach.invariant (fun state => state.Timely ∧ state.Single ∧ state.Paced) ?_ ?_
    · intro state hinit
      obtain ⟨htimely, hsingle⟩ := @sound_of_reaches heap state Failing hheap (.init hinit)
      obtain ⟨clock, event, _, rfl⟩ := hinit
      exact ⟨htimely, hsingle, Nat.zero_le _, fun _ => rfl, nofun, nofun⟩
    · rintro state op next ⟨htimely, hsingle, hpaced⟩ hfailing hstep
      obtain ⟨hmoved, hnext⟩ := moved_of_step hheap htimely hstep
      exact ⟨hnext, hsingle.moved htimely hmoved, hpaced.moved htimely hsingle hfailing hmoved⟩
  exact hall.2.2

/-! ### One request in three seconds -/

/-- The next request is due so many retries after the start. -/
structure Retries (heap : HeapFunctions Message) (start : Int) (count : Nat) (state : TimerEvents) :
    Prop where
  reaches : (system heap).Reaches Failing state
  free : state.Free
  tick : 0 < state.onlineTickInterval
  gameStarts : state.gameStarts = [start]
  requests : state.requests = count
  waits : ∃ message ∈ state.run.waiting, message.event = some OwnEvent.requestConfig.id
    ∧ message.when = start + configRetry * count
  clock : state.run.clock ≤ start + configRetry * count

theorem exists_started (hheap : heap.Correct Message.key) (start : Int) :
    ∃ state, Retries heap start 0 state := by
  obtain ⟨run, hreach, hphase, hclock, hcalled, _⟩ :=
    @exists_beating heap Failing hheap (fun _ _ => trivial) (fun _ _ _ => trivial) none start
  obtain ⟨ready, hready⟩ : ∃ ready, ready = ({ construct start fun _ => ⟨true, true⟩ with
      run := run, stage := .initialized } : TimerEvents) := ⟨_, rfl⟩
  have hloaded : (system heap).step { (construct start fun _ => ⟨true, true⟩).newGameSession none
      with run := run, stage := .beating } (.initHistory none) = some ready := by
    rw [hready]
    rfl
  have hconfigured := hreach.step (show Failing _ (.initHistory none) from trivial) hloaded
  obtain ⟨htimely, _⟩ := sound_of_reaches hheap hconfigured
  have hidle : ready.run.timer.phase = .idle := by rw [hready]; exact hphase
  have hnow : ready.run.clock ≤ start := by rw [hready]; exact le_of_eq hclock
  obtain ⟨posted, hpost, hsame⟩ :=
    htimely.exists_post heap (by rw [hidle]; nofun) hnow .requestConfig 0
  obtain ⟨_, heq, _, hposted⟩ := post_spec hheap htimely hpost
  obtain rfl : posted = _ := congrArg TimerEvents.run heq
  have hstep : (system heap).step ready (.gameStart start)
      = some { ready with run := posted, gameStarts := ready.gameStarts ++ [start] } := by
    have hstage : ready.stage = .initialized := by rw [hready]
    change (if ready.stage = .initialized then _ else none) = _
    rw [if_pos hstage, hpost, Option.map_some]
  have hunstarted : ready.gameStarts = [] := by rw [hready]; rfl
  have hstarted := hconfigured.step (show Failing ready (.gameStart start) from hunstarted) hstep
  refine ⟨_, hstarted, ⟨by rw [hready]; rfl, Or.inl ?_⟩, ?_, ?_, ?_, ?_, ?_⟩
  · exact hsame.trans hidle
  · rw [hready]
    change 0 < ms (ReportConfig.default.noTapFrequency * 1000)
    decide
  · rw [hunstarted]
    rfl
  · change posted.called.countP _ = 0
    rw [hposted.called, hready]
    change run.called.countP _ = 0
    rw [hcalled]
    rfl
  · refine ⟨_, hposted.waiting.mem_iff.mpr List.mem_cons_self, rfl, ?_⟩
    change 0 + start = start + configRetry * (0 : Nat)
    omega
  · change posted.clock ≤ start + configRetry * (0 : Nat)
    rw [hposted.clock]
    omega

/-- The request is called when it is due, fails, and is due again three seconds later. -/
theorem Retries.again (hheap : heap.Correct Message.key) {start : Int} {count : Nat}
    (h : Retries heap start count state) :
    ∃ next, Retries heap start (count + 1) next
      ∧ next.run.clock = start + configRetry * count := by
  obtain ⟨message, hmem, hevent, hwhen⟩ := h.waits
  have htick := h.tick
  have hticket : state.tickets .requestConfig ≤ 1 := by
    rw [tickets, h.gameStarts]
    exact le_refl _
  obtain ⟨called, hcalled, hkept, hphase, hclock, _, hsame⟩ :=
    exists_invoking hheap (fun _ timerOp => trivial) (fun _ _ => rfl) h.reaches h.free hmem hevent
      hticket h.clock (le_of_eq hwhen) (by omega)
  obtain ⟨next, added, hnext, hreturned⟩ :=
    exists_returned hheap (fun _ timerOp => trivial) (fun _ _ => rfl) hcalled hphase
  have hkeeps := hkept.trans hreturned.kept
  obtain ⟨again, rfl⟩ := Option.ne_none_iff_exists'.mp (hreturned.posts .requestConfig hevent)
  obtain ⟨event, hfront, hagain, hagainWhen⟩ := hreturned.posted again rfl
  obtain rfl := OwnEvent.id_inj (Option.some.inj (hfront.symm.trans hevent))
  change again.when = configRetry + called.run.clock at hagainWhen
  rw [hclock] at hagainWhen
  have hcount : start + configRetry * ((count + 1 : Nat) : Int)
      = configRetry + (start + configRetry * count) := by
    rw [Int.natCast_add, Int.natCast_one, Int.mul_add, Int.mul_one]
    omega
  have hpos : 0 < configRetry := by decide
  have hnow : next.run.clock = start + configRetry * count := hreturned.clock.trans hclock
  have hstays : again ∈ next.run.waiting := by
    have hmore : again ∈ message :: next.run.waiting :=
      hreturned.waiting.mem_iff.mpr (List.mem_append_left _ (List.mem_singleton.mpr rfl))
    rcases List.mem_cons.mp hmore with rfl | hrest
    · omega
    · exact hrest
  refine ⟨next, ⟨hnext, hreturned.free, ?_, hkeeps.gameStarts.trans h.gameStarts, ?_,
    ⟨again, hstays, hagain, hagainWhen.trans hcount.symm⟩, ?_⟩, hnow⟩
  · rw [hkeeps.tick]
    exact h.tick
  · rw [TimerEvents.requests, hreturned.called, if_pos hevent, hsame, ← h.requests]
    rfl
  · rw [hnow, hcount]
    omega

theorem exists_requests (hheap : heap.Correct Message.key) (start : Int) (count : Nat) :
    ∃ state, Retries heap start (count + 1) state
      ∧ state.run.clock = start + configRetry * count := by
  induction count with
  | zero =>
      obtain ⟨state, hstate⟩ := exists_started hheap start
      exact hstate.again hheap
  | succ count ih =>
      obtain ⟨state, hstate, _⟩ := ih
      exact hstate.again hheap

/-- **There are at most four requests within the time that three retries take, and only then**: the
requests of a run in which they all fail are bounded by the time that it takes, and by nothing
else. -/
theorem requests_bounded_iff (hheap : heap.Correct Message.key) (limit : Int) :
    (∀ state, (system heap).Reaches Failing state →
        (∀ start ∈ state.gameStarts, state.run.clock ≤ start + limit) → state.requests ≤ 4)
      ↔ limit < 4 * configRetry := by
  have hpos : 0 < configRetry := by decide
  constructor
  · intro hbounded
    by_contra hlong
    obtain ⟨state, hstate, hclock⟩ := exists_requests hheap 0 4
    have hmany := hbounded state hstate.reaches fun start hstart => ?_
    · rw [hstate.requests] at hmany
      omega
    · rw [hstate.gameStarts, List.mem_singleton] at hstart
      rw [hstart, hclock]
      have hfour : configRetry * ((4 : Nat) : Int) = 4 * configRetry := Int.mul_comm _ _
      omega
  · intro hshort state hreach hwithin
    have hpaced := paced_of_reaches hheap hreach
    cases hstarts : state.gameStarts with
    | nil => exact (hpaced.unstarted hstarts).trans_le (Nat.zero_le 4)
    | cons start rest =>
        have hmem : start ∈ state.gameStarts := by rw [hstarts]; exact List.mem_cons_self
        have helapsed := hpaced.elapsed start hmem
        have hclock := hwithin start hmem
        have hretry : configRetry = 3000000000 := by decide
        rw [hretry] at helapsed hshort
        omega

theorem requests_bounded_nine_seconds :
    (∀ state, (system (sortingHeap Message.key)).Reaches Failing state →
        (∀ start ∈ state.gameStarts, state.run.clock ≤ start + 3 * configRetry) →
        state.requests ≤ 4)
      ∧ ∃ state, (system (sortingHeap Message.key)).Reaches Failing state
        ∧ state.gameStarts = [0] ∧ state.run.clock = 3 * configRetry ∧ state.requests = 4 := by
  have hheap := sortingHeap_correct Message.key
  refine ⟨(requests_bounded_iff hheap (3 * configRetry)).mpr (by decide), ?_⟩
  obtain ⟨state, hstate, hclock⟩ := exists_requests hheap 0 3
  refine ⟨state, hstate.reaches, hstate.gameStarts, ?_, hstate.requests⟩
  rw [hclock]
  decide

/-- `Advance` has read the clock; the first message is called and posted again. -/
def callFirst (now : Int) : List Op := [.timer .scan, .timer .invoke, .finish none now]

/-- The game is started, and the timer runs for twelve seconds, in one call of `Advance`. -/
def twelveSeconds : List Op :=
  [.newGameSession none, .initHeatBeats 0 0, .initHistory none, .gameStart 0, .timer (.advance 0)]
    ++ callFirst 0 ++ [3, 6, 6, 9, 12, 12].flatMap fun seconds : Int =>
      .timer (.relock (1000000000 * seconds)) :: callFirst (1000000000 * seconds)

theorem fifth_request : ∃ state, (system (sortingHeap Message.key)).guarded Failing twelveSeconds
      (construct 0 fun _ => ⟨true, true⟩) = some state
    ∧ state.gameStarts = [0] ∧ ¬ state.requests ≤ 4 := by
  have hrun : ((system (sortingHeap Message.key)).guarded Failing twelveSeconds
      (construct 0 fun _ => ⟨true, true⟩)).any (fun state =>
        state.gameStarts = [0] ∧ ¬ state.requests ≤ 4) = true := by decide +kernel
  obtain ⟨state, hlast, hmany⟩ := (Option.any_eq_true _ _).mp hrun
  exact ⟨state, hlast, of_decide_eq_true hmany⟩

end TapSdk.Duration.TimerEvents
