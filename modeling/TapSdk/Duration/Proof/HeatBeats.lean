import TapSdk.Duration.Proof.TimerProgress

/-!
# The intervals of the online heartbeat

The frequency of the configuration is seconds; it is multiplied in 32 bits before it becomes a
duration, and it may be zero. With a frequency that is neither, the interval is exact, and a
heartbeat that fires is posted for a later time than the clock showed, so `Advance` does not run it
again before the clock has moved.
-/

namespace TapSdk.Duration

open Library Timer

/-- A frequency that is not zero, and whose milliseconds fit in 32 bits. -/
def FitFrequency (frequency : UInt32) : Prop := 1 ≤ frequency.toNat ∧ frequency.toNat ≤ 4294967

theorem ms_mul_thousand (frequency : UInt32) :
    ms (frequency * 1000) = 1000000000 * (frequency.toNat : Int) ↔ frequency.toNat ≤ 4294967 := by
  have hlt := frequency.toNat_lt
  have hproduct : (frequency * 1000).toNat = frequency.toNat * 1000 % 4294967296 := by
    rw [UInt32.toNat_mul]
    rfl
  unfold ms
  rw [hproduct]
  omega

theorem ms_pos_iff (frequency : UInt32) : 0 < 1000000000 * (frequency.toNat : Int)
    ↔ 1 ≤ frequency.toNat := by
  omega

def ReportConfig.frequency (config : ReportConfig) (tapUser : Bool) : UInt32 :=
  if tapUser then config.tapFrequency else config.noTapFrequency

namespace TimerEvents

variable {heap : HeapFunctions Message} {state next : TimerEvents} {op : Op}

/-- The interval is as many seconds as the configuration says for the user. -/
def Exact (state : TimerEvents) : Prop :=
  state.onlineTickInterval
    = 1000000000 * ((state.reportConfig.frequency state.tapUser).toNat : Int)

/-- Every configuration that is read is this one. -/
def Gives (config : ReportConfig) (_ : TimerEvents) : Op → Prop
  | .initHistory cached => ∀ other ∈ cached, other = config
  | .finish result _ => ∀ other ∈ result, other = config
  | _ => True

/-! ### With frequencies that fit -/

/-- The intervals are those of the configuration, exactly. -/
structure Tuned (state : TimerEvents) : Prop where
  fit : ∀ tapUser, FitFrequency (state.reportConfig.frequency tapUser)
  tap : state.onlineHeatBeatInterval = 1000000000 * (state.reportConfig.tapFrequency.toNat : Int)
  noTap : state.onlineHeatBeatIntervalNoTap
    = 1000000000 * (state.reportConfig.noTapFrequency.toNat : Int)
  exact : state.Exact

theorem Tuned.selectTick (hfit : ∀ tapUser, FitFrequency (state.reportConfig.frequency tapUser))
    (htap : state.onlineHeatBeatInterval
      = 1000000000 * (state.reportConfig.tapFrequency.toNat : Int))
    (hnoTap : state.onlineHeatBeatIntervalNoTap
      = 1000000000 * (state.reportConfig.noTapFrequency.toNat : Int)) :
    state.selectTick.Tuned := by
  refine ⟨hfit, htap, hnoTap, ?_⟩
  change (if state.tapUser then state.onlineHeatBeatInterval else state.onlineHeatBeatIntervalNoTap)
    = 1000000000 * ((if state.tapUser then state.reportConfig.tapFrequency
      else state.reportConfig.noTapFrequency).toNat : Int)
  cases state.tapUser with
  | true => exact htap
  | false => exact hnoTap

theorem Tuned.refreshConfig (state : TimerEvents) {config : ReportConfig}
    (hfit : ∀ tapUser, FitFrequency (config.frequency tapUser)) :
    (state.refreshConfig config).Tuned := by
  refine Tuned.selectTick hfit ?_ ?_
  · exact (ms_mul_thousand config.tapFrequency).mpr (hfit true).2
  · exact (ms_mul_thousand config.noTapFrequency).mpr (hfit false).2

theorem Tuned.tick_pos (h : state.Tuned) : 0 < state.onlineTickInterval := by
  rw [h.exact, ms_pos_iff]
  exact (h.fit state.tapUser).1

theorem Tuned.newGameSession (h : state.Tuned) (latest : Option GameSession) :
    (state.newGameSession latest).Tuned := by
  cases latest with
  | none => exact h
  | some session => exact Tuned.selectTick h.fit h.tap h.noTap

theorem Tuned.onNewUser (h : state.Tuned) (user : Option Statistics.User) :
    (state.onNewUser user).Tuned := by
  cases user with
  | none => exact ⟨h.fit, h.tap, h.noTap, h.noTap⟩
  | some user =>
      simp only [TimerEvents.onNewUser]
      split
      · exact Tuned.selectTick h.fit h.tap h.noTap
      · exact Tuned.selectTick h.fit h.tap h.noTap

theorem fit_default (tapUser : Bool) : FitFrequency (ReportConfig.default.frequency tapUser) := by
  cases tapUser <;> exact ⟨by decide, by decide⟩

theorem tuned_construct (clock : Int) (event : EventId → Event) :
    (construct clock event).Tuned := by
  have htap := (ms_mul_thousand ReportConfig.default.tapFrequency).mpr (fit_default true).2
  have hnoTap := (ms_mul_thousand ReportConfig.default.noTapFrequency).mpr (fit_default false).2
  exact ⟨fit_default, htap, hnoTap, hnoTap⟩

/-- The intervals, the configuration and the user are the same. -/
theorem Tuned.congr (h : state.Tuned) (hconfig : next.reportConfig = state.reportConfig)
    (htapUser : next.tapUser = state.tapUser)
    (htap : next.onlineHeatBeatInterval = state.onlineHeatBeatInterval)
    (hnoTap : next.onlineHeatBeatIntervalNoTap = state.onlineHeatBeatIntervalNoTap)
    (htick : next.onlineTickInterval = state.onlineTickInterval) : next.Tuned := by
  refine ⟨?_, ?_, ?_, ?_⟩
  · rw [hconfig]
    exact h.fit
  · rw [hconfig, htap]
    exact h.tap
  · rw [hconfig, hnoTap]
    exact h.noTap
  · unfold Exact
    rw [hconfig, htapUser, htick]
    exact h.exact

theorem Tuned.moved (h : state.Tuned) {config : ReportConfig}
    (hfit : ∀ tapUser, FitFrequency (config.frequency tapUser)) (hgives : Gives config state op)
    (hmoved : state.Moved op next) : next.Tuned := by
  cases hmoved with
  | newGameSession latest _ => exact (h.newGameSession latest).congr rfl rfl rfl rfl rfl
  | initHistory cached _ =>
      cases cached with
      | none => exact h.congr rfl rfl rfl rfl rfl
      | some cached =>
          obtain rfl := hgives cached rfl
          exact (Tuned.refreshConfig state hfit).congr rfl rfl rfl rfl rfl
  | onNewUser user _ => exact h.onNewUser user
  | answered cached _ =>
      obtain rfl := hgives cached rfl
      exact (Tuned.refreshConfig state hfit).congr rfl rfl rfl rfl rfl
  | _ => exact h.congr rfl rfl rfl rfl rfl

theorem tickets_onlineHeatBeat (state : TimerEvents) : state.tickets .onlineHeatBeat ≤ 1 := by
  simp only [tickets]
  split <;> decide

structure Steady (state : TimerEvents) : Prop where
  later : ∀ beat ∈ state.beats, beat.reading < beat.deadline
  apart : state.beats.Pairwise fun beat other => beat.reading < other.reading
  waits : ∀ message ∈ state.pending .onlineHeatBeat, ∀ beat ∈ state.beats,
    beat.deadline ≤ message.when
  fires : ∀ callback, state.callback = some callback → callback.event = .onlineHeatBeat →
    ∀ beat ∈ state.beats, beat.deadline ≤ callback.reading
  unposted : state.tickets .onlineHeatBeat = 0 → state.beats = []

/-- A step that has nothing to do with the online heartbeat. -/
theorem Steady.beside (h : state.Steady) (hbeats : next.beats = state.beats)
    (hpending : ∀ message ∈ next.pending .onlineHeatBeat, message ∈ state.pending .onlineHeatBeat)
    (hcallback : ∀ callback, next.callback = some callback → callback.event = .onlineHeatBeat →
      state.callback = some callback)
    (htickets : next.tickets .onlineHeatBeat = state.tickets .onlineHeatBeat) : next.Steady := by
  refine ⟨?_, ?_, ?_, ?_, ?_⟩
  · rw [hbeats]
    exact h.later
  · rw [hbeats]
    exact h.apart
  · rw [hbeats]
    intro message hmessage
    exact h.waits message (hpending message hmessage)
  · rw [hbeats]
    intro callback hsome honline
    exact h.fires callback (hcallback callback hsome honline) honline
  · rw [hbeats, htickets]
    exact h.unposted

theorem Steady.sameTimer (h : state.Steady) (hsame : state.SameTimer next)
    (htickets : next.tickets .onlineHeatBeat = state.tickets .onlineHeatBeat) : next.Steady := by
  refine h.beside hsame.beats ?_ ?_ htickets
  · intro message hmessage
    rw [pending, hsame.run] at hmessage
    exact hmessage
  · intro callback hsome _
    exact hsame.callback.symm.trans hsome

/-- The heartbeat is called, and it was due. -/
theorem Steady.invoked (h : state.Steady) (htimely : state.Timely) {message : Message}
    {run : TimerRun} (hphase : state.run.timer.phase = .invoking message)
    (hwaiting : state.run.waiting.Perm (message :: run.waiting)) :
    ({ state with run := run, callback := state.calls } : TimerEvents).Steady := by
  have hperm := TimerRun.messagesOf_cons hwaiting OwnEvent.onlineHeatBeat.id
  refine ⟨h.later, h.apart, ?_, ?_, h.unposted⟩
  · intro other hother
    exact h.waits other (hperm.mem_iff.mpr (List.mem_append_right _ hother))
  · intro callback hcalls honline beat hbeat
    obtain ⟨hevent, hreading⟩ := (htimely.calls_iff hphase callback).mp hcalls
    rw [honline] at hevent
    rw [if_pos hevent] at hperm
    have hmem : message ∈ state.pending .onlineHeatBeat :=
      hperm.mem_iff.mpr (List.mem_append_left _ (List.mem_singleton.mpr rfl))
    have hdue := htimely.due message hphase
    have hwaits := h.waits message hmem beat hbeat
    omega

/-- The heartbeat is posted again, for a later time than the clock showed when it was called. -/
theorem Steady.reposted (h : state.Steady) (htimely : state.Timely) (hsingle : state.Single)
    (htick : 0 < state.onlineTickInterval) {reading now : Int} {run : TimerRun} {message : Message}
    (hcallback : state.callback = some ⟨.onlineHeatBeat, reading⟩)
    (hposted : state.run.Posted message now run)
    (hevent : message.event = some OwnEvent.onlineHeatBeat.id)
    (hwhen : message.when = state.onlineTickInterval + now) :
    ({ state with run := run, callback := none
                  beats := state.beats ++ [⟨reading, message.when⟩] } : TimerEvents).Steady := by
  obtain ⟨hphase, hreading⟩ := htimely.running _ hcallback
  have hread := htimely.read (by rw [hphase]; nofun)
  have hbefore := hposted.before
  have hfires := h.fires _ hcallback rfl
  have hnowhere := hsingle.pending_of_runs (tickets_onlineHeatBeat state) hcallback rfl
  change reading = _ at hreading
  have hlate : reading < message.when := by omega
  refine ⟨?_, ?_, ?_, nofun, ?_⟩
  · intro beat hbeat
    rcases List.mem_append.mp hbeat with hold | hnew
    · exact h.later beat hold
    · rw [List.mem_singleton.mp hnew]
      exact hlate
  · rw [List.pairwise_append]
    refine ⟨h.apart, List.pairwise_singleton _ _, ?_⟩
    intro beat hbeat other hother
    rw [List.mem_singleton.mp hother]
    exact lt_of_lt_of_le (h.later beat hbeat) (hfires beat hbeat)
  · intro other hother beat hbeat
    rw [eq_of_posted hnowhere hposted hevent hother]
    rcases List.mem_append.mp hbeat with hold | hnew
    · exact (hfires beat hold).trans (le_of_lt hlate)
    · rw [List.mem_singleton.mp hnew]
  · intro hzero
    -- the callback runs, so the heartbeat has been posted
    have hone := hsingle .onlineHeatBeat
    have hruns : state.runs .onlineHeatBeat = true := by rw [runs, hcallback]; rfl
    change state.tickets .onlineHeatBeat = 0 at hzero
    rw [hruns, Bool.toNat_true] at hone
    omega

theorem Steady.moved (h : state.Steady) (htimely : state.Timely) (hsingle : state.Single)
    (htick : 0 < state.onlineTickInterval) (hmoved : state.Moved op next) : next.Steady := by
  cases hmoved with
  | newGameSession latest hstage =>
      refine h.sameTimer ((state.newGameSession_timer latest).setStage .opened) ?_
      simp only [tickets, hstage]
  | @initHeatBeats now later first second message beat hstage hfirst hmessage hsecond hbeat =>
      have hnone : state.beats = [] := h.unposted (by simp only [tickets, hstage])
      have hnot : ∀ beat, beat ∉ state.beats := by
        intro beat
        rw [hnone]
        exact List.not_mem_nil
      exact ⟨h.later, h.apart, fun _ _ beat hbeat => absurd hbeat (hnot beat), h.fires,
        fun _ => hnone⟩
  | initHistory cached hstage =>
      refine h.sameTimer ((state.loadConfig_timer cached).setStage .initialized) ?_
      simp only [tickets, hstage]
  | onNewUser user hstage =>
      refine h.sameTimer (state.onNewUser_timer user) ?_
      simp only [tickets, state.onNewUser_stage user]
  | gameStart hstage hposted hevent hwhen =>
      refine h.beside rfl (fun other hother => ?_) (fun _ hsome _ => hsome) rfl
      exact mem_messagesOf_of_posted hposted (by rw [hevent]; decide) hother
  | quiet hquiet =>
      refine h.beside rfl (fun other hother => ?_) (fun _ hsome _ => hsome) rfl
      exact (hquiet.messagesOf _).mem_iff.mp hother
  | foreign hposted hevent =>
      refine h.beside rfl (fun other hother => ?_) (fun _ hsome _ => hsome) rfl
      exact mem_messagesOf_of_posted hposted (hevent .onlineHeatBeat) hother
  | invoked hphase hwaiting hcalled hclock => exact h.invoked htimely hphase hwaiting
  | @reposted callback result now run message hcallback hposted hevent hwhen =>
      obtain ⟨event, reading⟩ := callback
      by_cases honline : event = .onlineHeatBeat
      · subst honline
        exact h.reposted htimely hsingle htick hcallback hposted hevent hwhen
      · refine h.beside ?_ (fun other hother => ?_) (fun _ hsome _ => by cases hsome) rfl
        · change state.beats ++ (if event = .onlineHeatBeat then _ else []) = state.beats
          rw [if_neg honline, List.append_nil]
        · refine mem_messagesOf_of_posted hposted ?_ hother
          rw [hevent]
          exact fun hid => honline (OwnEvent.id_inj (Option.some.inj hid))
  | answered config hcallback =>
      exact h.beside rfl (fun _ hother => hother) (fun _ hsome _ => by cases hsome) rfl

/-- The interval is exact, a heartbeat that fires is posted for a later time than the clock showed,
and none fires twice before the clock has moved. -/
structure BeatsRight (state : TimerEvents) : Prop where
  exact : state.Exact
  later : ∀ beat ∈ state.beats, beat.reading < beat.deadline
  apart : state.beats.Pairwise fun beat other => beat.reading < other.reading

theorem beatsRight_of_fit (hheap : heap.Correct Message.key) {config : ReportConfig}
    (hfit : ∀ tapUser, FitFrequency (config.frequency tapUser))
    (hreach : (system heap).Reaches (Gives config) state) : state.BeatsRight := by
  have hall : state.Timely ∧ state.Single ∧ state.Tuned ∧ state.Steady := by
    refine hreach.invariant
      (fun state => state.Timely ∧ state.Single ∧ state.Tuned ∧ state.Steady) ?_ ?_
    · intro state hinit
      obtain ⟨htimely, hsingle⟩ := @sound_of_reaches heap state (Gives config) hheap (.init hinit)
      obtain ⟨clock, event, _, rfl⟩ := hinit
      exact ⟨htimely, hsingle, tuned_construct clock event, nofun, List.Pairwise.nil, nofun, nofun,
        fun _ => rfl⟩
    · rintro state op next ⟨htimely, hsingle, htuned, hsteady⟩ hgives hstep
      obtain ⟨hmoved, hnext⟩ := moved_of_step hheap htimely hstep
      exact ⟨hnext, hsingle.moved htimely hmoved, htuned.moved hfit hgives hmoved,
        hsteady.moved htimely hsingle htuned.tick_pos hmoved⟩
  exact ⟨hall.2.2.1.exact, hall.2.2.2.later, hall.2.2.2.apart⟩

/-! ### With others -/

/-- After `Init`, for a user of this kind and with the configuration in the cache; the heartbeat
waits for the interval of the configuration that was there before. -/
theorem exists_configured (hheap : heap.Correct Message.key) (config : ReportConfig)
    (tapUser : Bool) :
    ∃ state, (system heap).Reaches (Gives config) state ∧ state.Free
      ∧ state.reportConfig = config ∧ state.tapUser = tapUser
      ∧ state.onlineTickInterval = ms (config.frequency tapUser * 1000)
      ∧ ∃ message ∈ state.run.waiting, message.event = some OwnEvent.onlineHeatBeat.id
        ∧ state.run.clock ≤ message.when := by
  obtain ⟨run, hreach, hphase, hclock, _, message, hmem, hevent, hwhen⟩ :=
    @exists_beating heap (Gives config) hheap (fun _ _ => trivial) (fun _ _ _ => trivial)
      (some { GameSession.default with tapUser := tapUser }) 0
  have hgives : Gives config { (construct 0 fun _ => ⟨true, true⟩).newGameSession
      (some { GameSession.default with tapUser := tapUser }) with run := run, stage := .beating }
      (.initHistory (some config)) := by
    intro other hother
    exact (Option.some.inj hother).symm
  have hloaded := hreach.step hgives (by rfl)
  refine ⟨_, hloaded, ⟨rfl, Or.inl hphase⟩, rfl, rfl, ?_, message, hmem, hevent, ?_⟩
  · cases tapUser <;> rfl
  · change run.clock ≤ message.when
    rw [hclock, hwhen]
    cases tapUser <;> decide

theorem fit_of_beatsRight (hheap : heap.Correct Message.key) {config : ReportConfig}
    (hright : ∀ state, (system heap).Reaches (Gives config) state → state.BeatsRight)
    (tapUser : Bool) : FitFrequency (config.frequency tapUser) := by
  obtain ⟨state, hreach, hfree, hconfig, huser, htick, message, hmem, hevent, hclock⟩ :=
    exists_configured hheap config tapUser
  have hexact := (hright state hreach).exact
  unfold Exact at hexact
  rw [hconfig, huser, htick, ms_mul_thousand] at hexact
  refine ⟨?_, hexact⟩
  by_contra hzero
  have hnone : state.onlineTickInterval = 0 := by
    rw [htick, (ms_mul_thousand _).mpr hexact]
    omega
  -- the heartbeat is called at some time after it was due, and posted again at once
  have hafter : state.run.clock ≤ message.when + 1 := by omega
  obtain ⟨called, hcalled, hkept, hphase, hreading, htimer, _⟩ :=
    exists_invoking hheap (fun _ timerOp => by trivial) (fun _ _ => nofun) hreach hfree hmem hevent
      (tickets_onlineHeatBeat state) hafter (by omega) (by omega)
  obtain ⟨next, _, hnext, hreturned⟩ :=
    exists_returned hheap (fun _ timerOp => by trivial) (fun _ _ => nofun) hcalled hphase
  have hlate := (hright next hnext).later _ (hreturned.beats hevent)
  rw [htimer, hreading, hkept.tick, hnone] at hlate
  change message.when + 1 < 0 + (message.when + 1) at hlate
  omega

/-- **The heartbeats are exact and apart exactly if both frequencies fit**: they are not zero, and
their milliseconds do not overflow 32 bits. -/
theorem beats_right_iff (hheap : heap.Correct Message.key) (config : ReportConfig) :
    (∀ state, (system heap).Reaches (Gives config) state → state.BeatsRight)
      ↔ FitFrequency config.tapFrequency ∧ FitFrequency config.noTapFrequency := by
  constructor
  · intro hright
    exact ⟨fit_of_beatsRight hheap hright true, fit_of_beatsRight hheap hright false⟩
  · rintro ⟨htap, hnoTap⟩ state hreach
    refine beatsRight_of_fit hheap (fun tapUser => ?_) hreach
    cases tapUser with
    | true => exact htap
    | false => exact hnoTap

def withFrequencies (tap noTap : UInt32) : ReportConfig :=
  { ReportConfig.default with tapFrequency := tap, noTapFrequency := noTap }

/-- `Advance` has read the clock at 300 seconds, calls the first message and reads the clock
again. -/
def atThreeHundred : List Op :=
  [.timer .scan, .timer .invoke, .finish none 300000000000, .timer (.relock 300000000000)]

/-- `Init` with this configuration in the cache, and `Advance` at 300 seconds, as far as the online
heartbeat, which comes after the local one. -/
def firstBeat (config : ReportConfig) : List Op :=
  [.newGameSession none, .initHeatBeats 0 0, .initHistory (some config),
    .timer (.advance 300000000000)] ++ atThreeHundred ++ atThreeHundred

theorem gives_firstBeat (config : ReportConfig) :
    ∀ op ∈ firstBeat config, ∀ state, Gives config state op := by
  have hfails : ∀ op ∈ atThreeHundred, ∀ state, Gives config state op := by
    intro op hop state
    simp only [atThreeHundred, List.mem_cons, List.not_mem_nil, or_false] at hop
    rcases hop with rfl | rfl | rfl | rfl
    all_goals simp [Gives]
  intro op hop state
  simp only [firstBeat, List.mem_append, List.mem_cons, List.not_mem_nil, or_false] at hop
  rcases hop with ((rfl | rfl | rfl | rfl) | hop) | hop
  all_goals first | exact hfails op hop state | simp [Gives]

theorem beats_right_five_minutes : ∃ state,
    (firstBeat (withFrequencies 150 300)).foldlM (system (sortingHeap Message.key)).step
        (construct 0 fun _ => ⟨true, true⟩) = some state
      ∧ state.beats.map (·.deadline) = [600000000000] ∧ state.BeatsRight := by
  have hrun : ((firstBeat (withFrequencies 150 300)).foldlM (system (sortingHeap Message.key)).step
      (construct 0 fun _ => ⟨true, true⟩)).any (fun state =>
        state.beats.map (·.deadline) = [600000000000]) = true := by decide +kernel
  obtain ⟨state, hlast, hbeats⟩ := (Option.any_eq_true _ _).mp hrun
  refine ⟨state, hlast, of_decide_eq_true hbeats, ?_⟩
  have hfit : FitFrequency 150 ∧ FitFrequency 300 := ⟨⟨by decide, by decide⟩, by decide, by decide⟩
  refine (beats_right_iff (sortingHeap_correct Message.key) (withFrequencies 150 300)).mpr
    hfit state ?_
  exact System.Reaches.foldlM (gives_firstBeat _) (.init ⟨0, _, fun _ => rfl, rfl⟩) hlast

/-- With a frequency of zero the heartbeat runs again and again at one reading of the clock; and a
frequency of 4294968 seconds becomes an interval of 704 milliseconds. -/
theorem beats_again_at_once :
    (∃ state, (firstBeat (withFrequencies 150 0) ++ atThreeHundred ++ atThreeHundred).foldlM
          (system (sortingHeap Message.key)).step (construct 0 fun _ => ⟨true, true⟩) = some state
        ∧ state.run.returned.length = 0
        ∧ state.beats.map (fun beat => (beat.reading, beat.deadline))
          = List.replicate 3 (300000000000, 300000000000)
        ∧ ¬ state.BeatsRight)
      ∧ ((construct 0 fun _ => ⟨true, true⟩).refreshConfig
          (withFrequencies 150 4294968)).onlineTickInterval = 704000000 := by
  have hrun : ((firstBeat (withFrequencies 150 0) ++ atThreeHundred ++ atThreeHundred).foldlM
      (system (sortingHeap Message.key)).step (construct 0 fun _ => ⟨true, true⟩)).any (fun state =>
        state.run.returned.length = 0
          ∧ state.beats.map (fun beat => (beat.reading, beat.deadline))
            = List.replicate 3 (300000000000, 300000000000)) = true := by decide +kernel
  obtain ⟨state, hlast, hseen⟩ := (Option.any_eq_true _ _).mp hrun
  obtain ⟨hreturned, hbeats⟩ := of_decide_eq_true hseen
  refine ⟨⟨state, hlast, hreturned, hbeats, fun hright => ?_⟩, rfl⟩
  cases hfirst : state.beats with
  | nil =>
      rw [hfirst] at hbeats
      cases hbeats
  | cons beat rest =>
      rw [hfirst] at hbeats
      have hlate := hright.later beat (by rw [hfirst]; exact List.mem_cons_self)
      simp only [List.map_cons, List.replicate_succ, List.cons.injEq, Prod.mk.injEq] at hbeats
      omega

end TimerEvents

end TapSdk.Duration
