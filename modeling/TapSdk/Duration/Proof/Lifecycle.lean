import TapSdk.Duration.Proof.Durability

/-!
# The life of the reporter

`running`, the thread object and the flag of the queue are set in different places. They agree as
long as the configuration found at the start allows the thread, and nothing is enabled again after
it has been disabled: the queue can be stopped and not started again, and a thread object that
nobody has joined cannot be replaced.
-/

namespace TapSdk.Duration

open Library

namespace Statistics

variable {statistics next : Statistics}

def ThreadAlive (statistics : Statistics) : Prop :=
  ∃ reporter, statistics.reportThread = some reporter ∧ reporter ≠ .exited

/-- The flag, the thread and the queue agree, and no thread object was lost. -/
structure Consistent (statistics : Statistics) : Prop where
  running_iff : statistics.running = true
    ↔ statistics.ThreadAlive ∧ statistics.reportQueue.stopped = false
  joined : statistics.terminated = false

def CanReport (statistics : Statistics) : Prop :=
  statistics.ThreadAlive ∧ ∀ waiting, statistics.reportQueue.queue = waiting → waiting ≠ [] →
    statistics.reportQueue.take maxReportEvents = some (waiting.take maxReportEvents,
      { statistics.reportQueue with queue := waiting.drop maxReportEvents })

theorem Consistent.canReport (h : statistics.Consistent) (hrunning : statistics.running = true) :
    statistics.CanReport := by
  obtain ⟨halive, hstopped⟩ := h.running_iff.mp hrunning
  refine ⟨halive, fun waiting hwaiting hsome => ?_⟩
  subst hwaiting
  unfold BlockingQueue.take
  rw [if_neg (by rw [hstopped]; decide), if_neg hsome]

/-- What a step other than a new configuration does to the flags and to the thread. -/
structure KeepsRunning (statistics next : Statistics) : Prop where
  running : next.running = statistics.running
  stopped : next.reportQueue.stopped = statistics.reportQueue.stopped
  terminated : next.terminated = statistics.terminated
  alive : statistics.running = true → statistics.ThreadAlive → next.ThreadAlive

theorem SameReporting.keepsRunning (h : statistics.SameReporting next) :
    statistics.KeepsRunning next := by
  refine ⟨h.running, by rw [h.reportQueue], h.terminated, fun _ halive => ?_⟩
  rw [ThreadAlive, h.reportThread]
  exact halive

theorem keepsRunning_handlerStep (h : statistics.handlerStep = some next) :
    statistics.KeepsRunning next := by
  obtain ⟨event, step, todo, _, heffect⟩ := handlerStep_cases h
  rcases heffect with ⟨_, rfl⟩ | ⟨_, queue, hqueue, rfl⟩ | ⟨_, _, hsame, _⟩
  · exact ⟨rfl, rfl, rfl, fun _ halive => halive⟩
  · exact ⟨rfl, congrArg (·.stopped) (BlockingQueue.put_spec hqueue), rfl, fun _ halive => halive⟩
  · exact hsame.keepsRunning

theorem keepsRunning_onlineHeatBeat {now : UInt64} (h : statistics.onlineHeatBeat now = some next) :
    statistics.KeepsRunning next := by
  unfold onlineHeatBeat at h
  split at h
  · split at h
    · obtain ⟨queue, hqueue, rfl⟩ := Option.map_eq_some_iff.mp h
      exact ⟨rfl, congrArg (·.stopped) (BlockingQueue.put_spec hqueue), rfl, fun _ halive => halive⟩
    · cases h
  · obtain rfl := Option.some.inj h
    exact ⟨rfl, rfl, rfl, fun _ halive => halive⟩

theorem keepsRunning_setReporter {moved : Statistics} {reporter : Reporter}
    (hrunning : moved.running = statistics.running)
    (hstopped : moved.reportQueue.stopped = statistics.reportQueue.stopped)
    (hterminated : moved.terminated = statistics.terminated)
    (hreporter : statistics.running = true → reporter ≠ .exited) :
    statistics.KeepsRunning (moved.setReporter reporter) :=
  ⟨hrunning, hstopped, hterminated, fun hon _ => ⟨reporter, rfl, hreporter hon⟩⟩

theorem keepsRunning_reporterStep {input : ReporterInput}
    (h : statistics.reporterStep input = some next) : statistics.KeepsRunning next := by
  cases reporterMove_of_step h with
  | leave _ hrunning =>
      apply keepsRunning_setReporter rfl rfl rfl
      intro hon
      rw [hrunning] at hon
      cases hon
  | take _ htake =>
      obtain ⟨_, _, _, rfl⟩ := BlockingQueue.take_spec htake
      exact keepsRunning_setReporter rfl rfl rfl nofun
  | delivered _ =>
      refine keepsRunning_setReporter rfl rfl rfl fun _ => ?_
      split <;> nofun
  | @beaten _ now _ _ _ =>
      have hsame := sameReporting_saveSession { statistics with
        localSession := { statistics.localSession with lastTimestamp := now } }
      exact keepsRunning_setReporter hsame.running
        (by rw [hsame.reportQueue]) hsame.terminated nofun
  | _ => exact keepsRunning_setReporter rfl rfl rfl nofun

theorem keepsRunning_step {op : Op} (hop : ∀ config, op ≠ .refreshConfig config)
    (h : statistics.step op = some next) : statistics.KeepsRunning next := by
  unfold step at h
  split at h
  · cases h
  cases op with
  | gameStart gameId gamePkg now =>
      exact (prepares_of_locked (fun _ => prepares_gameStart gameId gamePkg now) h).1.keepsRunning
  | onForeground now =>
      exact (prepares_of_locked (fun hidle => prepares_onWindow hidle true now) h).1.keepsRunning
  | onBackground now =>
      exact (prepares_of_locked (fun hidle => prepares_onWindow hidle false now) h).1.keepsRunning
  | onNewUser user now =>
      exact (prepares_of_locked (fun hidle => prepares_onNewUser hidle user now) h).1.keepsRunning
  | handler => exact keepsRunning_handlerStep h
  | localHeatBeat now =>
      obtain rfl := Option.some.inj h
      exact (statistics.sameReporting_localHeatBeat now).1.keepsRunning
  | onlineHeatBeat now => exact keepsRunning_onlineHeatBeat h
  | reporter input => exact keepsRunning_reporterStep h
  | refreshConfig config => exact absurd rfl (hop config)

/-! ### Runs -/

def Op.enables : Op → Option Bool
  | .refreshConfig config => some config.enable
  | _ => none

/-- Nothing is enabled after it has been disabled. -/
def NeverEnabledAgain (ops : List Op) : Prop :=
  (ops.filterMap Op.enables).Pairwise fun earlier later => earlier = false → later = false

theorem enables_eq_none {op : Op} (h : op.enables = none) :
    ∀ config, op ≠ .refreshConfig config := by
  rintro config rfl
  cases h

theorem refreshConfig_running (statistics : Statistics) (config : ReportConfig) :
    (statistics.refreshConfig config true).running = config.enable
      ∧ (statistics.reportQueue.stopped = true →
        (statistics.refreshConfig config true).reportQueue.stopped = true) := by
  have heffect := (statistics.refreshConfig_spec config).switched
  split at heffect
  · rename_i hsame
    exact ⟨heffect.1.trans hsame, fun hstopped => heffect.2.2.1.trans hstopped⟩
  · split at heffect
    · rename_i henable
      exact ⟨heffect.1.trans henable.symm, fun hstopped => heffect.2.2.1.trans hstopped⟩
    · rename_i hdisable
      rw [Bool.not_eq_true] at hdisable
      exact ⟨heffect.1.trans hdisable.symm, fun _ => heffect.2.2.1⟩

theorem step_refreshConfig {config : ReportConfig}
    (h : statistics.step (.refreshConfig config) = some next) :
    next = statistics.refreshConfig config true := by
  unfold step at h
  split at h
  · cases h
  · exact (Option.some.inj h).symm

/-- The reporter works, or it was stopped for good. -/
def Settled (statistics : Statistics) : Bool → Prop
  | false => statistics.running = true ∧ statistics.ThreadAlive
      ∧ statistics.reportQueue.stopped = false ∧ statistics.terminated = false
  | true => statistics.running = false ∧ statistics.reportQueue.stopped = true
      ∧ statistics.terminated = false

theorem Settled.consistent {disabled : Bool} (h : statistics.Settled disabled) :
    statistics.Consistent := by
  cases disabled with
  | false =>
      obtain ⟨hrunning, halive, hstopped, hterminated⟩ := h
      exact ⟨iff_of_true hrunning ⟨halive, hstopped⟩, hterminated⟩
  | true =>
      obtain ⟨hrunning, hstopped, hterminated⟩ := h
      refine ⟨?_, hterminated⟩
      rw [hrunning, hstopped]
      simp

theorem Settled.step {disabled : Bool} (h : statistics.Settled disabled) {op : Op}
    (hop : disabled = true → op.enables ≠ some true) (hstep : statistics.step op = some next) :
    next.Settled (disabled || op.enables = some false) := by
  cases henables : op.enables with
  | none =>
      have hkeeps := keepsRunning_step (enables_eq_none henables) hstep
      simp only [reduceCtorEq, decide_false, Bool.or_false]
      cases disabled with
      | false =>
          obtain ⟨hrunning, halive, hstopped, hterminated⟩ := h
          exact ⟨hkeeps.running.trans hrunning, hkeeps.alive hrunning halive,
            hkeeps.stopped.trans hstopped, hkeeps.terminated.trans hterminated⟩
      | true =>
          obtain ⟨hrunning, hstopped, hterminated⟩ := h
          exact ⟨hkeeps.running.trans hrunning, hkeeps.stopped.trans hstopped,
            hkeeps.terminated.trans hterminated⟩
  | some enable =>
      cases op with
      | refreshConfig config =>
          have henable : config.enable = enable := Option.some.inj henables
          rw [step_refreshConfig hstep]
          have heffect := (statistics.refreshConfig_spec config).switched
          rw [henable] at heffect
          cases disabled with
          | false =>
              obtain ⟨hrunning, halive, hstopped, hterminated⟩ := h
              rw [hrunning] at heffect
              cases enable with
              | true =>
                  obtain ⟨hrunning', hthread, hstopped', hterminated'⟩ := heffect
                  refine ⟨hrunning', ?_, hstopped'.trans hstopped, hterminated'.trans hterminated⟩
                  rw [ThreadAlive, hthread]
                  exact halive
              | false =>
                  obtain ⟨hrunning', _, hstopped', hterminated'⟩ := heffect
                  exact ⟨hrunning', hstopped', hterminated'.trans hterminated⟩
          | true =>
              obtain ⟨hrunning, hstopped, hterminated⟩ := h
              rw [hrunning] at heffect
              cases enable with
              | true => exact absurd henables (hop rfl)
              | false =>
                  obtain ⟨hrunning', _, hstopped', hterminated'⟩ := heffect
                  exact ⟨hrunning', hstopped'.trans hstopped, hterminated'.trans hterminated⟩
      | _ => cases henables

theorem Settled.along {disabled : Bool} (h : statistics.Settled disabled) {ops : List Op}
    (hops : NeverEnabledAgain ops)
    (hdisabled : disabled = true → ∀ enable ∈ ops.filterMap Op.enables, enable = false) :
    system.Along Consistent statistics ops := by
  induction ops generalizing statistics disabled with
  | nil => exact h.consistent
  | cons op rest ih =>
      refine ⟨h.consistent, fun next hstep => ?_⟩
      cases henables : op.enables with
      | none =>
          have hsame : (op :: rest).filterMap Op.enables = rest.filterMap Op.enables :=
            List.filterMap_cons_none henables
          rw [NeverEnabledAgain, hsame] at hops
          rw [hsame] at hdisabled
          have hnext := h.step (by rw [henables]; simp) hstep
          rw [henables] at hnext
          exact ih hnext hops (by simpa using hdisabled)
      | some enable =>
          have hcons : (op :: rest).filterMap Op.enables = enable :: rest.filterMap Op.enables :=
            List.filterMap_cons_some henables
          rw [NeverEnabledAgain, hcons] at hops
          rw [hcons] at hdisabled
          obtain ⟨hfirst, hrest⟩ := List.pairwise_cons.mp hops
          have hnext := h.step (fun hd => by
            rw [henables, hdisabled hd enable List.mem_cons_self]
            simp) hstep
          rw [henables] at hnext
          refine ih hnext hrest ?_
          intro hor later hlater
          rcases Bool.or_eq_true_iff.mp hor with hd | hfalse
          · exact hdisabled hd later (List.mem_cons_of_mem _ hlater)
          · exact hfirst later hlater (Option.some.inj (of_decide_eq_true hfalse))

/-- What is stopped once is stopped for good, and enabling it then contradicts the queue. -/
theorem neverEnabledAgain_of_along {ops : List Op} {last : Statistics}
    (hlatched : statistics.running = false → statistics.reportQueue.stopped = true)
    (halong : system.Along Consistent statistics ops)
    (hrun : ops.foldlM step statistics = some last) :
    NeverEnabledAgain ops ∧ (statistics.reportQueue.stopped = true →
      ∀ enable ∈ ops.filterMap Op.enables, enable = false) := by
  induction ops generalizing statistics with
  | nil => exact ⟨List.Pairwise.nil, fun _ enable henable => by cases henable⟩
  | cons op rest ih =>
      rw [List.foldlM_cons] at hrun
      obtain ⟨next, hstep, hrest⟩ := Option.bind_eq_some_iff.mp hrun
      have halong' := halong.2 next hstep
      cases henables : op.enables with
      | none =>
          have hkeeps := keepsRunning_step (enables_eq_none henables) hstep
          have hsame : (op :: rest).filterMap Op.enables = rest.filterMap Op.enables :=
            List.filterMap_cons_none henables
          rw [NeverEnabledAgain, hsame, ← hkeeps.stopped]
          refine ih ?_ halong' hrest
          rw [hkeeps.running, hkeeps.stopped]
          exact hlatched
      | some enable =>
          cases op with
          | refreshConfig config =>
              have henable : config.enable = enable := Option.some.inj henables
              have hnext := step_refreshConfig hstep
              have hcons : (Op.refreshConfig config :: rest).filterMap Op.enables
                  = enable :: rest.filterMap Op.enables := List.filterMap_cons_some henables
              obtain ⟨hrunning, hstays⟩ := statistics.refreshConfig_running config
              rw [← hnext, henable] at hrunning
              rw [← hnext] at hstays
              have hlatched' : next.running = false → next.reportQueue.stopped = true := by
                intro hoff
                rw [hrunning] at hoff
                have heffect := (statistics.refreshConfig_spec config).switched
                rw [← hnext, henable, hoff] at heffect
                split at heffect
                · rename_i hwas
                  exact heffect.2.2.1.trans (hlatched hwas)
                · exact heffect.2.2.1
              obtain ⟨hpairwise, hstopped⟩ := ih hlatched' halong' hrest
              rw [NeverEnabledAgain, hcons]
              refine ⟨List.pairwise_cons.mpr ⟨fun later hlater hoff => ?_, hpairwise⟩, ?_⟩
              · exact hstopped (hlatched' (hrunning.trans hoff)) later hlater
              · intro hqueue other hother
                rcases List.mem_cons.mp hother with rfl | hother
                · -- enabled, it would run on a queue that is stopped
                  by_contra hon
                  rw [Bool.not_eq_false] at hon
                  have hopen := (halong'.head.running_iff.mp (hrunning.trans hon)).2
                  rw [hstays hqueue] at hopen
                  cases hopen
                · exact hstopped (hstays hqueue) other hother
          | _ => cases henables

/-- **What is asked of the reporter over a run**: it is consistent in every state, and reports after
every configuration that enables it. -/
structure LivesWell (first : Statistics) (ops : List Op) : Prop where
  consistent : system.Along Consistent first ops
  enabled : ∀ before config after reached, ops = before ++ .refreshConfig config :: after →
    config.enable = true → (before ++ [.refreshConfig config]).foldlM step first = some reached →
    reached.CanReport

theorem livesWell_of_along {first : Statistics} {ops : List Op}
    (h : system.Along Consistent first ops) : LivesWell first ops := by
  refine ⟨h, fun before config after reached hops henable hrun => ?_⟩
  have hconsistent : reached.Consistent := by
    have halong : system.Along Consistent first ((before ++ [.refreshConfig config]) ++ after) := by
      rw [List.append_assoc]
      exact hops ▸ h
    exact halong.reached hrun
  rw [List.foldlM_append] at hrun
  obtain ⟨middle, _, hlast⟩ := Option.bind_eq_some_iff.mp hrun
  rw [List.foldlM_cons] at hlast
  obtain ⟨next, hstep, hnext⟩ := Option.bind_eq_some_iff.mp hlast
  obtain rfl := Option.some.inj hnext
  apply hconsistent.canReport
  rw [step_refreshConfig hstep, (refreshConfig_running middle config).1, henable]

/-- **The reporter lives well exactly in the runs** that start with a configuration that allows it,
or with none, and enable nothing again. -/
theorem reporter_livesWell_iff {storage : DurPersistence} {deviceId uuid : Str} {now : UInt64}
    {first last : Statistics} {ops : List Op}
    (hinit : (construct storage deviceId).init uuid now = some first)
    (hrun : ops.foldlM step first = some last) :
    LivesWell first ops ↔ cachedEnable storage = true ∧ NeverEnabledAgain ops := by
  obtain ⟨_, hrunning, hthread, hstopped, hterminated⟩ := init_spec hinit
  constructor
  · intro h
    obtain ⟨⟨reporter, hreporter, _⟩, _⟩ := h.consistent.head.running_iff.mp hrunning
    refine ⟨?_, (neverEnabledAgain_of_along ?_ h.consistent hrun).1⟩
    · by_contra hcached
      rw [hthread, if_neg hcached] at hreporter
      cases hreporter
    · rw [hrunning]
      nofun
  · rintro ⟨hcached, hops⟩
    rw [if_pos hcached] at hthread
    have hsettled : first.Settled false :=
      ⟨hrunning, ⟨.loop, hthread, nofun⟩, hstopped, hterminated⟩
    exact livesWell_of_along (hsettled.along hops nofun)

def switched (enable : Bool) : Op := .refreshConfig { ReportConfig.default with enable := enable }

def launchedWith : Bool → Option Statistics
  | true => (construct Account.emptyStorage []).init [117] 0
  | false => (construct (Account.emptyStorage.updateConfig
      { ReportConfig.default with enable := false }).2 []).init [117] 0

theorem reporter_livesWell_iff_disabled :
    ∃ first last, launchedWith true = some first
      ∧ [switched true, switched false].foldlM step first = some last ∧ last.running = false
      ∧ LivesWell first [switched true, switched false] := by
  have hrun : ((launchedWith true).bind fun first =>
      ([switched true, switched false].foldlM step first)).map (·.running) = some false := by
    decide +kernel
  obtain ⟨last, hlast, hoff⟩ := Option.map_eq_some_iff.mp hrun
  obtain ⟨first, hfirst, hops⟩ := Option.bind_eq_some_iff.mp hlast
  refine ⟨first, last, hfirst, hops, hoff, (reporter_livesWell_iff hfirst hops).mpr ⟨rfl, ?_⟩⟩
  unfold NeverEnabledAgain
  decide

/-- **Enabled again, the process ends; found disabled, there is no thread however often the reports
are enabled.** -/
theorem reporter_lost_when_enabled_again :
    (∃ first last, launchedWith true = some first
        ∧ [switched false, switched true].foldlM step first = some last ∧ last.terminated = true
        ∧ ¬ LivesWell first [switched false, switched true])
      ∧ ∃ first last, launchedWith false = some first
        ∧ [switched true].foldlM step first = some last
        ∧ last.running = true ∧ last.reportThread = none ∧ ¬ LivesWell first [switched true] := by
  have hlost : ∀ {first last : Statistics} {ops : List Op}, ops.foldlM step first = some last →
      ¬ last.Consistent → ¬ LivesWell first ops := by
    intro first last ops hrun hlast hwell
    have halong := hwell.consistent
    rw [← List.append_nil ops] at halong
    exact hlast (halong.reached hrun)
  constructor
  · have hrun : ((launchedWith true).bind fun first =>
        ([switched false, switched true].foldlM step first)).map (·.terminated) = some true := by
      decide +kernel
    obtain ⟨last, hlast, hterminated⟩ := Option.map_eq_some_iff.mp hrun
    obtain ⟨first, hfirst, hops⟩ := Option.bind_eq_some_iff.mp hlast
    refine ⟨first, last, hfirst, hops, hterminated, hlost hops fun hconsistent => ?_⟩
    rw [hconsistent.joined] at hterminated
    cases hterminated
  · have hrun : ((launchedWith false).bind fun first =>
        ([switched true].foldlM step first)).map (fun last => (last.running, last.reportThread))
          = some (true, none) := by
      decide +kernel
    obtain ⟨last, hlast, hseen⟩ := Option.map_eq_some_iff.mp hrun
    obtain ⟨first, hfirst, hops⟩ := Option.bind_eq_some_iff.mp hlast
    obtain ⟨hrunning, hthread⟩ := Prod.mk.inj hseen
    refine ⟨first, last, hfirst, hops, hrunning, hthread, hlost hops fun hconsistent => ?_⟩
    obtain ⟨⟨reporter, hreporter, _⟩, _⟩ := hconsistent.running_iff.mp hrunning
    rw [hthread] at hreporter
    cases hreporter

end Statistics

end TapSdk.Duration
