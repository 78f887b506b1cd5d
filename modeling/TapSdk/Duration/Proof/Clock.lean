import TapSdk.Duration.Proof.Sessions

/-!
# Events span forward in time

The times of an event come from `last_beats`, `last_timestamp` and the clock. A handler reads the
clock under the lock, so what it stores spans forward; the end of a session is taken from its row,
where the reporter may have put `last_timestamp` ahead of `last_beats`, and a heartbeat is stamped
with a time that a handler may have overtaken.
-/

namespace TapSdk.Duration

open Library

namespace Reporter

/-- What the POST in flight carries. -/
def reports : Reporter → List DurEvent
  | .posting _ reports _ _ => reports
  | _ => []

/-- The time the batch was built at, while it still matters. -/
def reading : Reporter → Option UInt64
  | .posting _ _ now _ | .answered _ now _ _ | .beating _ now => some now
  | _ => none

end Reporter

namespace Statistics

variable {statistics next : Statistics} {op : Op} {holds : DurEvent → Prop}

/-- The heartbeat with the times it gets when the reporter builds its report. -/
def restamp (statistics : Statistics) (now : UInt64) (event : DurEvent) : DurEvent :=
  { event with timestamp := now, lastTimestamp := statistics.localSession.lastTimestamp }

theorem mem_buildReports {now : UInt64} {events : List DurEvent} {hasHeatBeats : Bool}
    {event : DurEvent}
    (h : event ∈ (statistics.buildReports now events hasHeatBeats).1
      ∨ event ∈ (statistics.buildReports now events hasHeatBeats).2.1) :
    event ∈ events ∨ (statistics.foreground = true ∧ ∃ beat ∈ events,
      beat.action = .heatBeat ∧ event = statistics.restamp now beat) := by
  induction events generalizing hasHeatBeats with
  | nil => simp [buildReports] at h
  | cons first rest ih =>
      have hrest : ∀ {hasHeatBeats : Bool},
          event ∈ (statistics.buildReports now rest hasHeatBeats).1
            ∨ event ∈ (statistics.buildReports now rest hasHeatBeats).2.1 →
          event ∈ first :: rest ∨ (statistics.foreground = true ∧ ∃ beat ∈ first :: rest,
            beat.action = .heatBeat ∧ event = statistics.restamp now beat) := by
        intro hasHeatBeats hin
        rcases ih hin with hmem | ⟨hforeground, beat, hbeat, hstamped⟩
        · exact Or.inl (List.mem_cons_of_mem _ hmem)
        · exact Or.inr ⟨hforeground, beat, List.mem_cons_of_mem _ hbeat, hstamped⟩
      simp only [buildReports] at h
      split at h
      · simp only [List.mem_cons] at h
        rcases h with (rfl | hin) | rfl | hin
        · exact Or.inl List.mem_cons_self
        · exact hrest (Or.inl hin)
        · exact Or.inl List.mem_cons_self
        · exact hrest (Or.inr hin)
      · rename_i hbeat
        rw [ne_eq, not_not] at hbeat
        split at h
        · simp only [List.mem_cons] at h
          rcases h with (rfl | hin) | hin
          · exact Or.inl List.mem_cons_self
          · exact hrest (Or.inl hin)
          · exact hrest (Or.inr hin)
        · rename_i hstamps
          have hforeground : statistics.foreground = true := by
            cases hvalue : statistics.foreground with
            | true => rfl
            | false => simp [hvalue] at hstamps
          simp only [List.mem_cons] at h
          rcases h with (rfl | hin) | rfl | hin
          · exact Or.inr ⟨hforeground, first, List.mem_cons_self, hbeat, rfl⟩
          · exact hrest (Or.inl hin)
          · exact Or.inr ⟨hforeground, first, List.mem_cons_self, hbeat, rfl⟩
          · exact hrest (Or.inr hin)

/-- Every event in the queue and at the reporter has the property. -/
structure Carries (holds : DurEvent → Prop) (statistics : Statistics) : Prop where
  queue : ∀ event ∈ statistics.reportQueue.queue, holds event
  batch : ∀ reporter, statistics.reportThread = some reporter →
    ∀ event, event ∈ reporter.batch ∨ event ∈ reporter.reports → holds event

theorem Carries.mono {holds holds' : DurEvent → Prop} (h : statistics.Carries holds)
    (himp : ∀ event, holds event → holds' event) : statistics.Carries holds' :=
  ⟨fun event hevent => himp event (h.queue event hevent),
    fun reporter hreporter event hevent => himp event (h.batch reporter hreporter event hevent)⟩

theorem Carries.congr (h : statistics.Carries holds)
    (hqueue : next.reportQueue.queue = statistics.reportQueue.queue)
    (hthread : next.reportThread = statistics.reportThread
      ∨ next.reportThread = some .loop) : next.Carries holds := by
  refine ⟨by rw [hqueue]; exact h.queue, fun reporter hreporter => ?_⟩
  rcases hthread with hthread | hthread
  · exact h.batch reporter (hthread.symm.trans hreporter)
  · obtain rfl := Option.some.inj (hthread.symm.trans hreporter)
    rintro event (hevent | hevent) <;> cases hevent

theorem refreshConfig_thread (statistics : Statistics) (config : ReportConfig) :
    (statistics.refreshConfig config true).reportThread = statistics.reportThread
      ∨ (statistics.refreshConfig config true).reportThread = some .loop := by
  have hrest := (statistics.refreshConfig_spec config).switched
  split at hrest
  · exact Or.inl hrest.2.1
  · split at hrest
    · exact Or.inr hrest.2.1
    · exact Or.inl hrest.2.1

theorem Carries.reporterMove {input : ReporterInput} (h : statistics.Carries holds)
    (hstamp : ∀ events success, statistics.reportThread = some (.building events success) →
      statistics.foreground = true → ∀ event ∈ events, event.action = .heatBeat → holds event →
        holds (statistics.restamp input.now event))
    (hmove : statistics.ReporterMove input next) : next.Carries holds := by
  -- a move that changes only the place of the reporter, within its batch
  have hkeeps : ∀ (before after : Reporter), statistics.reportThread = some before →
      after.batch = before.batch ∨ after.batch = [] → after.reports = [] →
      next.reportThread = some after →
      next.reportQueue.queue = statistics.reportQueue.queue → next.Carries holds := by
    intro before after hbefore hbatch hreports hafter hqueue
    refine ⟨by rw [hqueue]; exact h.queue, fun reporter hreporter event hevent => ?_⟩
    obtain rfl := Option.some.inj (hafter.symm.trans hreporter)
    rw [hreports] at hevent
    rcases hevent with hevent | hevent
    · rcases hbatch with hbatch | hbatch <;> rw [hbatch] at hevent
      · exact h.batch before hbefore event (Or.inl hevent)
      · cases hevent
    · cases hevent
  have hbuilt : ∀ events success, statistics.reportThread = some (.building events success) →
      ∀ event, event ∈ (statistics.buildReports input.now events false).1
        ∨ event ∈ (statistics.buildReports input.now events false).2.1 → holds event := by
    intro events success hthread event hevent
    rcases mem_buildReports hevent with hmem | ⟨hforeground, beat, hbeat, haction, rfl⟩
    · exact h.batch _ hthread event (Or.inl hmem)
    · exact hstamp events success hthread hforeground beat hbeat haction
        (h.batch _ hthread beat (Or.inl hbeat))
  cases hmove with
  | goOn hthread _ => exact hkeeps _ .waiting hthread (Or.inr rfl) rfl rfl rfl
  | leave hthread _ => exact hkeeps _ .exited hthread (Or.inr rfl) rfl rfl rfl
  | @take events queue hthread htake =>
      obtain ⟨count, _, rfl, rfl⟩ := BlockingQueue.take_spec htake
      refine ⟨fun event hevent => h.queue event (List.mem_of_mem_drop hevent), ?_⟩
      intro reporter hreporter event hevent
      obtain rfl := Option.some.inj hreporter
      rcases hevent with hevent | hevent
      · exact h.queue event (List.mem_of_mem_take hevent)
      · cases hevent
  | @skip events built success hasHeatBeats hthread hbuild =>
      refine ⟨h.queue, fun reporter hreporter event hevent => ?_⟩
      obtain rfl := Option.some.inj hreporter
      have hin := hbuilt events success hthread event
      rw [hbuild] at hin
      rcases hevent with hevent | hevent
      · exact hin (Or.inl hevent)
      · cases hevent
  | @post events built reports success hasHeatBeats hthread hbuild _ =>
      refine ⟨h.queue, fun reporter hreporter event hevent => ?_⟩
      obtain rfl := Option.some.inj hreporter
      have hin := hbuilt events success hthread event
      rw [hbuild] at hin
      exact hin hevent
  | answer hthread => exact hkeeps _ (.answered _ _ _ _) hthread (Or.inl rfl) rfl rfl rfl
  | @delivered events now hasHeatBeats hthread =>
      cases hasHeatBeats with
      | true => exact hkeeps _ (.beating _ _) hthread (Or.inl rfl) rfl rfl rfl
      | false => exact hkeeps _ (.checking _ _) hthread (Or.inl rfl) rfl rfl rfl
  | discarded hthread _ => exact hkeeps _ .loop hthread (Or.inr rfl) rfl rfl rfl
  | failed hthread _ => exact hkeeps _ (.checking _ _) hthread (Or.inl rfl) rfl rfl rfl
  | beaten hthread _ _ =>
      exact hkeeps _ (.checking _ _) hthread (Or.inl rfl) rfl rfl
        (congrArg (·.queue) (sameReporting_saveSession _).reportQueue)
  | overtaken hthread _ _ => exact hkeeps _ (.checking _ _) hthread (Or.inl rfl) rfl rfl rfl
  | retry hthread _ => exact hkeeps _ (.building _ _) hthread (Or.inl rfl) rfl rfl rfl
  | done hthread _ => exact hkeeps _ .loop hthread (Or.inr rfl) rfl rfl rfl

/-- What a step adds to the queue, and what it does to the heartbeats of the batch. -/
theorem Moved.carries (h : statistics.Moved op next) (hcarries : statistics.Carries holds)
    (hput : ∀ event todo, op = .handler → statistics.handler = some ⟨event, .putEvent :: todo⟩ →
      holds event)
    (htick : ∀ now, op = .onlineHeatBeat now → statistics.gameId ≠ [] →
      holds (statistics.newEvent .heatBeat now statistics.localSession.lastTimestamp))
    (hstamp : ∀ input events success, op = .reporter input →
      statistics.reportThread = some (.building events success) → statistics.foreground = true →
      ∀ event ∈ events, event.action = .heatBeat → holds event →
        holds (statistics.restamp input.now event)) : next.Carries holds := by
  have henqueued : ∀ (event : DurEvent) (queue : BlockingQueue DurEvent),
      statistics.reportQueue.put event = some queue → holds event →
      ∀ other ∈ queue.queue, holds other := by
    intro event queue hqueue hevent other hother
    rw [BlockingQueue.put_spec hqueue] at hother
    rcases List.mem_append.mp hother with hold | hnew
    · exact hcarries.queue other hold
    · rw [List.mem_singleton.mp hnew]
      exact hevent
  have hsaved : ∀ touched : Statistics, touched.reportQueue = statistics.reportQueue →
      touched.reportThread = statistics.reportThread → touched.saveSession.Carries holds := by
    intro touched hqueue hthread
    have hsame := sameReporting_saveSession touched
    exact hcarries.congr (by rw [hsame.reportQueue, hqueue])
      (Or.inl (hsame.reportThread.trans hthread))
  cases h with
  | still _ => exact hcarries
  | begun _ hbegun =>
      obtain ⟨_, _, _, hqueue, hthread⟩ := hbegun.frame
      exact hcarries.congr (by rw [hqueue]) (Or.inl hthread)
  | sameUser _ _ => exact hsaved _ rfl rfl
  | @performed event after step todo changed hhandler hperform =>
      by_cases hstep : step = .putEvent
      · subst hstep
        obtain ⟨queue, hqueue, hpair⟩ := Option.map_eq_some_iff.mp hperform
        obtain ⟨rfl, rfl⟩ := Prod.mk.inj hpair
        exact ⟨henqueued event queue hqueue (hput event todo rfl hhandler), hcarries.batch⟩
      · obtain ⟨hqueue, hthread⟩ := perform_frame hperform
        exact hcarries.congr (congrArg (·.queue) (hqueue hstep)) (Or.inl hthread)
  | beat _ _ => exact hsaved _ rfl rfl
  | @tick now queue hgame _ hqueue =>
      exact ⟨henqueued _ queue hqueue (htick now rfl hgame), hcarries.batch⟩
  | @reporter input after hmove =>
      exact hcarries.reporterMove (fun events success => hstamp input events success rfl) hmove
  | @refreshConfig config =>
      exact hcarries.congr (statistics.refreshConfig_spec config).queue
        (statistics.refreshConfig_thread config)

/-! ### The times of the session -/

theorem saveSession_localSession (h : statistics.localSession.id ≠ 0) :
    statistics.saveSession.localSession = statistics.localSession := by
  rw [saveSession_of_id h]

/-- What changes `last_timestamp`: a handler that passes the time of its event on, and the reporter
when it saves the time of a heartbeat. -/
theorem Moved.lastTimestamp (h : statistics.Moved op next)
    (hid : statistics.localSession.id ≠ 0) :
    next.localSession.lastTimestamp = statistics.localSession.lastTimestamp
      ∨ (∃ event step todo, op = .handler ∧ statistics.handler = some ⟨event, step :: todo⟩
        ∧ (step = .startSession ∨ step = .touchSession)
        ∧ next.localSession.lastTimestamp = event.timestamp)
      ∨ (∃ input events now, op = .reporter input
        ∧ statistics.reportThread = some (.beating events now) ∧ statistics.handler = none
        ∧ statistics.localSession.lastTimestamp < now
        ∧ next.localSession.lastTimestamp = now) := by
  cases h with
  | still _ => exact Or.inl rfl
  | begun _ hbegun => exact Or.inl (by rw [hbegun.frame.2.1])
  | sameUser _ _ => exact Or.inl (by rw [saveSession_localSession]; exacts [rfl, hid])
  | @performed event after step todo changed hhandler hperform =>
      cases step with
      | startSession =>
          obtain ⟨rfl, rfl⟩ := Prod.mk.inj (Option.some.inj hperform)
          exact Or.inr (Or.inl ⟨event, _, todo, rfl, hhandler, Or.inl rfl, rfl⟩)
      | touchSession =>
          obtain ⟨rfl, rfl⟩ := Prod.mk.inj (Option.some.inj hperform)
          exact Or.inr (Or.inl ⟨event, _, todo, rfl, hhandler, Or.inr rfl, rfl⟩)
      | updateSession =>
          obtain ⟨rfl, rfl⟩ := Prod.mk.inj (Option.some.inj hperform)
          exact Or.inl (by rw [saveSession_localSession hid])
      | userSession | addOrMergeEvent =>
          obtain ⟨rfl, rfl⟩ := Prod.mk.inj (Option.some.inj hperform)
          exact Or.inl rfl
      | putEvent =>
          obtain ⟨queue, _, hpair⟩ := Option.map_eq_some_iff.mp hperform
          obtain ⟨rfl, rfl⟩ := Prod.mk.inj hpair
          exact Or.inl rfl
  | beat _ _ => exact Or.inl (by rw [saveSession_localSession]; exact hid)
  | tick _ _ _ => exact Or.inl rfl
  | @reporter input after hmove =>
      cases hmove with
      | @beaten events now hthread hfree hlater =>
          refine Or.inr (Or.inr ⟨input, events, now, rfl, hthread, hfree, hlater, ?_⟩)
          rw [setReporter, saveSession_localSession]
          exact hid
      | _ => exact Or.inl rfl
  | @refreshConfig config =>
      exact Or.inl (by rw [(statistics.refreshConfig_spec config).localSession])

theorem ReporterMove.reading {input : ReporterInput} {reporter : Reporter} {now : UInt64}
    (h : statistics.ReporterMove input next) (hnext : next.reportThread = some reporter)
    (hreading : reporter.reading = some now) : now = input.now
      ∨ ∃ before, statistics.reportThread = some before ∧ before.reading = some now := by
  cases h with
  | post _ _ _ =>
      obtain rfl := Option.some.inj hnext
      exact Or.inl (Option.some.inj hreading).symm
  | answer hthread =>
      obtain rfl := Option.some.inj hnext
      exact Or.inr ⟨_, hthread, hreading⟩
  | @delivered events built hasHeatBeats hthread =>
      obtain rfl := Option.some.inj hnext
      cases hasHeatBeats with
      | true => exact Or.inr ⟨_, hthread, hreading⟩
      | false => cases hreading
  | _ =>
      obtain rfl := Option.some.inj hnext
      cases hreading

theorem Moved.reading {reporter : Reporter} {now : UInt64} (h : statistics.Moved op next)
    (hnext : next.reportThread = some reporter) (hreading : reporter.reading = some now) :
    op.reading = some now
      ∨ ∃ before, statistics.reportThread = some before ∧ before.reading = some now := by
  have hsame : next.reportThread = statistics.reportThread →
      ∃ before, statistics.reportThread = some before ∧ before.reading = some now :=
    fun hsame => ⟨reporter, hsame.symm.trans hnext, hreading⟩
  cases h with
  | still _ => exact Or.inr (hsame rfl)
  | begun _ hbegun => exact Or.inr (hsame hbegun.frame.2.2.2.2)
  | sameUser _ _ => exact Or.inr (hsame (sameReporting_saveSession _).reportThread)
  | performed _ hperform => exact Or.inr (hsame (perform_frame hperform).2)
  | beat _ _ => exact Or.inr (hsame (sameReporting_saveSession _).reportThread)
  | tick _ _ _ => exact Or.inr (hsame rfl)
  | @reporter input after hmove =>
      rcases hmove.reading hnext hreading with rfl | hbefore
      · exact Or.inl rfl
      · exact Or.inr hbefore
  | @refreshConfig config =>
      rcases statistics.refreshConfig_thread config with hthread | hthread
      · exact Or.inr (hsame hthread)
      · obtain rfl := Option.some.inj (hthread.symm.trans hnext)
        cases hreading

end Statistics

namespace Device

variable {device next : Device} {op : Op}

/-! ### The clock -/

theorem read_some (device : Device) (now : UInt64) :
    device.read (some now) = if device.clock ≤ now then now else device.clock := rfl

theorem clock_le_read (device : Device) (reading : Option UInt64) :
    device.clock ≤ device.read reading := by
  cases reading with
  | none => exact UInt64.le_refl _
  | some now =>
      rw [read_some]
      split
      · assumption
      · exact UInt64.le_refl _

theorem le_read (device : Device) (now : UInt64) : now ≤ device.read (some now) := by
  rw [read_some]
  split
  · exact UInt64.le_refl _
  · rename_i hbehind
    exact UInt64.le_of_lt (UInt64.not_le.mp hbehind)

/-- No time that is kept somewhere is ahead of the clock. -/
structure Timed (device : Device) : Prop where
  session : ∀ statistics, device.process.live = some statistics →
    statistics.localSession.lastTimestamp ≤ device.clock
  handler : ∀ statistics handler, device.process.live = some statistics →
    statistics.handler = some handler → handler.event.timestamp ≤ device.clock
  reporter : ∀ statistics reporter now, device.process.live = some statistics →
    statistics.reportThread = some reporter → reporter.reading = some now → now ≤ device.clock

theorem timed_of_not_live (h : device.process.live = none) : device.Timed := by
  refine ⟨fun statistics hlive => ?_, fun statistics _ hlive => ?_, fun statistics _ _ hlive => ?_⟩
  all_goals
    rw [h] at hlive
    cases hlive

theorem Timed.openSession {statistics : Statistics} {uuid : Str} (hunopened : statistics.Unopened) :
    ({ device with process := .opened (statistics.openSession uuid)
                   uuids := uuid :: device.uuids } : Device).Timed := by
  rw [hunopened.openSession]
  refine ⟨?_, ?_, ?_⟩
  · intro after hafter
    obtain rfl := Option.some.inj hafter
    exact UInt64.le_iff_toNat_le.mpr (Nat.zero_le _)
  · intro after handler hafter hhandler
    obtain rfl := Option.some.inj hafter
    rw [hunopened.handler] at hhandler
    cases hhandler
  · intro after reporter now hafter hreporter
    obtain rfl := Option.some.inj hafter
    rw [hunopened.reportThread] at hreporter
    cases hreporter

theorem Timed.finishInit (h : device.Timed) {statistics configured : Statistics} {now : UInt64}
    (hprocess : device.process = .opened statistics) (hclock : device.clock ≤ now)
    (hhistory : statistics.initHistory now = some configured) :
    ({ device with process := .running configured.initReportThread.initRequest
                   clock := now } : Device).Timed := by
  have hlive := live_of_opened hprocess
  obtain ⟨config, queue, thread, terminated, heq, hthread, _⟩ :=
    Statistics.finishInit_cases hhistory
  rw [heq]
  refine ⟨?_, ?_, ?_⟩
  · intro after hafter
    obtain rfl := Option.some.inj hafter
    exact UInt64.le_trans (h.session statistics hlive) hclock
  · intro after handler hafter hhandler
    obtain rfl := Option.some.inj hafter
    exact UInt64.le_trans (h.handler statistics handler hlive hhandler) hclock
  · intro after reporter reading hafter hreporter hreading
    obtain rfl := Option.some.inj hafter
    have hreporter' : thread = some reporter := hreporter
    rcases hthread with hthread | hthread
    · exact UInt64.le_trans
        (h.reporter statistics reporter reading hlive (hthread ▸ hreporter') hreading) hclock
    · obtain rfl := Option.some.inj (hthread.symm.trans hreporter')
      cases hreading

theorem Timed.run (h : device.Timed) (hsound : device.Sound) {statistics after : Statistics}
    {op : Statistics.Op} (hprocess : device.process = .running statistics)
    (hmoved : statistics.Moved op after) : (device.run statistics op after).Timed := by
  have hlive := live_of_running hprocess
  have hid := (hsound.live statistics hlive).1.id_ne_zero
  have hclock : device.clock ≤ (device.run statistics op after).clock :=
    device.clock_le_read op.reading
  have hread : ∀ now, op.reading = some now → now ≤ (device.run statistics op after).clock := by
    intro now hnow
    rw [Device.run, hnow]
    exact device.le_read now
  refine ⟨?_, ?_, ?_⟩
  · intro other hother
    obtain rfl := Option.some.inj hother
    rcases hmoved.lastTimestamp hid with hsame | ⟨event, step, todo, _, hhandler, _, hlast⟩
      | ⟨input, events, now, _, hthread, _, _, hlast⟩
    · rw [hsame]
      exact UInt64.le_trans (h.session statistics hlive) hclock
    · rw [hlast]
      exact UInt64.le_trans (h.handler statistics _ hlive hhandler) hclock
    · rw [hlast]
      exact UInt64.le_trans (h.reporter statistics _ now hlive hthread rfl) hclock
  · intro other handler hother hhandler
    obtain rfl := Option.some.inj hother
    rcases hmoved.handlerEvent hhandler with hbegun | ⟨before, hbefore, id, hevent⟩
    · obtain ⟨begun, hbegun', _, _, _, _, hreading, _⟩ := hbegun.event
      obtain rfl := Option.some.inj (hhandler.symm.trans hbegun')
      exact hread _ hreading
    · rw [hevent]
      exact UInt64.le_trans (h.handler statistics before hlive hbefore) hclock
  · intro other reporter now hother hreporter hreading
    obtain rfl := Option.some.inj hother
    rcases hmoved.reading hreporter hreading with hnow | ⟨before, hbefore, hbefore'⟩
    · exact hread now hnow
    · exact UInt64.le_trans (h.reporter statistics before now hlive hbefore hbefore') hclock

theorem Timed.step (h : device.Timed) (hsound : device.Sound) (hmoved : device.Moved op next) :
    next.Timed := by
  cases hmoved with
  | launch _ => exact timed_of_not_live rfl
  | openSession hprocess _ => exact Timed.openSession (hsound.ended _ hprocess)
  | finishInit hprocess hclock hhistory => exact h.finishInit hprocess hclock hhistory
  | run hprocess _ hmoved => exact h.run hsound hprocess hmoved
  | crash _ => exact timed_of_not_live rfl

/-- A reading under the lock is not behind the clock. -/
theorem clock_le_of_admits {op : Statistics.Op} {now : UInt64} (h : device.admits op = true)
    (hlocked : op.readsLocked = true) (hreading : op.reading = some now) : device.clock ≤ now := by
  simp only [admits, hreading, hlocked, Option.all_some, if_true, decide_eq_true_eq] at h
  exact h

/-! ### A property of every event -/

/-- Every event that was ever stored, and every event on its way to the server, has the property. -/
structure Holding (holds : DurEvent → Prop) (device : Device) : Prop where
  stored : ∀ event ∈ device.stored, holds event
  handler : ∀ statistics handler, device.process.live = some statistics →
    statistics.handler = some handler → holds handler.event
  carries : ∀ statistics, device.process.live = some statistics → statistics.Carries holds

/-- The events that a step makes have the property: the end of the session that a launch finds, the
event of a handler, a heartbeat, and a heartbeat with new times. -/
structure Makes (holds : DurEvent → Prop) (device : Device) (op : Op) : Prop where
  ended : ∀ deviceId storage id row, op = .launch deviceId → device.process = .off storage →
    storage.sessions.latest = some (id, row) →
    holds ((Statistics.construct storage deviceId).endEvent { row with id := id })
  begun : ∀ statistics move after handler, op = .run move →
    device.process = .running statistics → device.admits move = true →
    statistics.Begun move after → after.handler = some handler → holds handler.event
  tick : ∀ statistics now, op = .run (.onlineHeatBeat now) →
    device.process = .running statistics → device.admits (.onlineHeatBeat now) = true →
    statistics.gameId ≠ [] →
    holds (statistics.newEvent .heatBeat now statistics.localSession.lastTimestamp)
  stamp : ∀ statistics input events success, op = .run (.reporter input) →
    device.process = .running statistics →
    statistics.reportThread = some (.building events success) → statistics.foreground = true →
    ∀ event ∈ events, event.action = .heatBeat → holds event →
      holds (statistics.restamp input.now event)

section Holding

variable {holds : DurEvent → Prop}

theorem holding_start : start.Holding holds := by
  refine ⟨?_, ?_, ?_⟩
  · exact fun event hevent => by cases hevent
  · exact fun statistics handler hlive => by cases hlive
  · exact fun statistics hlive => by cases hlive

theorem Holding.launch (h : device.Holding holds)
    (hid : ∀ event id, holds event → holds { event with id := id }) {storage : DurPersistence}
    {deviceId : Str} (hprocess : device.process = .off storage)
    (hmakes : device.Makes holds (.launch deviceId)) :
    (device.launch storage deviceId).Holding holds := by
  refine ⟨?_, ?_, ?_⟩
  · intro event hevent
    rcases mem_stored_launch hevent with hold | ⟨id, row, newId, hlatest, rfl⟩
    · exact h.stored event hold
    · exact hid _ newId (hmakes.ended deviceId storage id row rfl hprocess hlatest)
  · exact fun statistics handler hlive => by cases hlive
  · exact fun statistics hlive => by cases hlive

theorem Holding.openSession (h : device.Holding holds) (hsound : device.Sound)
    {statistics : Statistics} {uuid : Str} (hprocess : device.process = .ended statistics) :
    ({ device with process := .opened (statistics.openSession uuid)
                   uuids := uuid :: device.uuids } : Device).Holding holds := by
  have hunopened := hsound.ended statistics hprocess
  rw [hunopened.openSession]
  refine ⟨h.stored, ?_, ?_⟩
  · intro after handler hafter hhandler
    obtain rfl := Option.some.inj hafter
    rw [hunopened.handler] at hhandler
    cases hhandler
  · intro after hafter
    obtain rfl := Option.some.inj hafter
    refine ⟨fun event hevent => ?_, fun reporter hreporter => ?_⟩
    · rw [hunopened.reportQueue] at hevent
      cases hevent
    · rw [hunopened.reportThread] at hreporter
      cases hreporter

/-- What `InitHistory` puts in the queue is what was stored. -/
theorem Sound.mem_stored_of_getEvents (h : device.Sound) {event : DurEvent}
    (hevent : event ∈ device.storage.getEvents) : event ∈ device.stored := by
  obtain ⟨⟨id, row⟩, hrow, rfl⟩ := List.mem_map.mp hevent
  obtain ⟨hid, hstored⟩ := h.rows id row (OrderedMap.find_of_mem hrow)
  rw [← hid]
  exact hstored

theorem Holding.finishInit (h : device.Holding holds) (hsound : device.Sound)
    {statistics configured : Statistics} {now : UInt64}
    (hprocess : device.process = .opened statistics)
    (hhistory : statistics.initHistory now = some configured) :
    ({ device with process := .running configured.initReportThread.initRequest
                   clock := now } : Device).Holding holds := by
  have hlive := live_of_opened hprocess
  obtain ⟨config, queue, thread, terminated, heq, hthread, hqueue⟩ :=
    Statistics.finishInit_cases hhistory
  rw [heq]
  refine ⟨h.stored, ?_, ?_⟩
  · intro after handler hafter hhandler
    obtain rfl := Option.some.inj hafter
    exact h.handler statistics handler hlive hhandler
  · intro after hafter
    obtain rfl := Option.some.inj hafter
    have hbefore := h.carries statistics hlive
    refine ⟨fun event hevent => ?_, (hbefore.congr rfl hthread : Statistics.Carries _
      { statistics with reportThread := thread }).batch⟩
    rcases hqueue event hevent with hold | hrow
    · exact hbefore.queue event hold
    · rw [← storage_of_live hlive] at hrow
      exact h.stored event (hsound.mem_stored_of_getEvents hrow)

theorem Holding.run (h : device.Holding holds)
    (hid : ∀ event id, holds event → holds { event with id := id })
    {statistics after : Statistics} {op : Statistics.Op}
    (hprocess : device.process = .running statistics) (hadmits : device.admits op = true)
    (hmakes : device.Makes holds (.run op)) (hmoved : statistics.Moved op after) :
    (device.run statistics op after).Holding holds := by
  have hlive := live_of_running hprocess
  refine ⟨?_, ?_, ?_⟩
  · intro event hevent
    rcases List.mem_append.mp hevent with hold | hnew
    · exact h.stored event hold
    · rcases hmoved.rows with ⟨handled, todo, rfl, hhandler, _⟩ | ⟨hnothing, _⟩
      · simp only [Statistics.storedBy, hhandler, List.mem_singleton] at hnew
        obtain ⟨id, heq⟩ := Statistics.exists_id_addOrMergeEvent statistics.persistence handled
        rw [hnew, heq]
        exact hid _ id (h.handler statistics _ hlive hhandler)
      · rw [hnothing] at hnew
        cases hnew
  · intro other handler hother hhandler
    obtain rfl := Option.some.inj hother
    rcases hmoved.handlerEvent hhandler with hbegun | ⟨before, hbefore, id, hevent⟩
    · exact hmakes.begun statistics op after handler rfl hprocess hadmits hbegun hhandler
    · rw [hevent]
      exact hid _ id (h.handler statistics before hlive hbefore)
  · intro other hother
    obtain rfl := Option.some.inj hother
    refine hmoved.carries (h.carries statistics hlive) ?_ ?_ ?_
    · exact fun event todo _ hhandler => h.handler statistics _ hlive hhandler
    · rintro now rfl hgame
      exact hmakes.tick statistics now rfl hprocess hadmits hgame
    · rintro input events success rfl hthread hforeground event hevent haction hbefore
      exact hmakes.stamp statistics input events success rfl hprocess hthread hforeground event
        hevent haction hbefore

/-- **One step**: the property passes from the events that a step makes to all events. It must not
depend on the id, which an event gets when it is stored. -/
theorem Holding.step (h : device.Holding holds) (hsound : device.Sound)
    (hid : ∀ event id, holds event → holds { event with id := id })
    (hmakes : device.Makes holds op) (hmoved : device.Moved op next) : next.Holding holds := by
  cases hmoved with
  | launch hprocess => exact h.launch hid hprocess hmakes
  | openSession hprocess _ => exact h.openSession hsound hprocess
  | finishInit hprocess _ hhistory => exact h.finishInit hsound hprocess hhistory
  | run hprocess hadmits hmoved => exact h.run hid hprocess hadmits hmakes hmoved
  | crash _ =>
      refine ⟨h.stored, ?_, ?_⟩
      · exact fun statistics handler hlive => by cases hlive
      · exact fun statistics hlive => by cases hlive

end Holding

end Device

/-! ### Events span forward -/

def DurEvent.Forward (event : DurEvent) : Prop :=
  event.lastTimestamp ≠ 0 → event.lastTimestamp ≤ event.timestamp

instance (event : DurEvent) : Decidable event.Forward := inferInstanceAs (Decidable (_ → _))

namespace Device

variable {device next : Device} {op : Op}

/-- Every event that was ever stored, and every event of the POST in flight, spans forward. -/
def SpansForward (device : Device) : Prop :=
  (∀ event ∈ device.stored, event.Forward)
    ∧ ∀ statistics reporter, device.process = .running statistics →
      statistics.reportThread = some reporter → ∀ event ∈ reporter.reports, event.Forward

/-- The process does not end while the row of its session has `last_timestamp` ahead of
`last_beats`, and the reporter does not stamp a heartbeat with a time from before
`last_timestamp`. -/
def timely (device : Device) : Op → Bool
  | .crash _ => device.storage.sessions.latest.all fun (_, row) =>
      row.lastTimestamp ≠ 0 → row.lastTimestamp ≤ row.lastBeats
  | .run (.reporter input) =>
      match device.process with
      | .running statistics =>
          match statistics.reportThread with
          | some (.building events _) =>
              statistics.foreground → (events.any fun event => event.action = .heatBeat) →
                statistics.localSession.lastTimestamp ≠ 0 →
                statistics.localSession.lastTimestamp ≤ input.now
          | _ => true
      | _ => true
  | _ => true

theorem restamp_forward_of_timely {statistics : Statistics} {input : Statistics.ReporterInput}
    {events : List DurEvent} {success : Bool} {event : DurEvent}
    (h : device.timely (.run (.reporter input)) = true)
    (hprocess : device.process = .running statistics)
    (hthread : statistics.reportThread = some (.building events success))
    (hforeground : statistics.foreground = true) (hevent : event ∈ events)
    (haction : event.action = .heatBeat) : (statistics.restamp input.now event).Forward := by
  simp only [timely, hprocess, hthread, decide_eq_true_eq] at h
  refine h hforeground ?_
  rw [List.any_eq_true]
  exact ⟨event, hevent, decide_eq_true haction⟩

/-- The session that the next launch finds spans forward. -/
def OffForward (device : Device) : Prop :=
  ∀ storage id row, device.process = .off storage → storage.sessions.latest = some (id, row) →
    row.lastTimestamp ≠ 0 → row.lastTimestamp ≤ row.lastBeats

theorem makes_forward (hoff : device.OffForward) (htimed : device.Timed)
    (htimely : device.timely op = true) : device.Makes DurEvent.Forward op := by
  refine ⟨?_, ?_, ?_, ?_⟩
  · exact fun deviceId storage id row _ hprocess hlatest => hoff storage id row hprocess hlatest
  · intro statistics move after handler _ hprocess hadmits hbegun hhandler
    obtain ⟨made, hmade, _, _, _, _, hreading, hlocked, hlast⟩ := hbegun.event
    obtain rfl := Option.some.inj (hhandler.symm.trans hmade)
    rcases hlast with ⟨hzero, _⟩ | ⟨hlast, _⟩
    · exact fun hne => absurd hzero hne
    · intro _
      rw [hlast]
      exact UInt64.le_trans (htimed.session statistics (live_of_running hprocess))
        (clock_le_of_admits hadmits hlocked hreading)
  · intro statistics now _ hprocess hadmits _ _
    exact UInt64.le_trans (htimed.session statistics (live_of_running hprocess))
      (clock_le_of_admits hadmits rfl rfl)
  · rintro statistics input events success rfl hprocess hthread hforeground event hevent haction _
    exact restamp_forward_of_timely htimely hprocess hthread hforeground hevent haction

theorem OffForward.step (htimely : device.timely op = true) (hmoved : device.Moved op next) :
    next.OffForward := by
  intro storage id row hoff hlatest
  cases hmoved with
  | launch _ | openSession _ _ | finishInit _ _ _ | run _ _ _ => cases hoff
  | crash hprocess =>
      obtain rfl := Process.off.inj hoff
      rw [Statistics.left_sessions] at hlatest
      simp only [timely, storage_of_statistics hprocess, hlatest, Option.all_some,
        decide_eq_true_eq] at htimely
      exact htimely

/-- **Events span forward along timely runs.** -/
theorem events_span_forward
    (hreach : system.Reaches (fun device op => device.timely op = true) device) :
    device.SpansForward := by
  have hall : device.Sound ∧ device.Timed ∧ device.OffForward
      ∧ device.Holding DurEvent.Forward := by
    refine hreach.invariant (fun device => device.Sound ∧ device.Timed ∧ device.OffForward
      ∧ device.Holding DurEvent.Forward) ?_ ?_
    · rintro _ rfl
      refine ⟨sound_start, timed_of_not_live rfl, ?_, holding_start⟩
      rintro _ id row ⟨⟩ hlatest
      cases hlatest
    · rintro state label after ⟨hsound, htimed, hoff, hholding⟩ htimely hstep
      have hmoved := moved_of_step hstep
      have hmakes := makes_forward hoff htimed htimely
      exact ⟨hsound.step hmoved, htimed.step hsound hmoved, OffForward.step htimely hmoved,
        hholding.step hsound (fun _ _ hevent => hevent) hmakes hmoved⟩
  obtain ⟨_, _, _, hholding⟩ := hall
  refine ⟨hholding.stored, fun statistics reporter hprocess hreporter event hevent => ?_⟩
  exact (hholding.carries statistics (live_of_running hprocess)).batch reporter hreporter event
    (Or.inr hevent)

def reporterOps (now : UInt64) (steps : Nat) : List Op :=
  List.replicate steps (.run (.reporter ⟨false, now, .success⟩))

/-- A game, a local heartbeat, a crash, and a launch that reports the history. -/
def endedInTime : List Op :=
  launchOps [117] 300000 ++ gameOps 301000 ++ [.run (.localHeatBeat 305000), .crash 0]
    ++ launchOps [118] 309000 ++ reporterOps 309000 3

theorem events_span_forward_endedInTime : ∃ device : Device, device.SpansForward
    ∧ ∃ event ∈ device.stored, event.action = .gameEnd ∧ event.lastTimestamp = 301000
      ∧ event.timestamp = 305000 := by
  have hrun : ((system.guarded (fun device op => device.timely op = true) endedInTime start).any
      fun device => device.stored.any fun event => event.action = .gameEnd
        ∧ event.lastTimestamp = 301000 ∧ event.timestamp = 305000) = true := by decide +kernel
  obtain ⟨device, hlast, hseen⟩ := (Option.any_eq_true _ _).mp hrun
  obtain ⟨event, hevent, hend⟩ := List.any_eq_true.mp hseen
  exact ⟨device, events_span_forward (System.Reaches.guarded (.init rfl) hlast), event, hevent,
    of_decide_eq_true hend⟩

/-- The reporter saves the time of a heartbeat, and the process ends before the next local
heartbeat. -/
def endedAhead : List Op :=
  launchOps [117] 300000 ++ gameOps 301000
    ++ [.run (.localHeatBeat 446000), .run (.onlineHeatBeat 450000)] ++ reporterOps 450001 7
    ++ [.crash 0, .launch []]

/-- **The end of the session has its times the wrong way round.** -/
theorem end_event_spans_backward : ∃ device : Device, system.Reachable device
    ∧ ∃ event ∈ device.stored, event.action = .gameEnd ∧ ¬ event.Forward := by
  have hrun : ((endedAhead.foldlM step start).any fun device => device.stored.any fun event =>
      event.action = .gameEnd ∧ ¬ event.Forward) = true := by decide +kernel
  obtain ⟨device, hlast, hseen⟩ := (Option.any_eq_true _ _).mp hrun
  obtain ⟨event, hevent, hend⟩ := List.any_eq_true.mp hseen
  exact ⟨device, reachable_of_run hlast, event, hevent, of_decide_eq_true hend⟩

end Device

end TapSdk.Duration
