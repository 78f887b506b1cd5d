import TapSdk.Duration.Proof.Expiry
import TapSdk.Duration.Proof.Sessions

/-!
# Rows that nothing reports

A row is removed when its event has been reported, so a row whose event is on its way to the
reporter will be. At a launch the rows that have expired are passed over, and those are the only
ones that are left behind.
-/

namespace TapSdk.Duration

open Library

/-- An event that will have its row deleted. -/
def DurEvent.Carries (event : DurEvent) (id : Nat) : Prop :=
  event.id = id ∧ event.action ≠ .heatBeat

/-- The batch has not been deleted. -/
def Reporter.undeleted : Reporter → Bool
  | .building _ _ | .posting _ _ _ _ | .answered _ _ _ _ => true
  | .loop | .waiting | .beating _ _ | .checking _ _ | .exited => false

/-- In what is still to do, an event that is stored goes into the queue straight away. -/
def paired : List HandlerStep → Bool
  | [] => true
  | .addOrMergeEvent :: rest => decide (rest.head? = some .putEvent) && paired rest
  | _ :: rest => paired rest

namespace Statistics

variable {statistics next : Statistics} {op : Op}

/-- The event of a row is in the queue, in the batch of the reporter, or about to be put in the
queue. -/
def OnItsWay (statistics : Statistics) (id : Nat) : Prop :=
  (∃ event ∈ statistics.reportQueue.queue, event.Carries id)
    ∨ (∃ reporter, statistics.reportThread = some reporter ∧ reporter.undeleted = true
      ∧ ∃ event ∈ reporter.batch, event.Carries id)
    ∨ ∃ event todo, statistics.handler = some ⟨event, .putEvent :: todo⟩ ∧ event.Carries id

structure Attended (statistics : Statistics) : Prop where
  handler : ∀ handler, statistics.handler = some handler →
    handler.event.action ≠ .heatBeat ∧ paired handler.todo = true
  settled : ∀ events now hasHeatBeats answer,
    statistics.reportThread = some (.answered events now hasHeatBeats answer) →
    answer.settles = true
  rows : ∀ id row, statistics.persistence.events.find id = some row → row.action ≠ .heatBeat
    ∧ (statistics.terminated = false → statistics.OnItsWay id)

/-! ### One step -/

/-- A step that leaves the rows, the queue and the reporter alone, and the handler if it is about to
put its event. -/
theorem Attended.congr (h : statistics.Attended) (hsame : statistics.SameReporting next)
    (hhandler : ∀ handler, next.handler = some handler →
      handler.event.action ≠ .heatBeat ∧ paired handler.todo = true)
    (hput : ∀ event todo, statistics.handler = some ⟨event, .putEvent :: todo⟩ →
      next.handler = statistics.handler) : next.Attended := by
  refine ⟨hhandler, fun events now hasHeatBeats answer hthread => ?_, fun id row hrow => ?_⟩
  · exact h.settled events now hasHeatBeats answer (hsame.reportThread.symm.trans hthread)
  · rw [hsame.events] at hrow
    obtain ⟨haction, hway⟩ := h.rows id row hrow
    refine ⟨haction, fun halive => ?_⟩
    rw [hsame.terminated] at halive
    unfold OnItsWay
    rw [hsame.reportQueue, hsame.reportThread]
    rcases hway halive with hqueue | hbatch | ⟨event, todo, hold, hcarries⟩
    · exact Or.inl hqueue
    · exact Or.inr (Or.inl hbatch)
    · exact Or.inr (Or.inr ⟨event, todo, (hput event todo hold).trans hold, hcarries⟩)

theorem Attended.congr_handler (h : statistics.Attended) (hsame : statistics.SameReporting next)
    (hhandler : next.handler = statistics.handler) : next.Attended :=
  h.congr hsame (fun handler hnext => h.handler handler (hhandler.symm.trans hnext))
    fun _ _ _ => hhandler

theorem Begun.sameReporting (h : statistics.Begun op next) (hidle : statistics.handler = none) :
    statistics.SameReporting next := by
  cases h with
  | gameStart => exact (prepares_gameStart _ _ _).1
  | onForeground _ | onBackground _ => exact (prepares_onWindow hidle _ _).1
  | login _ | logout => exact (prepares_onNewUser hidle _ _).1

theorem Begun.paired (h : statistics.Begun op next) : ∀ handler, next.handler = some handler →
    handler.event.action ≠ .heatBeat ∧ paired handler.todo = true := by
  intro handler hhandler
  obtain ⟨begun, hbegun, _, _, _, haction, _⟩ := h.event
  obtain rfl := Option.some.inj (hbegun.symm.trans hhandler)
  refine ⟨haction, ?_⟩
  cases h with
  | gameStart =>
      cases hbegun
      rfl
  | onForeground hgame | onBackground hgame =>
      rw [onWindow, if_neg hgame] at hbegun
      cases hbegun
      rfl
  | login hother =>
      simp only [onNewUser, if_pos hother] at hbegun
      cases hbegun
      rfl
  | logout =>
      cases hbegun
      rfl

theorem paired_tail {step : HandlerStep} {todo : List HandlerStep}
    (h : paired (step :: todo) = true) :
    paired todo = true ∧ (step = .addOrMergeEvent → todo.head? = some .putEvent) := by
  cases step with
  | addOrMergeEvent =>
      obtain ⟨hhead, hrest⟩ := Bool.and_eq_true_iff.mp h
      exact ⟨hrest, fun _ => of_decide_eq_true hhead⟩
  | _ => exact ⟨h, fun hstep => by cases hstep⟩

theorem paired_of_remaining {event : DurEvent} {todo : List HandlerStep} {handler : Handler}
    (h : remaining event todo = some handler) (haction : event.action ≠ .heatBeat)
    (hpaired : paired todo = true) :
    handler.event.action ≠ .heatBeat ∧ paired handler.todo = true := by
  unfold remaining at h
  split at h
  · cases h
  · cases h
    exact ⟨haction, hpaired⟩

theorem Attended.handlerStep (h : statistics.Attended) (halive : statistics.terminated = false)
    (hstep : statistics.handlerStep = some next) : next.Attended := by
  obtain ⟨event, step, todo, hhandler, hcases⟩ := handlerStep_cases hstep
  obtain ⟨haction, hpaired⟩ := h.handler _ hhandler
  obtain ⟨hrest, hput⟩ := paired_tail hpaired
  rcases hcases with ⟨rfl, rfl⟩ | ⟨rfl, queue, hqueue, rfl⟩ | ⟨hstore, hnot, hsame, hnext⟩
  · obtain ⟨id, hid⟩ := exists_id_addOrMergeEvent statistics.persistence event
    obtain ⟨more, rfl⟩ : ∃ more, todo = .putEvent :: more := by
      cases todo with
      | nil => cases hput rfl
      | cons second more =>
          obtain rfl := Option.some.inj (hput rfl)
          exact ⟨more, rfl⟩
    have hstored : (statistics.persistence.addOrMergeEvent event).1.action ≠ .heatBeat := by
      rw [hid]
      exact haction
    refine ⟨fun _ hremaining => paired_of_remaining hremaining hstored hrest, h.settled,
      fun other row hrow => ?_⟩
    · rcases find_addOrMergeEvent hrow with ⟨rfl, hother⟩ | hold
      · exact ⟨hstored, fun _ => Or.inr (Or.inr ⟨_, more, rfl, hother, hstored⟩)⟩
      · obtain ⟨hrowAction, hway⟩ := h.rows other row hold
        refine ⟨hrowAction, fun _ => ?_⟩
        rcases hway halive with hqueue | hbatch | ⟨_, _, hwrong, _⟩
        · exact Or.inl hqueue
        · exact Or.inr (Or.inl hbatch)
        · rw [hhandler] at hwrong
          cases hwrong
  · have hspec := BlockingQueue.put_spec hqueue
    refine ⟨fun _ hremaining => paired_of_remaining hremaining haction hrest, h.settled,
      fun id row hrow => ?_⟩
    · obtain ⟨hrowAction, hway⟩ := h.rows id row hrow
      refine ⟨hrowAction, fun _ => ?_⟩
      rcases hway halive with ⟨queued, hqueued, hcarries⟩ | hbatch
        | ⟨stored, more, hstored, hcarries⟩
      · refine Or.inl ⟨queued, ?_, hcarries⟩
        rw [hspec]
        exact List.mem_append_left _ hqueued
      · exact Or.inr (Or.inl hbatch)
      · rw [hhandler] at hstored
        cases hstored
        refine Or.inl ⟨event, ?_, hcarries⟩
        rw [hspec]
        exact List.mem_append_right _ (List.mem_singleton_self _)
  · refine h.congr hsame (fun _ hremaining =>
      paired_of_remaining (hnext.symm.trans hremaining) haction hrest) fun other more hother => ?_
    rw [hhandler] at hother
    cases hother
    exact absurd rfl hnot

/-- A move of the reporter that keeps the rows and the queue. -/
theorem Attended.move (h : statistics.Attended) {reporter : Reporter}
    (hsettled : ∀ events now hasHeatBeats answer,
      reporter = .answered events now hasHeatBeats answer → answer.settles = true)
    (hbatch : ∀ before id, statistics.reportThread = some before → before.undeleted = true →
      (∃ event ∈ before.batch, event.Carries id) →
      reporter.undeleted = true ∧ ∃ event ∈ reporter.batch, event.Carries id) :
    (statistics.setReporter reporter).Attended := by
  refine ⟨h.handler, fun events now hasHeatBeats answer hthread => ?_, fun id row hrow => ?_⟩
  · exact hsettled events now hasHeatBeats answer (Option.some.inj hthread)
  · obtain ⟨haction, hway⟩ := h.rows id row hrow
    refine ⟨haction, fun halive => ?_⟩
    rcases hway halive with hqueue | ⟨before, hbefore, hundeleted, hcarries⟩ | hhandler
    · exact Or.inl hqueue
    · exact Or.inr (Or.inl ⟨reporter, rfl, hbatch before id hbefore hundeleted hcarries⟩)
    · exact Or.inr (Or.inr hhandler)

/-- A move from where there is nothing to delete. -/
theorem Attended.move_of_deleted (h : statistics.Attended) {before reporter : Reporter}
    (hthread : statistics.reportThread = some before) (hdeleted : before.undeleted = false)
    (hafter : ∀ events now hasHeatBeats answer,
      reporter ≠ .answered events now hasHeatBeats answer) :
    (statistics.setReporter reporter).Attended := by
  refine h.move (fun events now hasHeatBeats answer heq => ?_)
    fun other id hother hundeleted _ => ?_
  · exact absurd heq (hafter events now hasHeatBeats answer)
  · obtain rfl := Option.some.inj (hthread.symm.trans hother)
    rw [hdeleted] at hundeleted
    cases hundeleted

theorem carries_of_tag {events built : List DurEvent} {id : Nat}
    (htag : built.map DurEvent.tag = events.map DurEvent.tag)
    (h : ∃ event ∈ events, event.Carries id) : ∃ event ∈ built, event.Carries id := by
  obtain ⟨event, hevent, hid, haction⟩ := h
  have hmem : event.tag ∈ built.map DurEvent.tag := by
    rw [htag]
    exact List.mem_map_of_mem hevent
  obtain ⟨other, hother, hsame⟩ := List.mem_map.mp hmem
  obtain ⟨hidSame, hactionSame⟩ := Prod.mk.inj hsame
  exact ⟨other, hother, hidSame.trans hid, fun hbeat => haction (hactionSame.symm.trans hbeat)⟩

/-- The rows of a batch are deleted, and the batch is done with. -/
theorem Attended.deleted (h : statistics.Attended) {events : List DurEvent} {now : UInt64}
    {hasHeatBeats : Bool} {answer : Answer} {reporter : Reporter}
    (hthread : statistics.reportThread = some (.answered events now hasHeatBeats answer))
    (hafter : reporter.undeleted = false) :
    ({ statistics with persistence := statistics.persistence.delete events }.setReporter
      reporter).Attended := by
  refine ⟨h.handler, fun events now hasHeatBeats answer heq => ?_, fun id row hrow => ?_⟩
  · rw [Option.some.inj heq] at hafter
    cases hafter
  · obtain ⟨haction, hway⟩ := h.rows id row (find_of_find_delete hrow)
    refine ⟨haction, fun halive => ?_⟩
    rcases hway halive with hqueue | ⟨before, hbefore, _, event, hevent, hid, _⟩ | hhandler
    · exact Or.inl hqueue
    · obtain rfl := Option.some.inj (hthread.symm.trans hbefore)
      have hgone := @find_delete_of_mem statistics.persistence events id
        (List.mem_map.mpr ⟨event, hevent, hid⟩)
      have hrow' : (statistics.persistence.delete events).events.find id = some row := hrow
      rw [hgone] at hrow'
      cases hrow'
    · exact Or.inr (Or.inr hhandler)

theorem Attended.reporterMove (h : statistics.Attended) {input : ReporterInput}
    (hanswer : input.answer.settles = true) (hmove : statistics.ReporterMove input next) :
    next.Attended := by
  cases hmove with
  | goOn hthread _ | leave hthread _ => exact h.move_of_deleted hthread rfl nofun
  | @take events queue hthread htake =>
      obtain ⟨count, _, htaken, hqueue⟩ := BlockingQueue.take_spec htake
      refine ⟨h.handler, nofun, fun id row hrow => ?_⟩
      obtain ⟨haction, hway⟩ := h.rows id row hrow
      refine ⟨haction, fun halive => ?_⟩
      rcases hway halive with ⟨event, hevent, hcarries⟩ | ⟨before, hbefore, hundeleted, _⟩
        | hhandler
      · -- it is taken, or it stays
        rw [← List.take_append_drop count statistics.reportQueue.queue] at hevent
        rcases List.mem_append.mp hevent with hfront | hrest
        · exact Or.inr (Or.inl ⟨_, rfl, rfl, event, htaken.symm ▸ hfront, hcarries⟩)
        · refine Or.inl ⟨event, ?_, hcarries⟩
          rw [hqueue]
          exact hrest
      · obtain rfl := Option.some.inj (hthread.symm.trans hbefore)
        cases hundeleted
      · exact Or.inr (Or.inr hhandler)
  | @skip events built _ _ hthread hbuild =>
      refine h.move nofun fun before id hbefore _ hcarries => ?_
      obtain rfl := Option.some.inj (hthread.symm.trans hbefore)
      obtain ⟨event, hevent, _, haction⟩ := hcarries
      have hbeats := heatBeat_of_buildReports_eq_nil (by rw [hbuild])
      exact absurd (hbeats event hevent) haction
  | @post events built reports _ _ hthread hbuild _ =>
      refine h.move nofun fun before id hbefore _ hcarries => ?_
      obtain rfl := Option.some.inj (hthread.symm.trans hbefore)
      have htag := buildReports_tag statistics input.now events false
      rw [hbuild] at htag
      exact ⟨rfl, carries_of_tag htag hcarries⟩
  | answer hthread =>
      refine h.move (fun _ _ _ _ heq => ?_) fun before id hbefore _ hcarries => ?_
      · cases heq
        exact hanswer
      · obtain rfl := Option.some.inj (hthread.symm.trans hbefore)
        exact ⟨rfl, hcarries⟩
  | @delivered _ _ hasHeatBeats hthread =>
      refine h.deleted hthread ?_
      cases hasHeatBeats <;> rfl
  | discarded hthread _ => exact h.deleted hthread rfl
  | failed hthread hopen =>
      rw [h.settled _ _ _ _ hthread] at hopen
      cases hopen
  | @beaten events now hthread _ _ =>
      have hsame := sameReporting_saveSession { statistics with
        localSession := { statistics.localSession with lastTimestamp := now } }
      have hsaved := @Attended.congr_handler statistics _ h
        ⟨hsame.events, hsame.running, hsame.reportThread, hsame.reportQueue, hsame.terminated⟩
        saveSession_handler
      exact hsaved.move_of_deleted (hsame.reportThread.trans hthread) rfl nofun
  | overtaken hthread _ _ => exact h.move_of_deleted hthread rfl nofun
  | retry hthread _ => exact h.move_of_deleted hthread rfl nofun
  | done hthread _ => exact h.move_of_deleted hthread rfl nofun

theorem Attended.refreshConfig (h : statistics.Attended) (halive : statistics.terminated = false)
    (config : ReportConfig) : (statistics.refreshConfig config true).Attended := by
  obtain ⟨hevents, _, hqueue, hhandler, _, _, _, hcases⟩ := statistics.refreshConfig_spec config
  -- the thread is the same, or there was none, or the process ends
  have hthread : (statistics.refreshConfig config true).reportThread = statistics.reportThread
      ∨ (statistics.refreshConfig config true).reportThread = some .loop
        ∧ ((statistics.refreshConfig config true).terminated = false →
          statistics.reportThread = none) := by
    split at hcases
    · exact Or.inl hcases.2.1
    · split at hcases
      · refine Or.inr ⟨hcases.2.1, fun hlives => ?_⟩
        rw [hcases.2.2.2, halive, Bool.false_or] at hlives
        exact Option.isNone_iff_eq_none.mp (Option.isSome_eq_false_iff.mp hlives)
      · exact Or.inl hcases.2.1
  refine ⟨fun handler hnext => h.handler handler (hhandler.symm.trans hnext),
    fun events now hasHeatBeats answer hanswered => ?_, fun id row hrow => ?_⟩
  · rcases hthread with hsame | ⟨hloop, _⟩
    · exact h.settled events now hasHeatBeats answer (hsame.symm.trans hanswered)
    · rw [hloop] at hanswered
      cases hanswered
  · rw [hevents] at hrow
    obtain ⟨haction, hway⟩ := h.rows id row hrow
    refine ⟨haction, fun hlives => ?_⟩
    unfold OnItsWay
    rw [hqueue, hhandler]
    rcases hway halive with hqueued | ⟨before, hbefore, hrest⟩ | hstored
    · exact Or.inl hqueued
    · rcases hthread with hsame | ⟨_, hnone⟩
      · exact Or.inr (Or.inl ⟨before, hsame.trans hbefore, hrest⟩)
      · rw [hnone hlives] at hbefore
        cases hbefore
    · exact Or.inr (Or.inr hstored)

/-- The server answers, with success or with an error that gives the events up. -/
def Op.settles : Op → Bool
  | .reporter input => input.answer.settles
  | _ => true

/-- **One step.** -/
theorem Attended.step (h : statistics.Attended) (halive : statistics.terminated = false)
    (hsettles : op.settles = true) (hmoved : statistics.Moved op next) : next.Attended := by
  cases hmoved with
  | still _ => exact h
  | begun hidle hbegun =>
      refine h.congr (hbegun.sameReporting hidle) hbegun.paired fun event todo hbusy => ?_
      rw [hidle] at hbusy
      cases hbusy
  | sameUser _ _ =>
      have hsame := sameReporting_saveSession statistics.setSessionUser
      exact h.congr_handler ⟨hsame.events, hsame.running, hsame.reportThread, hsame.reportQueue,
        hsame.terminated⟩ saveSession_handler
  | performed hhandler hperform =>
      refine h.handlerStep halive ?_
      simp only [Statistics.handlerStep, hhandler, hperform, Option.map_some, remaining]
  | @beat now _ _ =>
      have hsame := sameReporting_saveSession { statistics with
        localSession := { statistics.localSession with lastBeats := now } }
      exact h.congr_handler ⟨hsame.events, hsame.running, hsame.reportThread, hsame.reportQueue,
        hsame.terminated⟩ saveSession_handler
  | tick _ _ hput =>
      have hspec := BlockingQueue.put_spec hput
      refine ⟨h.handler, h.settled, fun id row hrow => ?_⟩
      obtain ⟨haction, hway⟩ := h.rows id row hrow
      refine ⟨haction, fun _ => (hway halive).imp_left ?_⟩
      rintro ⟨event, hevent, hcarries⟩
      refine ⟨event, ?_, hcarries⟩
      rw [hspec]
      exact List.mem_append_left _ hevent
  | reporter hmove => exact h.reporterMove hsettles hmove
  | refreshConfig => exact h.refreshConfig halive _

/-! ### The start of a launch -/

/-- No row is a heartbeat. -/
def NoBeats (storage : DurPersistence) : Prop :=
  ∀ id row, storage.events.find id = some row → row.action ≠ .heatBeat

theorem NoBeats.addOrMergeEvent {storage : DurPersistence} (h : NoBeats storage) {event : DurEvent}
    (haction : event.action ≠ .heatBeat) : NoBeats (storage.addOrMergeEvent event).2 := by
  intro id row hrow
  rcases find_addOrMergeEvent hrow with ⟨rfl, _⟩ | hold
  · obtain ⟨newId, hnew⟩ := exists_id_addOrMergeEvent storage event
    rw [hnew]
    exact haction
  · exact h id row hold

theorem NoBeats.endSession {storage : DurPersistence} (h : NoBeats storage) (deviceId : Str) :
    NoBeats (construct storage deviceId).endSession.persistence := by
  unfold Statistics.endSession
  split
  · exact h
  · exact NoBeats.addOrMergeEvent h (by simp [endEvent])

/-- No stored event has expired. -/
def noneExpired (statistics : Statistics) (clock : DurEvent → UInt64) : Bool :=
  statistics.persistence.getEvents.all fun event => !statistics.expiredAt (clock event) event

theorem noneExpired_iff {clock : DurEvent → UInt64} : statistics.noneExpired clock = true
    ↔ ∀ event ∈ statistics.persistence.getEvents,
      statistics.expiredAt (clock event) event = false := by
  simp only [noneExpired, List.all_eq_true, Bool.not_eq_true']

theorem mem_getEvents_of_find {storage : DurPersistence} {id : Nat} {row : DurEvent}
    (h : storage.events.find id = some row) : { row with id := id } ∈ storage.getEvents :=
  List.mem_map.mpr ⟨(id, row), OrderedMap.mem_of_find h, rfl⟩

/-- **Every row is put in the queue exactly if none has expired.** -/
theorem all_added_iff {clock : DurEvent → UInt64} (h : statistics.initHistoryAt clock = some next) :
    (∀ event ∈ next.persistence.getEvents, event ∈ statistics.added next)
      ↔ statistics.noneExpired clock = true := by
  have hrows : next.persistence = statistics.persistence := by rw [initHistoryAt_spec h]
  rw [hrows, noneExpired_iff]
  constructor
  · exact fun hall event hevent => ((mem_added_iff h).mp (hall event hevent)).2
  · exact fun hnone event hevent => (mem_added_iff h).mpr ⟨hevent, hnone event hevent⟩

theorem attended_init {configured : Statistics} {now : UInt64} (hidle : statistics.handler = none)
    (hthread : statistics.reportThread = none) (hbeats : NoBeats statistics.persistence)
    (h : statistics.initHistory now = some configured)
    (hnone : (statistics.noneExpired fun _ => now) = true) :
    configured.initReportThread.initRequest.Attended := by
  rw [initHistory_eq] at h
  have hspec := initHistoryAt_spec h
  have hqueued : ∀ id row, statistics.persistence.events.find id = some row →
      ∃ event ∈ configured.reportQueue.queue, event.Carries id := by
    intro id row hrow
    have hevent := mem_getEvents_of_find hrow
    refine ⟨{ row with id := id }, ?_, rfl, hbeats id row hrow⟩
    rw [hspec]
    refine List.mem_append_right _ (List.mem_filter.mpr ⟨hevent, ?_⟩)
    rw [noneExpired_iff.mp hnone _ hevent]
    rfl
  have hstarted : configured.initReportThread.initRequest.persistence = statistics.persistence
      ∧ configured.initReportThread.initRequest.reportQueue = configured.reportQueue
      ∧ configured.initReportThread.initRequest.handler = none
      ∧ ∀ reporter, configured.initReportThread.initRequest.reportThread = some reporter →
        reporter = .loop := by
    have hconfigured : configured.persistence = statistics.persistence
        ∧ configured.handler = none ∧ configured.reportThread = none := by
      rw [hspec]
      exact ⟨rfl, hidle, hthread⟩
    obtain ⟨hpersistence, hhandler, hnothread⟩ := hconfigured
    unfold initReportThread initRequest
    split
    · exact ⟨hpersistence, rfl, hhandler, fun _ hloop => by rw [hnothread] at hloop; cases hloop⟩
    · split
      · exact ⟨hpersistence, rfl, hhandler, fun _ hloop => by rw [hnothread] at hloop; cases hloop⟩
      · exact ⟨hpersistence, rfl, hhandler, fun _ hloop => (Option.some.inj hloop).symm⟩
  obtain ⟨hpersistence, hqueue, hhandler, hloop⟩ := hstarted
  refine ⟨fun handler hbusy => ?_, fun events now hasHeatBeats answer hanswered => ?_,
    fun id row hrow => ?_⟩
  · rw [hhandler] at hbusy
    cases hbusy
  · cases hloop _ hanswered
  · rw [hpersistence] at hrow
    refine ⟨hbeats id row hrow, fun _ => Or.inl ?_⟩
    rw [hqueue]
    exact hqueued id row hrow

end Statistics

/-! ### One launch after the other -/

namespace Device

variable {device next : Device} {op : Op}

/-- When the history is read no stored event has expired, and the server answers. -/
def nothingExpires (device : Device) : Op → Bool
  | .finishInit now =>
      match device.process with
      | .opened statistics => statistics.noneExpired fun _ => now
      | _ => true
  | .run op => op.settles
  | _ => true

structure Tidy (device : Device) : Prop where
  beats : Statistics.NoBeats device.storage
  starting : ∀ statistics, device.process = .ended statistics
    ∨ device.process = .opened statistics →
    statistics.handler = none ∧ statistics.reportThread = none
  running : ∀ statistics, device.process = .running statistics → statistics.Attended

theorem tidy_start : start.Tidy := by
  refine ⟨?_, ?_, ?_⟩
  · intro id row hfind
    cases hfind
  · rintro statistics (hprocess | hprocess) <;> cases hprocess
  · intro statistics hprocess
    cases hprocess

theorem alive_of_step {statistics : Statistics} {op : Statistics.Op}
    (hprocess : device.process = .running statistics) (h : device.step (.run op) = some next) :
    statistics.terminated = false := by
  unfold step at h
  rw [hprocess] at h
  dsimp only at h
  split at h
  · obtain ⟨after, hstep, _⟩ := Option.map_eq_some_iff.mp h
    unfold Statistics.step at hstep
    split at hstep
    · cases hstep
    · rename_i halive
      exact Bool.not_eq_true _ ▸ halive
  · cases h

theorem Tidy.step (h : device.Tidy) (hallowed : device.nothingExpires op = true)
    (hstep : device.step op = some next) : next.Tidy := by
  cases moved_of_step hstep with
  | @launch storage deviceId hprocess =>
      have hbeats : Statistics.NoBeats storage := storage_of_off hprocess ▸ h.beats
      refine ⟨hbeats.endSession deviceId, ?_, fun statistics hrunning => by cases hrunning⟩
      rintro statistics (hended | hopened)
      · cases hended
        have hunopened := Statistics.unopened_endSession storage deviceId
        exact ⟨hunopened.handler, hunopened.reportThread⟩
      · cases hopened
  | @openSession statistics uuid hprocess _ =>
      obtain ⟨hidle, hthread⟩ := h.starting statistics (Or.inl hprocess)
      have hbeats : Statistics.NoBeats statistics.persistence := storage_of_ended hprocess ▸ h.beats
      have hsame := Statistics.sameReporting_saveSession { statistics with
        gameSession := uuid
        localSession := { statistics.localSession with session := uuid } }
      refine ⟨fun id row hrow => hbeats id row (hsame.events ▸ hrow), ?_, ?_⟩
      · rintro other (hwrong | hopened)
        · cases hwrong
        · cases hopened
          exact ⟨Statistics.saveSession_handler.trans hidle, hsame.reportThread.trans hthread⟩
      · intro other hwrong
        cases hwrong
  | @finishInit statistics configured now hprocess _ hhistory =>
      obtain ⟨hidle, hthread⟩ := h.starting statistics (Or.inr hprocess)
      have hbeats : Statistics.NoBeats statistics.persistence :=
        storage_of_live (live_of_opened hprocess) ▸ h.beats
      rw [nothingExpires, hprocess] at hallowed
      have hattended := Statistics.attended_init hidle hthread hbeats hhistory hallowed
      refine ⟨fun id row hrow => (hattended.rows id row hrow).1, ?_, ?_⟩
      · rintro other (hwrong | hwrong) <;> cases hwrong
      · intro other hother
        cases hother
        exact hattended
  | @run statistics after op hprocess _ hmoved =>
      have hattended := (h.running statistics hprocess).step (alive_of_step hprocess hstep) hallowed
        hmoved
      refine ⟨fun id row hrow => (hattended.rows id row hrow).1, ?_, ?_⟩
      · rintro other (hwrong | hwrong) <;> cases hwrong
      · intro other hother
        cases hother
        exact hattended
  | @crash statistics deleted hprocess =>
      have hbeats : Statistics.NoBeats statistics.persistence :=
        storage_of_statistics hprocess ▸ h.beats
      refine ⟨fun id row hrow => hbeats id row (statistics.keepsRows_left deleted id row hrow), ?_,
        ?_⟩
      · rintro other (hwrong | hwrong) <;> cases hwrong
      · intro other hwrong
        cases hwrong

theorem tidy_of_reaches
    (hreach : system.Reaches (fun device op => device.nothingExpires op = true) device) :
    device.Tidy := by
  refine hreach.invariant Tidy ?_ fun _ _ _ htidy hallowed hstep => htidy.step hallowed hstep
  rintro _ rfl
  exact tidy_start

end Device

/-- **No row is left behind when none has expired.** `InitHistory` puts every row in the queue
exactly if none has expired; and along every sequence of launches in which that is so whenever the
history is read, and in which the server answers, every row there is on its way to be reported. -/
theorem rows_reported_unless_expired {device : Device}
    (hreach : Device.system.Reaches (fun device op => device.nothingExpires op = true) device) :
    (∀ (statistics next : Statistics) (clock : DurEvent → UInt64),
        statistics.initHistoryAt clock = some next →
        ((∀ event ∈ next.persistence.getEvents, event ∈ statistics.added next)
          ↔ statistics.noneExpired clock = true))
      ∧ ∀ statistics, device.process = .running statistics → statistics.terminated = false →
          ∀ id row, statistics.persistence.events.find id = some row → statistics.OnItsWay id := by
  constructor
  · intro statistics next clock hinit
    exact Statistics.all_added_iff hinit
  · intro statistics hprocess halive id row hrow
    have htidy := (Device.tidy_of_reaches hreach).running statistics hprocess
    exact (htidy.rows id row hrow).2 halive

/-- The user of a new device logs in, and the process ends where the event has been stored. The next
launch ends the session with another row and reads the history. -/
def relaunchOps : List Device.Op :=
  [.launch [], .openSession [117], .finishInit 0, .run (.onNewUser (some ⟨[97], true⟩) 300000),
    .run .handler, .run .handler, .run .handler, .crash 0, .launch [], .openSession [118],
    .finishInit 400000]

/-- The process runs, with two rows. -/
def Device.runsWithRows (device : Device) : Bool :=
  match device.process with
  | .running statistics =>
      !statistics.terminated && statistics.persistence.events.all.length = 2
  | _ => false

theorem rows_reported_after_login : ∃ device : Device, ∃ statistics,
    device.process = .running statistics ∧ statistics.persistence.events.all.length = 2
      ∧ ∀ id row, statistics.persistence.events.find id = some row → statistics.OnItsWay id := by
  have hrun : ((Device.system.guarded (fun device op => device.nothingExpires op = true) relaunchOps
      Device.start).any Device.runsWithRows) = true := by decide +kernel
  obtain ⟨device, hguarded, hruns⟩ := (Option.any_eq_true _ _).mp hrun
  unfold Device.runsWithRows at hruns
  split at hruns
  · rename_i statistics hprocess
    obtain ⟨halive, hlength⟩ := Bool.and_eq_true_iff.mp hruns
    exact ⟨device, statistics, hprocess, of_decide_eq_true hlength,
      (rows_reported_unless_expired (System.Reaches.guarded (.init rfl) hguarded)).2 statistics
        hprocess (Bool.not_eq_true' _ ▸ halive)⟩
  · cases hruns

/-- **A row that has expired stays.** -/
theorem expired_row_stays :
    ∃ next, (Statistics.construct (Statistics.oneEvent 0 1699996400000) []).initHistoryAt
        (fun _ => 1700000000000) = some next
      ∧ Statistics.oneEventRow 1699996400000 ∈ next.persistence.getEvents
      ∧ Statistics.oneEventRow 1699996400000
        ∉ (Statistics.construct (Statistics.oneEvent 0 1699996400000) []).added next := by
  have hsome : ((Statistics.construct (Statistics.oneEvent 0 1699996400000) []).initHistoryAt
      fun _ => 1700000000000).isSome = true := by decide
  obtain ⟨next, hnext⟩ := Option.isSome_iff_exists.mp hsome
  refine ⟨next, hnext, ?_, ?_⟩
  · rw [Statistics.initHistoryAt_spec hnext]
    decide
  · rw [Statistics.mem_added_iff hnext]
    decide

end TapSdk.Duration
