import TapSdk.Duration.Proof.Spans

/-!
# Reported time is not counted twice

A heartbeat is built with the `last_timestamp` of its session, and its own time is saved there only
after its POST has succeeded. Along the runs in which nothing is stamped with the old time in
between, the intervals that are delivered do not overlap.
-/

namespace TapSdk.Duration

open Library

variable {stored delivered : List DurEvent} {stamped : Bool}

namespace Statistics

variable {statistics next : Statistics} {op : Op}

/-- An event on its way is a heartbeat of the session, or it was stored. -/
def Known (stored : List DurEvent) (session : Str) (event : DurEvent) : Prop :=
  (event.action = .heatBeat → event.session = session) ∧ (event.action ≠ .heatBeat → event ∈ stored)

theorem Known.mono {more : List DurEvent} {session : Str} {event : DurEvent}
    (h : Known stored session event) : Known (stored ++ more) session event :=
  ⟨h.1, fun haction => List.mem_append_left _ (h.2 haction)⟩

def HasSpans (stored delivered : List DurEvent) (statistics : Statistics) : Prop :=
  ∃ row, statistics.persistence.sessions.find statistics.localSession.id = some row
    ∧ Spans stored delivered statistics.gameSession row.lastTimestamp
      statistics.localSession.lastTimestamp statistics.handler statistics.unsavedBeat

/-- What is in flight has at most one heartbeat, and that one starts after everything else unless a
handler has stamped an event since it was built. -/
structure FlightSound (stored delivered : List DurEvent) (stamped : Bool) (statistics : Statistics)
    (reports : List DurEvent) (now : UInt64) (hasHeatBeats : Bool) : Prop where
  flagged : ∀ beat ∈ reports, beat.action = .heatBeat → hasHeatBeats = true
  single : reports.Pairwise fun event other =>
    ¬ (event.action = .heatBeat ∧ other.action = .heatBeat)
  inFlight : stamped = false →
    InFlight stored delivered statistics.gameSession statistics.handler reports now

/-- What holds of a process whose session is open. -/
structure LiveSound (stored delivered : List DurEvent) (stamped : Bool) (statistics : Statistics) :
    Prop where
  carries : statistics.Carries (Known stored statistics.gameSession)
  spans : statistics.HasSpans stored delivered
  flight : ∀ events reports now hasHeatBeats,
    statistics.reportThread = some (.posting events reports now hasHeatBeats) →
    FlightSound stored delivered stamped statistics reports now hasHeatBeats
  stamped : statistics.stamping = true → stamped = true

/-! ### Reports -/

theorem buildReports_flag {now : UInt64} {events : List DurEvent} {hasHeatBeats : Bool} :
    (hasHeatBeats = true → (statistics.buildReports now events hasHeatBeats).2.2 = true
      ∧ ∀ event ∈ (statistics.buildReports now events hasHeatBeats).2.1,
        event.action ≠ .heatBeat)
    ∧ (∀ event ∈ (statistics.buildReports now events hasHeatBeats).2.1, event.action = .heatBeat →
      (statistics.buildReports now events hasHeatBeats).2.2 = true)
    ∧ (statistics.buildReports now events hasHeatBeats).2.1.Pairwise fun event other =>
      ¬ (event.action = .heatBeat ∧ other.action = .heatBeat) := by
  induction events generalizing hasHeatBeats with
  | nil => simp [buildReports]
  | cons first rest ih =>
      simp only [buildReports]
      split
      · rename_i hplain
        obtain ⟨hflag, hbeat, hpairs⟩ := @ih hasHeatBeats
        refine ⟨fun hset => ⟨(hflag hset).1, ?_⟩, ?_, ?_⟩
        · intro event hevent
          rcases List.mem_cons.mp hevent with rfl | hrest
          · exact hplain
          · exact (hflag hset).2 event hrest
        · intro event hevent haction
          rcases List.mem_cons.mp hevent with rfl | hrest
          · exact absurd haction hplain
          · exact hbeat event hrest haction
        · exact List.pairwise_cons.mpr ⟨fun other _ hboth => hplain hboth.1, hpairs⟩
      · split
        · exact ih
        · -- this is the first heartbeat, and the rest has none
          rename_i hskip
          obtain ⟨hflag, hbeat, hpairs⟩ := @ih true
          obtain ⟨hset, hnone⟩ := hflag rfl
          refine ⟨fun hset' => ?_, fun _ _ _ => hset, ?_⟩
          · rw [hset'] at hskip
            exact absurd rfl hskip
          · exact List.pairwise_cons.mpr ⟨fun other hother hboth => hnone other hother hboth.2,
              hpairs⟩

theorem mem_reports_buildReports {now : UInt64} {events : List DurEvent} {hasHeatBeats : Bool}
    {event : DurEvent} (h : event ∈ (statistics.buildReports now events hasHeatBeats).2.1)
    (haction : event.action = .heatBeat) : event.timestamp = now
      ∧ event.lastTimestamp = statistics.localSession.lastTimestamp := by
  induction events generalizing hasHeatBeats with
  | nil => cases h
  | cons first rest ih =>
      simp only [buildReports] at h
      split at h
      · rename_i hplain
        rcases List.mem_cons.mp h with rfl | hrest
        · exact absurd haction hplain
        · exact ih hrest
      · split at h
        · exact ih h
        · rcases List.mem_cons.mp h with rfl | hrest
          · exact ⟨rfl, rfl⟩
          · exact ih hrest

/-! ### Steps -/

/-- A step that leaves what is in flight alone. -/
theorem LiveSound.congr {stored' : List DurEvent} {stamped' : Bool}
    (h : LiveSound stored delivered stamped statistics)
    (hcarries : next.Carries (Known stored' next.gameSession))
    (hspans : next.HasSpans stored' delivered)
    (hthread : ∀ events reports now hasHeatBeats,
      next.reportThread = some (.posting events reports now hasHeatBeats) →
      statistics.reportThread = some (.posting events reports now hasHeatBeats))
    (hflight : ∀ reports now, stamped' = false →
      InFlight stored delivered statistics.gameSession statistics.handler reports now →
      InFlight stored' delivered next.gameSession next.handler reports now)
    (hstamped : stamped' = false → stamped = false)
    (hstamping : next.stamping = true → stamped' = true) :
    LiveSound stored' delivered stamped' next := by
  refine ⟨hcarries, hspans, ?_, hstamping⟩
  intro events reports now hasHeatBeats hposting
  have hbefore := h.flight events reports now hasHeatBeats (hthread _ _ _ _ hposting)
  exact ⟨hbefore.flagged, hbefore.single,
    fun hclear => hflight reports now hclear (hbefore.inFlight (hstamped hclear))⟩

/-- The flag of the record after a step that builds no report. -/
theorem stamped_of_quiet (hbuilds : statistics.builds op = false)
    (h : ((!statistics.builds op && stamped) || next.stamping) = false) :
    stamped = false ∧ next.stamping = false := by
  rw [hbuilds] at h
  simpa using h

/-- What a handler starts with. -/
theorem Begun.plan (h : statistics.Begun op next) : ∃ handler, next.handler = some handler
    ∧ thorough handler.todo = true ∧ orderly handler.todo = true
    ∧ handler.todo.head? ≠ some .putEvent
    ∧ ((handler.event.lastTimestamp = 0)
      ∨ (handler.event.lastTimestamp = statistics.localSession.lastTimestamp
        ∧ handler.todo.head? = some .touchSession ∧ storesNext handler.todo = false
        ∧ statistics.disturbs op = true)) := by
  cases h with
  | gameStart => exact ⟨_, rfl, rfl, rfl, by simp, Or.inl rfl⟩
  | onForeground hgame | onBackground hgame =>
      rw [onWindow, if_neg hgame]
      exact ⟨_, rfl, rfl, rfl, by simp, Or.inr ⟨rfl, rfl, rfl, decide_eq_true hgame⟩⟩
  | login hother =>
      simp only [onNewUser, if_pos hother]
      exact ⟨_, rfl, rfl, rfl, by simp, Or.inr ⟨rfl, rfl, rfl, decide_eq_true hother⟩⟩
  | logout => exact ⟨_, rfl, rfl, rfl, by simp, Or.inr ⟨rfl, rfl, rfl, rfl⟩⟩

theorem unsavedBeat_congr (h : next.reportThread = statistics.reportThread) :
    next.unsavedBeat = statistics.unsavedBeat := by
  rw [unsavedBeat, unsavedBeat, h]

theorem LiveSound.begun (h : LiveSound stored delivered stamped statistics)
    (hidle : statistics.handler = none) (hbegun : statistics.Begun op next)
    (hcalm : statistics.disturbs op = true → statistics.unsavedBeat = none)
    (hclock : ∀ now, op.reading = some now → op.readsLocked = true →
      statistics.localSession.lastTimestamp ≤ now) :
    LiveSound stored delivered ((!statistics.builds op && stamped) || next.stamping) next := by
  obtain ⟨hpersistence, hlocal, hgameSession, hqueue, hthread⟩ := hbegun.frame
  obtain ⟨handler, hhandler, hthorough, horderly, hput, hstamp⟩ := hbegun.plan
  obtain ⟨begun, hbegun', _, _, _, _, hreading, hlocked, _⟩ := hbegun.event
  obtain rfl := Option.some.inj (hhandler.symm.trans hbegun')
  have hbuilds : statistics.builds op = false := by cases hbegun <;> rfl
  refine h.congr ?_ ?_ ?_ ?_ (fun hclear => (stamped_of_quiet hbuilds hclear).1)
    fun hstamping => by rw [hstamping, Bool.or_true]
  · rw [hgameSession]
    exact h.carries.congr (by rw [hqueue]) (Or.inl hthread)
  · obtain ⟨row, hrow, hspans⟩ := h.spans
    refine ⟨row, by rw [hpersistence, hlocal, hrow], ?_⟩
    rw [hidle] at hspans
    rw [hgameSession, hlocal, hhandler, unsavedBeat_congr hthread]
    refine hspans.begin hthorough horderly hput (hclock _ hreading hlocked) ?_
    exact hstamp.imp_right fun ⟨hlast, hhead, hstores, hdisturbs⟩ =>
      ⟨hlast, hhead, hstores, hcalm hdisturbs⟩
  · intro events reports now hasHeatBeats hposting
    exact hthread.symm.trans hposting
  · intro reports now hclear hbefore
    rw [hgameSession]
    refine ⟨hbefore.timestamp, hbefore.stored_le, hbefore.delivered_le, ?_⟩
    intro beat _ _ running hrunning hne
    obtain rfl := Option.some.inj (hhandler.symm.trans hrunning)
    rcases hstamp with hzero | ⟨_, hhead, _⟩
    · exact absurd hzero hne
    · -- then the step has just set the flag
      have hstamping : next.stamping = true := by
        rw [stamping, hhandler, Option.any_some]
        exact decide_eq_true hhead
      rw [(stamped_of_quiet hbuilds hclear).2] at hstamping
      cases hstamping

theorem InFlight.remaining {session : Str} {event after : DurEvent} {step : HandlerStep}
    {todo : List HandlerStep} {reports : List DurEvent} {now : UInt64}
    (h : InFlight stored delivered session (some ⟨event, step :: todo⟩) reports now)
    (hafter : ∃ id, after = { event with id := id }) :
    InFlight stored delivered session (remaining after todo) reports now := by
  refine ⟨h.timestamp, h.stored_le, h.delivered_le, ?_⟩
  rintro beat hbeat haction ⟨other, todo'⟩ hremains
  obtain ⟨rfl, rfl⟩ := Account.handler_of_remaining hremains
  obtain ⟨id, rfl⟩ := hafter
  exact h.handler beat hbeat haction ⟨event, step :: todo'⟩ rfl

theorem InFlight.store {session : Str} {event : DurEvent} {step : HandlerStep}
    {todo : List HandlerStep} {reports : List DurEvent} {now : UInt64} (id : Nat)
    (h : InFlight stored delivered session (some ⟨event, step :: todo⟩) reports now) :
    InFlight (stored ++ [{ event with id := id }]) delivered session
      (Statistics.remaining { event with id := id } todo) reports now := by
  have hremains := InFlight.remaining h ⟨id, rfl⟩
  refine ⟨hremains.timestamp, ?_, hremains.delivered_le, hremains.handler⟩
  intro beat hbeat haction other hother hcounted
  rcases List.mem_append.mp hother with hold | hnew
  · exact h.stored_le beat hbeat haction other hold hcounted
  · obtain rfl := List.mem_singleton.mp hnew
    exact h.handler beat hbeat haction _ rfl hcounted.2

theorem storedBy_handler {event : DurEvent} {step : HandlerStep} {todo : List HandlerStep}
    (h : statistics.handler = some ⟨event, step :: todo⟩) :
    statistics.storedBy .handler = if step = .addOrMergeEvent then
      [(statistics.persistence.addOrMergeEvent event).1] else [] := by
  cases step <;> simp [storedBy, h]

theorem HasSpans.perform {event after : DurEvent} {step : HandlerStep} {todo : List HandlerStep}
    {changed : Statistics} (h : statistics.HasSpans stored delivered)
    (hid : statistics.localSession.id ≠ 0)
    (hhandler : statistics.handler = some ⟨event, step :: todo⟩)
    (hperform : statistics.perform event step = some (after, changed)) :
    HasSpans (stored ++ statistics.storedBy .handler) delivered
      { changed with handler := remaining after todo } := by
  obtain ⟨row, hrow, hspans⟩ := h
  rw [storedBy_handler hhandler]
  rw [hhandler] at hspans
  cases step with
  | startSession =>
      obtain ⟨rfl, rfl⟩ := Prod.mk.inj (Option.some.inj hperform)
      rw [if_neg (by decide), List.append_nil]
      exact ⟨row, hrow, hspans.touch (Or.inr rfl)⟩
  | touchSession =>
      obtain ⟨rfl, rfl⟩ := Prod.mk.inj (Option.some.inj hperform)
      rw [if_neg (by decide), List.append_nil]
      exact ⟨row, hrow, hspans.touch (Or.inl rfl)⟩
  | userSession =>
      obtain ⟨rfl, rfl⟩ := Prod.mk.inj (Option.some.inj hperform)
      rw [if_neg (by decide), List.append_nil]
      exact ⟨row, hrow, hspans.pass (Or.inl rfl)⟩
  | putEvent =>
      obtain ⟨queue, _, hpair⟩ := Option.map_eq_some_iff.mp hperform
      obtain ⟨rfl, rfl⟩ := Prod.mk.inj hpair
      rw [if_neg (by decide), List.append_nil]
      exact ⟨row, hrow, hspans.pass (Or.inr rfl)⟩
  | updateSession =>
      obtain ⟨rfl, rfl⟩ := Prod.mk.inj (Option.some.inj hperform)
      rw [if_neg (by decide), List.append_nil, saveSession_of_id hid]
      exact ⟨_, Table.find_update_self hrow, hspans.update⟩
  | addOrMergeEvent =>
      obtain ⟨rfl, rfl⟩ := perform_addOrMergeEvent hperform
      obtain ⟨id, heq⟩ := exists_id_addOrMergeEvent statistics.persistence event
      rw [if_pos rfl, heq]
      refine ⟨row, ?_, hspans.store id⟩
      simp only [addOrMergeEvent_sessions, hrow]

theorem LiveSound.performed {event after : DurEvent} {step : HandlerStep}
    {todo : List HandlerStep} {changed : Statistics}
    (h : LiveSound stored delivered stamped statistics) (hid : statistics.localSession.id ≠ 0)
    (hown : statistics.OwnHandler) (hhandler : statistics.handler = some ⟨event, step :: todo⟩)
    (hperform : statistics.perform event step = some (after, changed)) :
    LiveSound (stored ++ statistics.storedBy .handler) delivered
      (stamped || stamping { changed with handler := remaining after todo })
      { changed with handler := remaining after todo } := by
  have hmoved : statistics.Moved .handler { changed with handler := remaining after todo } :=
    .performed hhandler hperform
  have hkeeps := hmoved.keepsSession hid
  refine h.congr ?_ (h.spans.perform hid hhandler hperform) ?_ ?_
    (fun hclear => (Bool.or_eq_false_iff.mp hclear).1)
    fun hstamping => by rw [hstamping, Bool.or_true]
  · have hmore : statistics.Carries
        (Known (stored ++ statistics.storedBy .handler) statistics.gameSession) :=
      h.carries.mono fun _ hknown => hknown.mono
    refine (hmoved.carries hmore ?_ ?_ ?_).mono fun _ hknown => hkeeps.gameSession.symm ▸ hknown
    · intro put rest _ hput
      obtain ⟨row, _, hspans⟩ := h.spans
      have hstored := (hspans.handler _ hput).put rfl
      exact ⟨fun haction => absurd haction (hown _ hput).2.2,
        fun _ => List.mem_append_left _ hstored⟩
    · exact fun now hop => by cases hop
    · exact fun input events success hop => by cases hop
  · intro events reports now hasHeatBeats hposting
    rw [← hposting]
    exact ((perform_frame hperform).2).symm
  · intro reports now _ hbefore
    rw [hkeeps.gameSession, storedBy_handler hhandler]
    rw [hhandler] at hbefore
    by_cases hstep : step = .addOrMergeEvent
    · subst hstep
      obtain ⟨rfl, rfl⟩ := perform_addOrMergeEvent hperform
      obtain ⟨id, heq⟩ := exists_id_addOrMergeEvent statistics.persistence event
      rw [if_pos rfl, heq]
      exact InFlight.store id hbefore
    · rw [if_neg hstep, List.append_nil]
      exact InFlight.remaining hbefore (perform_event hperform)

theorem HasSpans.congr (h : statistics.HasSpans stored delivered)
    (hsessions : next.persistence.sessions = statistics.persistence.sessions)
    (hlocal : next.localSession = statistics.localSession)
    (hgameSession : next.gameSession = statistics.gameSession)
    (hhandler : next.handler = statistics.handler)
    (hunsaved : next.unsavedBeat = statistics.unsavedBeat) : next.HasSpans stored delivered := by
  obtain ⟨row, hrow, hspans⟩ := h
  refine ⟨row, by rw [hsessions, hlocal, hrow], ?_⟩
  rw [hlocal, hgameSession, hhandler, hunsaved]
  exact hspans

theorem HasSpans.saved {touched : Statistics} (h : statistics.HasSpans stored delivered)
    (hid : statistics.localSession.id ≠ 0)
    (hsessions : touched.persistence.sessions = statistics.persistence.sessions)
    (hlocal : touched.localSession.id = statistics.localSession.id)
    (hlast : touched.localSession.lastTimestamp = statistics.localSession.lastTimestamp)
    (hgameSession : touched.gameSession = statistics.gameSession)
    (hhandler : touched.handler = statistics.handler)
    (hthread : touched.reportThread = statistics.reportThread) :
    touched.saveSession.HasSpans stored delivered := by
  obtain ⟨row, hrow, hspans⟩ := h
  rw [saveSession_of_id (hlocal ▸ hid)]
  refine ⟨touched.localSession, Table.find_update_self (by rw [hsessions, hlocal, hrow]), ?_⟩
  have hunsaved : touched.unsavedBeat = statistics.unsavedBeat := unsavedBeat_congr hthread
  simp only [unsavedBeat] at hunsaved ⊢
  rw [hlast, hgameSession, hhandler, hunsaved]
  exact hspans.save

/-- A step that touches neither the handler nor the reporter. -/
theorem LiveSound.beside (h : LiveSound stored delivered stamped statistics)
    (hcarries : next.Carries (Known stored statistics.gameSession))
    (hspans : next.HasSpans stored delivered)
    (hgameSession : next.gameSession = statistics.gameSession)
    (hhandler : next.handler = statistics.handler)
    (hthread : next.reportThread = statistics.reportThread
      ∨ next.reportThread = some .loop) :
    LiveSound stored delivered (stamped || next.stamping) next := by
  refine h.congr (by rw [hgameSession]; exact hcarries) hspans ?_ ?_
    (fun hclear => (Bool.or_eq_false_iff.mp hclear).1)
    fun hstamping => by rw [hstamping, Bool.or_true]
  · intro events reports now hasHeatBeats hposting
    rcases hthread with hthread | hthread
    · exact hthread.symm.trans hposting
    · cases hthread.symm.trans hposting
  · intro reports now _ hbefore
    rw [hgameSession, hhandler]
    exact hbefore

theorem refreshConfig_restarts (statistics : Statistics) (config : ReportConfig) :
    (statistics.refreshConfig config true).reportThread = statistics.reportThread
      ∨ ((statistics.refreshConfig config true).reportThread = some .loop
        ∧ statistics.disturbs (.refreshConfig config) = true) := by
  have hrest := (statistics.refreshConfig_spec config).switched
  split at hrest
  · exact Or.inl hrest.2.1
  · rename_i hdiffers
    split at hrest
    · rename_i henable
      refine Or.inr ⟨hrest.2.1, ?_⟩
      rw [henable] at hdiffers
      simp only [disturbs, henable, Bool.true_and]
      cases hrunning : statistics.running
      · rfl
      · exact absurd hrunning hdiffers
    · exact Or.inl hrest.2.1

theorem LiveSound.refreshConfig (h : LiveSound stored delivered stamped statistics)
    (config : ReportConfig)
    (hcalm : statistics.disturbs (.refreshConfig config) = true → statistics.unsavedBeat = none) :
    LiveSound stored delivered (stamped || (statistics.refreshConfig config true).stamping)
      (statistics.refreshConfig config true) := by
  have hspec := statistics.refreshConfig_spec config
  have hthread := statistics.refreshConfig_thread config
  refine h.beside (h.carries.congr hspec.queue hthread) ?_ hspec.gameSession hspec.handler hthread
  refine h.spans.congr hspec.sessions hspec.localSession hspec.gameSession hspec.handler ?_
  rcases statistics.refreshConfig_restarts config with hsame | ⟨hloop, hdisturbs⟩
  · exact unsavedBeat_congr hsame
  · rw [hcalm hdisturbs, unsavedBeat, hloop]

/-- Nothing is in flight after the step. -/
theorem liveSound_of_not_posting {reporter : Reporter}
    (hcarries : next.Carries (Known stored next.gameSession))
    (hspans : next.HasSpans stored delivered) (hthread : next.reportThread = some reporter)
    (hposting : ∀ events reports now hasHeatBeats,
      reporter ≠ .posting events reports now hasHeatBeats)
    (hstamping : next.stamping = true → stamped = true) :
    LiveSound stored delivered stamped next := by
  refine ⟨hcarries, hspans, ?_, hstamping⟩
  intro events reports now hasHeatBeats hnext
  exact absurd (Option.some.inj (hthread.symm.trans hnext)) (hposting _ _ _ _)

theorem inFlight_of_built {input : ReporterInput} {events built reports : List DurEvent}
    {hasHeatBeats success : Bool} (h : LiveSound stored delivered stamped statistics)
    (hthread : statistics.reportThread = some (.building events success))
    (hbuild : statistics.buildReports input.now events false = (built, reports, hasHeatBeats))
    (hstamping : statistics.stamping = false) :
    InFlight stored delivered statistics.gameSession statistics.handler reports input.now := by
  obtain ⟨row, hrow, hspans⟩ := h.spans
  have hnone : statistics.unsavedBeat = none := by rw [unsavedBeat, hthread]
  have htimes : ∀ beat ∈ reports, beat.action = .heatBeat → beat.timestamp = input.now
      ∧ beat.lastTimestamp = statistics.localSession.lastTimestamp := by
    intro beat hbeat haction
    refine @mem_reports_buildReports statistics input.now events false beat ?_ haction
    rw [hbuild]
    exact hbeat
  refine ⟨fun beat hbeat haction => (htimes beat hbeat haction).1, ?_, ?_, ?_⟩
  · intro beat hbeat haction other hother hcounted
    rw [(htimes beat hbeat haction).2]
    exact UInt64.le_trans (hspans.stored_le other hother hcounted) hspans.row_le
  · intro beat hbeat haction other hother hcounted
    rw [(htimes beat hbeat haction).2]
    rcases hspans.delivered_le other hother hcounted with hle | ⟨unsaved, hunsaved, _⟩
    · exact UInt64.le_trans hle hspans.row_le
    · rw [hnone] at hunsaved
      cases hunsaved
  · intro beat hbeat haction running hrunning hne
    rw [(htimes beat hbeat haction).2]
    rcases (hspans.handler running hrunning).touched hne with hhead | hle
    · rw [stamping, hrunning, Option.any_some, hhead] at hstamping
      cases hstamping
    · exact hle

theorem LiveSound.answered {input : ReporterInput} {events reports : List DurEvent} {now : UInt64}
    {hasHeatBeats : Bool} (h : LiveSound stored delivered stamped statistics)
    (hthread : statistics.reportThread = some (.posting events reports now hasHeatBeats))
    (hcalm : hasHeatBeats = true → input.answer = .success → stamped = false)
    (hcarries : (statistics.setReporter (.answered events now hasHeatBeats input.answer)).Carries
      (Known stored statistics.gameSession)) :
    LiveSound stored (delivered ++ if input.answer = .success then reports else [])
      (stamped || (statistics.setReporter
        (.answered events now hasHeatBeats input.answer)).stamping)
      (statistics.setReporter (.answered events now hasHeatBeats input.answer)) := by
  refine liveSound_of_not_posting hcarries ?_ rfl (fun _ _ _ _ => by simp)
    fun hstamping => by rw [hstamping, Bool.or_true]
  obtain ⟨row, hrow, hspans⟩ := h.spans
  refine ⟨row, hrow, ?_⟩
  have hnone : statistics.unsavedBeat = none := by rw [unsavedBeat, hthread]
  rw [hnone] at hspans
  have hflight := h.flight events reports now hasHeatBeats hthread
  split
  · rename_i hsuccess
    rw [hsuccess]
    have hin : InFlight stored delivered statistics.gameSession statistics.handler reports now := by
      cases hasHeatBeats with
      | true => exact hflight.inFlight (hcalm rfl hsuccess)
      | false =>
          have hno : ∀ beat ∈ reports, ¬ beat.action = .heatBeat := by
            intro beat hbeat haction
            cases hflight.flagged beat hbeat haction
          exact ⟨fun beat hbeat haction => absurd haction (hno beat hbeat),
            fun beat hbeat haction => absurd haction (hno beat hbeat),
            fun beat hbeat haction => absurd haction (hno beat hbeat),
            fun beat hbeat haction => absurd haction (hno beat hbeat)⟩
    refine hspans.deliver hin ?_ ?_
    · exact fun other hother haction =>
        (h.carries.batch _ hthread other (Or.inr hother)).2 haction
    · intro beat hbeat haction
      have hset := hflight.flagged beat hbeat haction
      subst hset
      rfl
  · rename_i hfailed
    rw [List.append_nil]
    have hunsaved : (statistics.setReporter
        (.answered events now hasHeatBeats input.answer)).unsavedBeat = none := by
      simp only [unsavedBeat, setReporter]
      split
      · rename_i heq
        simp only [Option.some.injEq, Reporter.answered.injEq] at heq
        exact absurd heq.2.2.2 hfailed
      · rename_i heq
        simp at heq
      · rfl
    rw [hunsaved]
    exact hspans

theorem LiveSound.reporter {input : ReporterInput}
    (h : LiveSound stored delivered stamped statistics) (hid : statistics.localSession.id ≠ 0)
    (hmove : statistics.ReporterMove input next)
    (hcalm : statistics.postsBeat = true → input.answer = .success → stamped = false) :
    LiveSound stored (delivered ++ statistics.deliveredBy (.reporter input))
      ((!statistics.builds (.reporter input) && stamped) || next.stamping) next := by
  have hkeeps := hmove.keepsSession hid
  have hcarries : next.Carries (Known stored statistics.gameSession) :=
    h.carries.reporterMove (fun events success _ _ event _ haction hknown =>
      ⟨hknown.1, fun hplain => absurd haction hplain⟩) hmove
  have hcarries' : next.Carries (Known stored next.gameSession) := by
    rw [hkeeps.gameSession]
    exact hcarries
  have hstamping : next.stamping = true →
      ((!statistics.builds (.reporter input) && stamped) || next.stamping) = true :=
    fun hstamping => by rw [hstamping, Bool.or_true]
  -- the moves that neither post nor end a POST
  have haway : ∀ before after : Reporter, statistics.reportThread = some before →
      (∀ events reports now hasHeatBeats, before ≠ .posting events reports now hasHeatBeats) →
      next.HasSpans stored delivered → next.reportThread = some after →
      (∀ events reports now hasHeatBeats, after ≠ .posting events reports now hasHeatBeats) →
      LiveSound stored (delivered ++ statistics.deliveredBy (.reporter input))
        ((!statistics.builds (.reporter input) && stamped) || next.stamping) next := by
    intro before after hbefore hplain hspans hafter hposting
    have hnothing : statistics.deliveredBy (.reporter input) = [] := by
      simp only [deliveredBy]
      split
      · rename_i hthread
        exact absurd (Option.some.inj (hbefore.symm.trans hthread)) (hplain _ _ _ _)
      · rfl
    rw [hnothing, List.append_nil]
    exact liveSound_of_not_posting hcarries' hspans hafter hposting hstamping
  have hspansOf : next.persistence.sessions = statistics.persistence.sessions →
      next.localSession = statistics.localSession → next.unsavedBeat = statistics.unsavedBeat →
      next.HasSpans stored delivered := fun hsessions hlocal hunsaved =>
    h.spans.congr hsessions hlocal hkeeps.gameSession hmove.handler hunsaved
  have hunsavedOf : ∀ before, statistics.reportThread = some before →
      before.reading = none → statistics.unsavedBeat = none := by
    intro before hbefore hreading
    rw [unsavedBeat, hbefore]
    cases before <;> first | rfl | cases hreading
  cases hmove with
  | goOn hthread _ =>
      exact haway _ .waiting hthread (by simp)
        (hspansOf rfl rfl (hunsavedOf _ hthread rfl).symm) rfl (by simp)
  | leave hthread _ =>
      exact haway _ .exited hthread (by simp)
        (hspansOf rfl rfl (hunsavedOf _ hthread rfl).symm) rfl (by simp)
  | take hthread _ =>
      exact haway _ (.building _ _) hthread (by simp)
        (hspansOf rfl rfl (hunsavedOf _ hthread rfl).symm) rfl (by simp)
  | skip hthread _ =>
      exact haway _ (.checking _ _) hthread (by simp)
        (hspansOf rfl rfl (hunsavedOf _ hthread rfl).symm) rfl (by simp)
  | @post events built reports success hasHeatBeats hthread hbuild _ =>
      have hnothing : statistics.deliveredBy (.reporter input) = [] := by
        rw [deliveredBy, hthread]
      rw [hnothing, List.append_nil]
      refine ⟨hcarries', hspansOf rfl rfl (hunsavedOf _ hthread rfl).symm, ?_, hstamping⟩
      intro events' reports' now' hasHeatBeats' hposting
      obtain ⟨rfl, rfl, rfl, rfl⟩ := Reporter.posting.inj (Option.some.inj hposting)
      obtain ⟨_, hflag, hpairs⟩ := @buildReports_flag statistics input.now events false
      rw [hbuild] at hflag hpairs
      refine ⟨hflag, hpairs, fun hclear => ?_⟩
      have hbuilds : statistics.builds (.reporter input) = true := by rw [builds, hthread]
      rw [hbuilds] at hclear
      have hidle : statistics.stamping = false := (Bool.or_eq_false_iff.mp hclear).2
      have hin := inFlight_of_built h hthread hbuild hidle
      exact hin
  | @answer events reports now hasHeatBeats hthread =>
      have hdelivered : statistics.deliveredBy (.reporter input)
          = if input.answer = .success then reports else [] := by rw [deliveredBy, hthread]
      have hbuilds : statistics.builds (.reporter input) = false := by rw [builds, hthread]
      rw [hdelivered, hbuilds]
      refine h.answered hthread (fun hset hsuccess => hcalm ?_ hsuccess) hcarries
      rw [postsBeat, hthread]
      exact hset
  | @delivered events now hasHeatBeats hthread =>
      cases hasHeatBeats with
      | true =>
          refine haway _ (.beating events now) hthread (by simp) (hspansOf rfl rfl ?_) rfl (by simp)
          rw [unsavedBeat, unsavedBeat, hthread]
          rfl
      | false =>
          refine haway _ (.checking events true) hthread (by simp)
            (hspansOf rfl rfl ?_) rfl (by simp)
          rw [unsavedBeat, unsavedBeat, hthread]
          rfl
  | @discarded events now hasHeatBeats answer hthread hdiscards =>
      refine haway _ .loop hthread (by simp) (hspansOf rfl rfl ?_) rfl (by simp)
      cases answer with
      | success => cases hdiscards
      | failure status =>
          rw [unsavedBeat, unsavedBeat, hthread]
          cases hasHeatBeats <;> rfl
  | @failed events now hasHeatBeats answer hthread hopen =>
      refine haway _ (.checking events false) hthread (by simp) (hspansOf rfl rfl ?_) rfl (by simp)
      cases answer with
      | success => cases hopen
      | failure status =>
          rw [unsavedBeat, unsavedBeat, hthread]
          cases hasHeatBeats <;> rfl
  | @beaten events now hthread hfree hlater =>
      refine haway _ (.checking events true) hthread (by simp) ?_ rfl (by simp)
      obtain ⟨row, hrow, hspans⟩ := h.spans
      have hunsaved : statistics.unsavedBeat = some now := by rw [unsavedBeat, hthread]
      rw [hunsaved, hfree] at hspans
      have hsaved := hspans.beat hlater
      rw [setReporter, saveSession_of_id (by exact hid)]
      refine ⟨_, Table.find_update_self hrow, ?_⟩
      rw [← hfree] at hsaved
      exact hsaved
  | @overtaken events now hthread hfree hnot =>
      refine haway _ (.checking events true) hthread (by simp) ?_ rfl (by simp)
      obtain ⟨row, hrow, hspans⟩ := h.spans
      have hunsaved : statistics.unsavedBeat = some now := by rw [unsavedBeat, hthread]
      rw [hunsaved, hfree] at hspans
      have hsaved := hspans.overtake (UInt64.not_lt.mp hnot)
      rw [← hfree] at hsaved
      exact ⟨row, hrow, hsaved⟩
  | retry hthread _ =>
      exact haway _ (.building _ _) hthread (by simp)
        (hspansOf rfl rfl (hunsavedOf _ hthread rfl).symm) rfl (by simp)
  | done hthread _ =>
      exact haway _ .loop hthread (by simp)
        (hspansOf rfl rfl (hunsavedOf _ hthread rfl).symm) rfl (by simp)

/-- **One step of a process with an open session.** -/
theorem LiveSound.step (h : LiveSound stored delivered stamped statistics)
    (hid : statistics.localSession.id ≠ 0) (hown : statistics.OwnHandler)
    (hmoved : statistics.Moved op next)
    (hcalm : statistics.disturbs op = true → statistics.unsavedBeat = none)
    (hanswer : ∀ input, op = .reporter input → statistics.postsBeat = true →
      input.answer = .success → stamped = false)
    (hclock : ∀ now, op.reading = some now → op.readsLocked = true →
      statistics.localSession.lastTimestamp ≤ now) :
    LiveSound (stored ++ statistics.storedBy op) (delivered ++ statistics.deliveredBy op)
      ((!statistics.builds op && stamped) || next.stamping) next := by
  cases hmoved with
  | still hquiet =>
      have hquiet' : statistics.storedBy op = [] ∧ statistics.deliveredBy op = []
          ∧ statistics.builds op = false := by
        cases op <;> first | exact ⟨rfl, rfl, rfl⟩ | cases hquiet
      obtain ⟨hstores, hdelivers, hbuilds⟩ := hquiet'
      rw [hstores, hdelivers, hbuilds, List.append_nil, List.append_nil]
      exact h.beside h.carries h.spans rfl rfl (Or.inl rfl)
  | begun hidle hbegun =>
      have hplain : statistics.storedBy op = [] ∧ statistics.deliveredBy op = [] := by
        cases hbegun <;> exact ⟨rfl, rfl⟩
      rw [hplain.1, hplain.2, List.append_nil, List.append_nil]
      exact h.begun hidle hbegun hcalm hclock
  | sameUser _ _ =>
      simp only [storedBy, deliveredBy, List.append_nil]
      have hsame := sameReporting_saveSession statistics.setSessionUser
      refine h.beside ?_ (h.spans.saved hid rfl rfl rfl rfl rfl rfl) rfl saveSession_handler
        (Or.inl hsame.reportThread)
      exact h.carries.congr (congrArg (·.queue) hsame.reportQueue) (Or.inl hsame.reportThread)
  | performed hhandler hperform =>
      simp only [deliveredBy, List.append_nil]
      exact h.performed hid hown hhandler hperform
  | @beat now _ _ =>
      simp only [storedBy, deliveredBy, List.append_nil]
      have hsame := sameReporting_saveSession { statistics with
        localSession := { statistics.localSession with lastBeats := now } }
      refine h.beside ?_ (h.spans.saved hid rfl rfl rfl rfl rfl rfl) rfl saveSession_handler
        (Or.inl hsame.reportThread)
      exact h.carries.congr (congrArg (·.queue) hsame.reportQueue) (Or.inl hsame.reportThread)
  | @tick now queue hgame hidle hput =>
      simp only [storedBy, deliveredBy, List.append_nil]
      have hmoved : statistics.Moved (.onlineHeatBeat now)
          { statistics with reportQueue := queue } := .tick hgame hidle hput
      refine h.beside ?_ (h.spans.congr rfl rfl rfl rfl rfl) rfl rfl (Or.inl rfl)
      refine hmoved.carries h.carries ?_ ?_ ?_
      · exact fun event todo hop => by cases hop
      · exact fun _ _ _ => ⟨fun _ => rfl, fun hplain => absurd rfl hplain⟩
      · exact fun input events success hop => by cases hop
  | @reporter input next hmove =>
      simp only [storedBy, List.append_nil]
      exact h.reporter hid hmove (hanswer input rfl)
  | @refreshConfig config =>
      simp only [storedBy, deliveredBy, List.append_nil]
      exact h.refreshConfig config hcalm

end Statistics

/-! ### Over all launches -/

/-- The event is the end of this session, as some launch has stored it. -/
def EndOf (row : GameSession) (event : DurEvent) : Prop :=
  ∃ (statistics : Statistics) (id : Nat), statistics.tapUser = false
    ∧ event = { statistics.endEvent row with id := id }

/-- Nothing of the session is later than its row, but for its end. -/
structure SessionClosed (stored delivered : List DurEvent) (row : GameSession) : Prop where
  delivered_le : ∀ event ∈ delivered, event.Counted row.session →
    event.timestamp ≤ row.lastTimestamp
  stored_le : ∀ event ∈ stored, event.Counted row.session →
    event.timestamp ≤ row.lastTimestamp ∨ EndOf row event

theorem addOrMergeEvent_id_ne_zero (storage : DurPersistence) (event : DurEvent) :
    (storage.addOrMergeEvent event).1.id ≠ 0 := by
  rcases addOrMergeEvent_cases storage event with hinsert | ⟨id, old, hold, _, _, hmerge⟩
  · rw [hinsert]
    exact Nat.succ_ne_zero _
  · rw [hmerge]
    have hpos := (Table.bounded _ _ _ hold).1
    exact Nat.ne_of_gt hpos

namespace Deliveries

variable {deliveries next : Deliveries} {op : Device.Op}

structure Sound (deliveries : Deliveries) : Prop where
  pairs : deliveries.delivered.Pairwise DurEvent.Separate
  known : ∀ event ∈ deliveries.delivered, event.session ∈ deliveries.device.uuids
    ∧ (event.action ≠ .heatBeat → event ∈ deliveries.device.stored)
  stored : ∀ event ∈ deliveries.device.stored, ∀ other ∈ deliveries.device.stored,
    event.Separate other
  cross : ∀ event ∈ deliveries.delivered, ∀ other ∈ deliveries.device.stored, event.Separate other
  plain : ∀ event ∈ deliveries.device.stored, event.id ≠ 0 ∧ event.action ≠ .heatBeat
  off : ∀ storage row, deliveries.device.process = .off storage →
    storage.sessions.find storage.sessions.sequence = some row →
    SessionClosed deliveries.device.stored deliveries.delivered row
  ended : ∀ statistics row, deliveries.device.process = .ended statistics →
    statistics.persistence.sessions.find statistics.persistence.sessions.sequence = some row →
    SessionClosed deliveries.device.stored deliveries.delivered row
  opened : ∀ statistics, deliveries.device.process = .opened statistics →
    statistics.reportThread = none
  live : ∀ statistics, deliveries.device.process.live = some statistics →
    Statistics.LiveSound deliveries.device.stored deliveries.delivered deliveries.stamped statistics

theorem sound_start : start.Sound := by
  refine ⟨List.Pairwise.nil, ?_, ?_, ?_, ?_, ?_, ?_, ?_, ?_⟩
  · exact fun event hevent => by cases hevent
  · exact fun event hevent => by cases hevent
  · exact fun event hevent => by cases hevent
  · exact fun event hevent => by cases hevent
  · rintro _ row ⟨⟩ hrow
    cases hrow
  · exact fun statistics row hprocess => by cases hprocess
  · exact fun statistics hprocess => by cases hprocess
  · exact fun statistics hprocess => by cases hprocess

/-- An event that is stored is separate from everything before it. -/
theorem Sound.concat (h : deliveries.Sound) {event : DurEvent} (hid : event.id ≠ 0)
    (hstored : ∀ other ∈ deliveries.device.stored, other.Separate event) :
    ∀ first ∈ deliveries.device.stored ++ [event],
      ∀ second ∈ deliveries.device.stored ++ [event], first.Separate second := by
  intro first hfirst second hsecond
  rcases List.mem_append.mp hfirst with hfirst | hfirst <;>
    rcases List.mem_append.mp hsecond with hsecond | hsecond
  · exact h.stored first hfirst second hsecond
  · rw [List.mem_singleton.mp hsecond]
    exact hstored first hfirst
  · rw [List.mem_singleton.mp hfirst]
    exact (hstored second hsecond).symm
  · rw [List.mem_singleton.mp hfirst, List.mem_singleton.mp hsecond]
    exact DurEvent.separate_self hid

theorem Sound.launch (h : deliveries.Sound) (hsound : deliveries.device.Sound)
    {storage : DurPersistence} (deviceId : Str)
    (hprocess : deliveries.device.process = .off storage)
    (honce : (deliveries.device.launch storage deviceId).EndsOnce) :
    ({ deliveries with
        device := deliveries.device.launch storage deviceId } : Deliveries).Sound := by
  have hsessions := hsound.sessions
  rw [Device.storage_of_off hprocess] at hsessions
  have hafter := honce.after
  have huuids : (deliveries.device.launch storage deviceId).uuids = deliveries.device.uuids := rfl
  have hended : ∀ statistics : Statistics,
      (deliveries.device.launch storage deviceId).process = .ended statistics →
      statistics.persistence = (deliveries.device.launch storage deviceId).storage := by
    intro statistics hended
    rw [Device.storage, hended]
    rfl
  rcases deliveries.device.launch_cases storage deviceId with ⟨hnone, hstored, hstorage⟩
    | ⟨id, row, hlatest, hstored, hstorage⟩
  · refine ⟨h.pairs, ?_, ?_, ?_, ?_, ?_, ?_, ?_, ?_⟩
    · rw [hstored, huuids]
      exact h.known
    · rw [hstored]
      exact h.stored
    · rw [hstored]
      exact h.cross
    · rw [hstored]
      exact h.plain
    · exact fun other row hother => by cases hother
    · intro statistics row hprocess' hrow
      rw [hended statistics hprocess', hstorage] at hrow
      rw [Table.latest_of_find_sequence hrow] at hnone
      cases hnone
    · exact fun statistics hother => by cases hother
    · exact fun statistics hother => by cases hother
  · obtain ⟨rfl, hnewest⟩ := hsessions.of_latest hlatest
    have hclosed := h.off storage row hprocess hnewest
    obtain ⟨newId, hnew⟩ := Statistics.exists_id_addOrMergeEvent storage
      ((Statistics.construct storage deviceId).endEvent
        { row with id := storage.sessions.sequence })
    have hid := addOrMergeEvent_id_ne_zero storage
      ((Statistics.construct storage deviceId).endEvent
        { row with id := storage.sessions.sequence })
    rw [hnew] at hstored hid
    have hseparate : ∀ other ∈ deliveries.device.stored, other.Separate
        { (Statistics.construct storage deviceId).endEvent
          { row with id := storage.sessions.sequence } with id := newId } := by
      intro other hother hsession hlast _
      rcases hclosed.stored_le other hother ⟨hsession, hlast⟩ with hle | ⟨before, oldId, huser, heq⟩
      · exact Or.inr (Or.inl hle)
      · -- the session was ended before, in the same row
        rw [hstored] at hafter
        have hmerged := (List.pairwise_append.mp hafter).2.2 other hother _ List.mem_cons_self
          (by rw [heq]; rfl) hsession.symm
        refine Or.inl ⟨(h.plain other hother).1, ?_⟩
        have hsameId : newId = oldId := by
          rw [heq] at hmerged
          exact hmerged.2
        rw [heq, hsameId]
        simp only [Statistics.endEvent, huser, Statistics.construct]
    refine ⟨h.pairs, ?_, ?_, ?_, ?_, ?_, ?_, ?_, ?_⟩
    · rw [hstored, huuids]
      exact fun event hevent => ⟨(h.known event hevent).1,
        fun haction => List.mem_append_left _ ((h.known event hevent).2 haction)⟩
    · rw [hstored]
      exact h.concat hid hseparate
    · rw [hstored]
      intro event hevent other hother
      rcases List.mem_append.mp hother with hold | hnew'
      · exact h.cross event hevent other hold
      · rw [List.mem_singleton.mp hnew']
        refine DurEvent.separate_of_apart fun hsession hlast _ => Or.inl ?_
        exact hclosed.delivered_le event hevent ⟨hsession, hlast⟩
    · rw [hstored]
      intro event hevent
      rcases List.mem_append.mp hevent with hold | hnew'
      · exact h.plain event hold
      · rw [List.mem_singleton.mp hnew']
        exact ⟨hid, by simp [Statistics.endEvent]⟩
    · exact fun other row hother => by cases hother
    · intro statistics found hprocess' hfound
      rw [hended statistics hprocess', hstorage, Statistics.addOrMergeEvent_sessions,
        hnewest] at hfound
      obtain rfl := Option.some.inj hfound
      rw [hstored]
      refine ⟨hclosed.delivered_le, fun event hevent hcounted => ?_⟩
      rcases List.mem_append.mp hevent with hold | hnew'
      · exact hclosed.stored_le event hold hcounted
      · exact Or.inr ⟨Statistics.construct storage deviceId, newId, rfl,
          List.mem_singleton.mp hnew'⟩
    · exact fun statistics hother => by cases hother
    · exact fun statistics hother => by cases hother

theorem Sound.openSession (h : deliveries.Sound) (hsound : deliveries.device.Sound)
    {statistics : Statistics} {uuid : Str}
    (hprocess : deliveries.device.process = .ended statistics)
    (hnew : uuid ∉ deliveries.device.uuids) :
    ({ deliveries with device := { deliveries.device with
        process := .opened (statistics.openSession uuid)
        uuids := uuid :: deliveries.device.uuids } } : Deliveries).Sound := by
  have hunopened := hsound.ended statistics hprocess
  rw [hunopened.openSession]
  refine ⟨h.pairs, ?_, h.stored, h.cross, h.plain, ?_, ?_, ?_, ?_⟩
  · exact fun event hevent => ⟨List.mem_cons_of_mem _ (h.known event hevent).1,
      (h.known event hevent).2⟩
  · exact fun storage row hother => by cases hother
  · exact fun other row hother => by cases hother
  · rintro _ ⟨⟩
    exact hunopened.reportThread
  · intro after hafter
    obtain rfl := Option.some.inj hafter
    refine ⟨⟨?_, ?_⟩, ⟨_, Table.find_insert_self, ?_⟩, ?_, ?_⟩
    · intro event hevent
      rw [hunopened.reportQueue] at hevent
      cases hevent
    · intro reporter hreporter
      rw [hunopened.reportThread] at hreporter
      cases hreporter
    · -- nothing has the new session yet
      refine ⟨UInt64.le_refl _, Or.inl rfl, ?_, ?_, ?_⟩
      · intro event hevent hcounted
        have hsession : event.session = uuid := hcounted.1
        exact absurd (hsession ▸ hsound.stored event hevent) hnew
      · intro event hevent hcounted
        have hsession : event.session = uuid := hcounted.1
        exact absurd (hsession ▸ (h.known event hevent).1) hnew
      · intro running hrunning
        rw [hunopened.handler] at hrunning
        cases hrunning
    · intro events reports now hasHeatBeats hposting
      rw [hunopened.reportThread] at hposting
      cases hposting
    · intro hstamping
      rw [Statistics.stamping, hunopened.handler] at hstamping
      cases hstamping

theorem Sound.finishInit (h : deliveries.Sound) (hsound : deliveries.device.Sound)
    {statistics configured : Statistics} {now : UInt64}
    (hprocess : deliveries.device.process = .opened statistics)
    (hhistory : statistics.initHistory now = some configured) :
    ({ deliveries with device := { deliveries.device with
        process := .running configured.initReportThread.initRequest
        clock := now } } : Deliveries).Sound := by
  have hlive := Device.live_of_opened hprocess
  obtain ⟨config, queue, thread, terminated, heq, hthread, hqueue⟩ :=
    Statistics.finishInit_cases hhistory
  have hbefore := h.live statistics hlive
  have hnone := h.opened statistics hprocess
  rw [hnone] at hthread
  rw [heq]
  refine ⟨h.pairs, h.known, h.stored, h.cross, h.plain, ?_, ?_, ?_, ?_⟩
  · exact fun storage row hother => by cases hother
  · exact fun other row hother => by cases hother
  · exact fun other hother => by cases hother
  · intro after hafter
    obtain rfl := Option.some.inj hafter
    refine ⟨⟨?_, ?_⟩, ?_, ?_, hbefore.stamped⟩
    · intro event hevent
      rcases hqueue event hevent with hold | hrow
      · exact hbefore.carries.queue event hold
      · rw [← Device.storage_of_live hlive] at hrow
        have hstored := hsound.mem_stored_of_getEvents hrow
        exact ⟨fun haction => absurd haction (h.plain event hstored).2, fun _ => hstored⟩
    · intro reporter hreporter event hevent
      rcases hthread with hthread | hthread
      · cases hthread.symm.trans hreporter
      · obtain rfl := Option.some.inj (hthread.symm.trans hreporter)
        rcases hevent with hevent | hevent <;> cases hevent
    · refine hbefore.spans.congr rfl rfl rfl rfl ?_
      rw [Statistics.unsavedBeat, Statistics.unsavedBeat, hnone]
      rcases hthread with hthread | hthread <;> rw [hthread]
    · intro events reports now' hasHeatBeats hposting
      rcases hthread with hthread | hthread <;> cases hthread.symm.trans hposting

theorem Sound.crash (h : deliveries.Sound) (hsound : deliveries.device.Sound)
    {statistics : Statistics} {deleted : Nat}
    (hprocess : deliveries.device.process.statistics = some statistics)
    (hcalm : deliveries.undisturbed (.crash deleted) = true) :
    ({ deliveries with device := { deliveries.device with
        process := .off (statistics.left deleted) } } : Deliveries).Sound := by
  refine ⟨h.pairs, h.known, h.stored, h.cross, h.plain, ?_, ?_, ?_, ?_⟩
  · intro storage row hoff hrow
    obtain rfl := Process.off.inj hoff
    rw [statistics.left_sessions deleted] at hrow
    have hopen : deliveries.device.process.live = some statistics →
        statistics.unsavedBeat = none →
        SessionClosed deliveries.device.stored deliveries.delivered row := by
      intro hlive hunsaved
      have hregistered := (hsound.live statistics hlive).1
      obtain ⟨found, hfound, hspans⟩ := (h.live statistics hlive).spans
      obtain ⟨own, hown, hsession⟩ := hregistered.row
      obtain rfl := Option.some.inj (hown.symm.trans hfound)
      rw [hregistered.id, hrow] at hown
      obtain rfl := Option.some.inj hown
      rw [← hsession] at hspans
      refine ⟨fun event hevent hcounted => ?_,
        fun event hevent hcounted => Or.inl (hspans.stored_le event hevent hcounted)⟩
      rcases hspans.delivered_le event hevent hcounted with hle | ⟨beat, hbeat, _⟩
      · exact hle
      · rw [hunsaved] at hbeat
        cases hbeat
    rcases hcase : deliveries.device.process with _ | ended | opened | running
    · rw [hcase] at hprocess
      cases hprocess
    · rw [hcase] at hprocess
      obtain rfl := Option.some.inj hprocess
      exact h.ended ended row hcase hrow
    · rw [hcase] at hprocess
      obtain rfl := Option.some.inj hprocess
      refine hopen (by rw [hcase]; rfl) ?_
      rw [Statistics.unsavedBeat, h.opened opened hcase]
    · rw [hcase] at hprocess
      obtain rfl := Option.some.inj hprocess
      refine hopen (by rw [hcase]; rfl) ?_
      simp only [undisturbed, hcase, decide_eq_true_eq] at hcalm
      exact hcalm
  · exact fun other row hother => by cases hother
  · exact fun other hother => by cases hother
  · exact fun other hother => by cases hother

/-- What a step of a running process stores is separate from everything before it. -/
theorem Sound.storedBy (h : deliveries.Sound) (hsound : deliveries.device.Sound)
    {statistics after : Statistics} {op : Statistics.Op}
    (hprocess : deliveries.device.process = .running statistics)
    (hmoved : statistics.Moved op after) :
    statistics.storedBy op = [] ∨ ∃ event, statistics.storedBy op = [event]
      ∧ event.id ≠ 0 ∧ event.action ≠ .heatBeat
      ∧ (∀ other ∈ deliveries.device.stored, other.Separate event)
      ∧ ∀ other ∈ deliveries.delivered, other.Separate event := by
  have hlive := Device.live_of_running hprocess
  have hown := (hsound.live statistics hlive).2
  obtain ⟨row, _, hspans⟩ := (h.live statistics hlive).spans
  rcases hmoved.rows with ⟨event, todo, rfl, hhandler, _⟩ | ⟨hnothing, _⟩
  · refine Or.inr ⟨(statistics.persistence.addOrMergeEvent event).1, ?_, ?_, ?_, ?_, ?_⟩
    · simp only [Statistics.storedBy, hhandler]
    · exact addOrMergeEvent_id_ne_zero _ _
    all_goals obtain ⟨id, heq⟩ := Statistics.exists_id_addOrMergeEvent statistics.persistence event
    · rw [heq]
      exact (hown _ hhandler).2.2
    · intro other hother
      rw [heq]
      refine DurEvent.separate_of_apart fun hsession hlast hlast' => Or.inl ?_
      exact ((hspans.handler _ hhandler).fresh hlast' List.mem_cons_self).1 other hother
        ⟨hsession.trans (hown _ hhandler).1, hlast⟩
    · intro other hother
      rw [heq]
      refine DurEvent.separate_of_apart fun hsession hlast hlast' => ?_
      exact ((hspans.handler _ hhandler).fresh hlast' List.mem_cons_self).2 other hother
        ⟨hsession.trans (hown _ hhandler).1, hlast⟩
  · exact Or.inl hnothing

/-- What a successful POST delivers is separate from everything before it. -/
theorem Sound.deliveredBy (h : deliveries.Sound) (hsound : deliveries.device.Sound)
    {statistics : Statistics} {op : Statistics.Op}
    (hprocess : deliveries.device.process = .running statistics)
    (hcalm : ∀ input, op = .reporter input → statistics.postsBeat = true →
      input.answer = .success → deliveries.stamped = false) :
    (∀ event ∈ statistics.deliveredBy op, event.session ∈ deliveries.device.uuids
        ∧ (event.action ≠ .heatBeat → event ∈ deliveries.device.stored))
      ∧ (∀ event ∈ statistics.deliveredBy op, ∀ other ∈ deliveries.device.stored,
        event.Separate other)
      ∧ (∀ other ∈ deliveries.delivered, ∀ event ∈ statistics.deliveredBy op,
        other.Separate event)
      ∧ (statistics.deliveredBy op).Pairwise DurEvent.Separate := by
  have hlive := Device.live_of_running hprocess
  have hbefore := h.live statistics hlive
  unfold Statistics.deliveredBy
  split
  · rename_i input
    split
    · rename_i events reports now hasHeatBeats hthread
      split
      · rename_i hsuccess
        have hflight := hbefore.flight events reports now hasHeatBeats hthread
        have hknown := fun event hevent => hbefore.carries.batch _ hthread event (Or.inr hevent)
        have hin : ∀ beat ∈ reports, beat.action = .heatBeat →
            InFlight deliveries.device.stored deliveries.delivered statistics.gameSession
              statistics.handler reports now := by
          intro beat hbeat haction
          refine hflight.inFlight (hcalm input rfl ?_ hsuccess)
          rw [Statistics.postsBeat, hthread]
          exact hflight.flagged beat hbeat haction
        have hmine : ∀ beat ∈ reports, beat.action = .heatBeat →
            ∀ other ∈ deliveries.device.stored, other.Separate beat := by
          intro beat hbeat haction other hother
          refine DurEvent.separate_of_apart fun hsession hlast _ => Or.inl ?_
          exact (hin beat hbeat haction).stored_le beat hbeat haction other hother
            ⟨hsession.trans ((hknown beat hbeat).1 haction), hlast⟩
        refine ⟨?_, ?_, ?_, ?_⟩
        · intro event hevent
          refine ⟨?_, (hknown event hevent).2⟩
          by_cases haction : event.action = .heatBeat
          · obtain ⟨row, hrow, hsession⟩ := (hsound.live statistics hlive).1.row
            have hsessions := hsound.sessions
            rw [Device.storage_of_live hlive] at hsessions
            rw [(hknown event hevent).1 haction, ← hsession]
            exact hsessions.known _ row hrow
          · exact hsound.stored event ((hknown event hevent).2 haction)
        · intro event hevent other hother
          by_cases haction : event.action = .heatBeat
          · exact (hmine event hevent haction other hother).symm
          · exact h.stored event ((hknown event hevent).2 haction) other hother
        · intro other hother event hevent
          by_cases haction : event.action = .heatBeat
          · refine DurEvent.separate_of_apart fun hsession hlast _ => Or.inl ?_
            exact (hin event hevent haction).delivered_le event hevent haction other hother
              ⟨hsession.trans ((hknown event hevent).1 haction), hlast⟩
          · exact h.cross other hother event ((hknown event hevent).2 haction)
        · refine hflight.single.imp_of_mem fun {first second} hfirst hsecond hpair => ?_
          by_cases haction : first.action = .heatBeat
          · have hother : second.action ≠ .heatBeat := fun hboth => hpair ⟨haction, hboth⟩
            exact (hmine first hfirst haction second ((hknown second hsecond).2 hother)).symm
          · by_cases haction' : second.action = .heatBeat
            · exact hmine second hsecond haction' first ((hknown first hfirst).2 haction)
            · exact h.stored first ((hknown first hfirst).2 haction) second
                ((hknown second hsecond).2 haction')
      · simp
    · simp
  · simp

theorem Sound.run (h : deliveries.Sound) (hsound : deliveries.device.Sound)
    (htimed : deliveries.device.Timed) {statistics after : Statistics} {op : Statistics.Op}
    (hprocess : deliveries.device.process = .running statistics)
    (hadmits : deliveries.device.admits op = true)
    (hcalm : deliveries.undisturbed (.run op) = true) (hmoved : statistics.Moved op after) :
    ({ device := deliveries.device.run statistics op after
       delivered := deliveries.delivered ++ statistics.deliveredBy op
       stamped := (!statistics.builds op && deliveries.stamped) || after.stamping } :
      Deliveries).Sound := by
  have hlive := Device.live_of_running hprocess
  obtain ⟨hregistered, hown⟩ := hsound.live statistics hlive
  have hanswer : ∀ input, op = .reporter input → statistics.postsBeat = true →
      input.answer = .success → deliveries.stamped = false := by
    rintro input rfl
    simp only [undisturbed, hprocess, decide_eq_true_eq] at hcalm
    exact hcalm
  have hdisturbs : statistics.disturbs op = true → statistics.unsavedBeat = none := by
    cases op with
    | reporter input => exact fun hdisturbs => by cases hdisturbs
    | _ =>
        simp only [undisturbed, hprocess, decide_eq_true_eq] at hcalm
        exact hcalm
  obtain ⟨hknown, hold, hnew, hpairs⟩ := h.deliveredBy hsound hprocess hanswer
  have hlast := (h.live statistics hlive).step hregistered.id_ne_zero hown hmoved hdisturbs hanswer
    fun now hreading hlocked => UInt64.le_trans (htimed.session statistics hlive)
      (Device.clock_le_of_admits hadmits hlocked hreading)
  refine ⟨?_, ?_, ?_, ?_, ?_, ?_, ?_, ?_, ?_⟩
  · exact List.pairwise_append.mpr ⟨h.pairs, hpairs, hnew⟩
  · intro event hevent
    rcases List.mem_append.mp hevent with hevent | hevent
    · exact ⟨(h.known event hevent).1,
        fun haction => List.mem_append_left _ ((h.known event hevent).2 haction)⟩
    · exact ⟨(hknown event hevent).1,
        fun haction => List.mem_append_left _ ((hknown event hevent).2 haction)⟩
  · simp only [Device.run]
    rcases h.storedBy hsound hprocess hmoved with hnothing | ⟨event, hstored, hid, _, hseparate, _⟩
    · rw [hnothing, List.append_nil]
      exact h.stored
    · rw [hstored]
      exact h.concat hid hseparate
  · intro event hevent other hother
    simp only [Device.run] at hother
    rcases h.storedBy hsound hprocess hmoved with hnothing | ⟨stored, hstored, _, _, hmine, hmine'⟩
    · rw [hnothing, List.append_nil] at hother
      rcases List.mem_append.mp hevent with hevent | hevent
      · exact h.cross event hevent other hother
      · exact hold event hevent other hother
    · -- a step does not both store and deliver
      have hnone : statistics.deliveredBy op = [] := by
        cases op <;> first | rfl | cases hstored
      rw [hnone, List.append_nil] at hevent
      rw [hstored] at hother
      rcases List.mem_append.mp hother with hother | hother
      · exact h.cross event hevent other hother
      · rw [List.mem_singleton.mp hother]
        exact hmine' event hevent
  · intro event hevent
    rcases List.mem_append.mp hevent with hevent | hevent
    · exact h.plain event hevent
    · rcases h.storedBy hsound hprocess hmoved with hnothing | ⟨stored, hstored, hid, haction, _, _⟩
      · rw [hnothing] at hevent
        cases hevent
      · rw [hstored] at hevent
        rw [List.mem_singleton.mp hevent]
        exact ⟨hid, haction⟩
  · exact fun storage row hother => by cases hother
  · exact fun other row hother => by cases hother
  · exact fun other hother => by cases hother
  · intro other hother
    obtain rfl := Option.some.inj hother
    exact hlast

theorem Sound.step (h : deliveries.Sound) (hsound : deliveries.device.Sound)
    (htimed : deliveries.device.Timed) (honce : deliveries.device.EndsOnce)
    (hcalm : deliveries.undisturbed op = true) (hstep : deliveries.step op = some next) :
    next.Sound := by
  obtain ⟨device, hdevice, rfl⟩ := Option.map_eq_some_iff.mp hstep
  cases Device.moved_of_step hdevice with
  | launch hprocess => exact h.launch hsound _ hprocess (honce.launch hsound _ hprocess)
  | openSession hprocess hnew => exact h.openSession hsound hprocess hnew
  | finishInit hprocess _ hhistory => exact h.finishInit hsound hprocess hhistory
  | run hprocess hadmits hmoved =>
      simp only [record, hprocess, Device.run]
      exact h.run hsound htimed hprocess hadmits hcalm hmoved
  | crash hprocess => exact h.crash hsound hprocess hcalm

/-- **Reported time is not counted twice.** Any two deliveries are of one stored event, or their
intervals do not overlap. -/
theorem delivered_intervals_disjoint
    (hreach : system.Reaches (fun deliveries op => deliveries.undisturbed op = true) deliveries) :
    deliveries.delivered.Pairwise fun event other => event.session = other.session →
      event.lastTimestamp ≠ 0 → other.lastTimestamp ≠ 0 →
      event.Same other ∨ ¬ event.Overlaps other := by
  have hall : deliveries.device.Sound ∧ deliveries.device.Timed ∧ deliveries.device.EndsOnce
      ∧ deliveries.Sound := by
    refine hreach.invariant (fun deliveries => deliveries.device.Sound ∧ deliveries.device.Timed
      ∧ deliveries.device.EndsOnce ∧ deliveries.Sound) ?_ ?_
    · rintro _ rfl
      exact ⟨Device.sound_start, Device.timed_of_not_live rfl, Device.endsOnce_start, sound_start⟩
    · rintro state label after ⟨hsound, htimed, honce, hdelivered⟩ hcalm hstep
      have hafter := hdelivered.step hsound htimed honce hcalm hstep
      obtain ⟨device, hdevice, rfl⟩ := Option.map_eq_some_iff.mp hstep
      have hmoved := Device.moved_of_step hdevice
      have hrecord : (state.record device label).device = device := by
        unfold record
        repeat' split
        all_goals rfl
      refine ⟨?_, ?_, ?_, hafter⟩ <;> rw [hrecord]
      · exact hsound.step hmoved
      · exact htimed.step hsound hmoved
      · exact honce.step hsound hmoved
  refine hall.2.2.2.pairs.imp fun hseparate hsession hlast hlast' => ?_
  exact (hseparate hsession hlast hlast').imp_right DurEvent.Apart.not_overlaps

def backgroundOps (now : UInt64) : List Device.Op :=
  .run (.onBackground now) :: List.replicate 4 (.run .handler)

/-- A game with a heartbeat in the queue. -/
def beatQueued : List Device.Op :=
  Device.launchOps [117] 300000 ++ Device.gameOps 301000 ++ [.run (.onlineHeatBeat 450000)]

/-- The heartbeat is delivered and its time saved before the game goes to the background. -/
def beatThenBackground : List Device.Op :=
  beatQueued ++ Device.reporterOps 450001 7 ++ backgroundOps 451000 ++ Device.reporterOps 451001 4

theorem delivered_intervals_disjoint_beatThenBackground : ∃ deliveries : Deliveries,
    deliveries.delivered.map (fun event => (event.action, event.lastTimestamp, event.timestamp))
        = [(.gameStart, 0, 301000), (.heatBeat, 301000, 450001), (.gameBackground, 450001, 451000)]
      ∧ deliveries.delivered.Pairwise fun event other => event.session = other.session →
        event.lastTimestamp ≠ 0 → other.lastTimestamp ≠ 0 →
        event.Same other ∨ ¬ event.Overlaps other := by
  have hrun : ((system.guarded (fun deliveries op => deliveries.undisturbed op = true)
      beatThenBackground start).any fun deliveries =>
        deliveries.delivered.map (fun event => (event.action, event.lastTimestamp, event.timestamp))
          = [(.gameStart, 0, 301000), (.heatBeat, 301000, 450001),
            (.gameBackground, 450001, 451000)]) = true := by decide +kernel
  obtain ⟨deliveries, hlast, hseen⟩ := (Option.any_eq_true _ _).mp hrun
  exact ⟨deliveries, of_decide_eq_true hseen,
    delivered_intervals_disjoint (System.Reaches.guarded (.init rfl) hlast)⟩

/-- The game goes to the background while the POST with the heartbeat is in flight. -/
def backgroundInFlight : List Device.Op :=
  beatQueued ++ Device.reporterOps 450001 3 ++ backgroundOps 450500 ++ Device.reporterOps 450501 8

theorem reachable_of_run {deliveries : Deliveries} {ops : List Device.Op}
    (hrun : ops.foldlM step start = some deliveries) : system.Reachable deliveries :=
  System.Reaches.foldlM (fun _ _ _ => trivial) (.init rfl) hrun

/-- **The time before the heartbeat is delivered a second time, with the next event.** -/
theorem delivered_intervals_overlap : ∃ deliveries : Deliveries, system.Reachable deliveries
    ∧ ∃ event other, deliveries.delivered[1]? = some event ∧ deliveries.delivered[2]? = some other
      ∧ event.session = other.session ∧ event.lastTimestamp ≠ 0 ∧ other.lastTimestamp ≠ 0
      ∧ ¬ event.Same other ∧ event.Overlaps other := by
  have hrun : ((backgroundInFlight.foldlM step start).any fun (deliveries : Deliveries) =>
      deliveries.delivered[1]?.any fun (event : DurEvent) =>
        deliveries.delivered[2]?.any fun (other : DurEvent) =>
          event.session = other.session ∧ event.lastTimestamp ≠ 0 ∧ other.lastTimestamp ≠ 0
            ∧ event.action ≠ other.action
            ∧ (event.lastTimestamp < 400000 ∧ 400000 ≤ event.timestamp)
            ∧ other.lastTimestamp < 400000 ∧ 400000 ≤ other.timestamp) = true := by decide +kernel
  obtain ⟨deliveries, hlast, hseen⟩ := (Option.any_eq_true _ _).mp hrun
  obtain ⟨event, hevent, hseen⟩ := (Option.any_eq_true _ _).mp hseen
  obtain ⟨other, hother, hseen⟩ := (Option.any_eq_true _ _).mp hseen
  obtain ⟨hsession, hbegin, hbegin', haction, hcovers, hcovers'⟩ := of_decide_eq_true hseen
  refine ⟨deliveries, reachable_of_run hlast, event, other, hevent, hother, hsession, hbegin,
    hbegin', fun hsame => ?_, 400000, hcovers, hcovers'⟩
  exact haction (by rw [hsame.2])

end Deliveries

end TapSdk.Duration
