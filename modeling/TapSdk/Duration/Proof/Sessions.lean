import TapSdk.Duration.Proof.Launches

/-!
# Every session ends once

A crash between the `GAME_END` of the old session and the row of the new one makes the next launch
end the same session again. It merges then: nothing was stored in between, so the `GAME_END` is the
newest event.
-/

namespace TapSdk.Duration

open Library

/-! ### The tables -/

/-- The rows are the sessions of different launches, and the newest one is there. -/
structure SessionTable (uuids : List Str) (table : Table GameSession) : Prop where
  known : ∀ id row, table.find id = some row → row.session ∈ uuids
  distinct : ∀ id other row row', table.find id = some row → table.find other = some row' →
    row.session = row'.session → id = other
  newest : 0 < table.sequence → ∃ row, table.find table.sequence = some row

namespace SessionTable

variable {uuids : List Str} {table : Table GameSession} {id : Nat} {row old : GameSession}

theorem update (h : SessionTable uuids table) (hold : table.find id = some old)
    (hsession : row.session = old.session) : SessionTable uuids (table.update id row) := by
  -- every row of the new table has the session of the old row with its id
  have hbefore : ∀ other found, (table.update id row).find other = some found →
      ∃ before, table.find other = some before ∧ before.session = found.session := by
    intro other found hfound
    by_cases hsame : other = id
    · subst hsame
      rw [Table.find_update_self hold] at hfound
      obtain rfl := Option.some.inj hfound
      exact ⟨old, hold, hsession.symm⟩
    · rw [Table.find_update_of_ne hsame] at hfound
      exact ⟨found, hfound, rfl⟩
  refine ⟨?_, ?_, ?_⟩
  · intro other found hfound
    obtain ⟨before, hfind, hsame⟩ := hbefore other found hfound
    rw [← hsame]
    exact h.known other before hfind
  · intro first second found found' hfound hfound' hequal
    obtain ⟨before, hfind, hsame⟩ := hbefore first found hfound
    obtain ⟨before', hfind', hsame'⟩ := hbefore second found' hfound'
    exact h.distinct first second before before' hfind hfind' (by rw [hsame, hsame', hequal])
  · intro hpos
    obtain ⟨newest, hnewest⟩ := h.newest hpos
    by_cases hsame : table.sequence = id
    · exact ⟨row, by subst hsame; exact Table.find_update_self hold⟩
    · exact ⟨newest, (Table.find_update_of_ne hsame).trans hnewest⟩

theorem of_latest (h : SessionTable uuids table) (hlatest : table.latest = some (id, row)) :
    id = table.sequence ∧ table.find table.sequence = some row := by
  obtain ⟨hpos, hle⟩ := table.bounded id row (Table.find_of_latest hlatest)
  obtain ⟨newest, hnewest⟩ := h.newest (Nat.lt_of_lt_of_le hpos hle)
  obtain ⟨rfl, rfl⟩ := Prod.mk.inj (Option.some.inj
    (hlatest.symm.trans (Table.latest_of_find_sequence hnewest)))
  exact ⟨rfl, hnewest⟩

theorem insert {uuid : Str} {make : Nat → GameSession} (h : SessionTable uuids table)
    (hnew : uuid ∉ uuids) (hmake : ∀ id, (make id).session = uuid) :
    SessionTable (uuid :: uuids) (table.insert make) := by
  have hcases : ∀ other found, (table.insert make).find other = some found →
      (other = table.sequence + 1 ∧ found.session = uuid)
        ∨ (table.find other = some found ∧ found.session ∈ uuids) := by
    intro other found hfound
    by_cases hsame : other = table.sequence + 1
    · subst hsame
      rw [Table.find_insert_self] at hfound
      obtain rfl := Option.some.inj hfound
      exact Or.inl ⟨rfl, hmake _⟩
    · rw [Table.find_insert_of_ne hsame] at hfound
      exact Or.inr ⟨hfound, h.known other found hfound⟩
  refine ⟨?_, ?_, fun _ => ⟨_, Table.find_insert_self⟩⟩
  · intro other found hfound
    rcases hcases other found hfound with ⟨_, hsession⟩ | ⟨_, hsession⟩
    · rw [hsession]
      exact List.mem_cons_self
    · exact List.mem_cons_of_mem _ hsession
  · intro first second found found' hfound hfound' hequal
    rcases hcases first found hfound with ⟨hfirst, hsession⟩ | ⟨hfind, hsession⟩ <;>
      rcases hcases second found' hfound' with ⟨hsecond, hsession'⟩ | ⟨hfind', hsession'⟩
    · rw [hfirst, hsecond]
    · rw [← hequal, hsession] at hsession'
      exact absurd hsession' hnew
    · rw [hequal, hsession'] at hsession
      exact absurd hsession hnew
    · exact h.distinct first second found found' hfind hfind' hequal

end SessionTable

theorem find_addOrMergeEvent {storage : DurPersistence} {event row : DurEvent} {id : Nat}
    (h : (storage.addOrMergeEvent event).2.events.find id = some row) :
    (row = (storage.addOrMergeEvent event).1 ∧ row.id = id)
      ∨ storage.events.find id = some row := by
  rcases addOrMergeEvent_cases storage event with hinsert | ⟨merged, old, hold, _, _, hmerge⟩
  · rw [hinsert] at h ⊢
    by_cases hsame : id = storage.events.sequence + 1
    · subst hsame
      rw [DurPersistence.insertEvent, Table.find_insert_self] at h
      obtain rfl := Option.some.inj h
      exact Or.inl ⟨rfl, rfl⟩
    · rw [DurPersistence.insertEvent, Table.find_insert_of_ne hsame] at h
      exact Or.inr h
  · rw [hmerge] at h ⊢
    by_cases hsame : id = merged
    · subst hsame
      rw [Table.find_update_self hold] at h
      obtain rfl := Option.some.inj h
      exact Or.inl ⟨rfl, rfl⟩
    · rw [Table.find_update_of_ne hsame] at h
      exact Or.inr h

/-- What `AddOrMergeEvent` has stored is the newest row. -/
theorem latest_addOrMergeEvent (storage : DurPersistence) (event : DurEvent) :
    (storage.addOrMergeEvent event).2.events.latest
      = some ((storage.addOrMergeEvent event).1.id, (storage.addOrMergeEvent event).1) := by
  unfold DurPersistence.addOrMergeEvent
  split
  · rename_i id old hlatest
    split
    · exact Table.latest_update hlatest
    · exact Table.latest_insert
  · exact Table.latest_insert

/-! ### The start of a launch -/

namespace Statistics

variable {statistics next : Statistics}

/-- Before the session has its row. -/
structure Unopened (statistics : Statistics) : Prop where
  localSession : statistics.localSession = GameSession.default
  handler : statistics.handler = none
  reportThread : statistics.reportThread = none
  reportQueue : statistics.reportQueue.queue = []
  game : statistics.gameId = [] ∧ statistics.gamePkg = []

theorem unopened_endSession (storage : DurPersistence) (deviceId : Str) :
    (construct storage deviceId).endSession.Unopened := by
  unfold endSession
  split <;> exact ⟨rfl, rfl, rfl, rfl, rfl, rfl⟩

def newSession (uuid : Str) (id : Nat) : GameSession :=
  { GameSession.default with id := id, session := uuid }

theorem Unopened.openSession (h : statistics.Unopened) (uuid : Str) :
    statistics.openSession uuid = { statistics with
      gameSession := uuid
      localSession := newSession uuid (statistics.persistence.sessions.sequence + 1)
      persistence := { statistics.persistence with
        sessions := statistics.persistence.sessions.insert (newSession uuid) } } := by
  simp only [Statistics.openSession, saveSession, DurPersistence.updateSession, h.localSession]
  rfl

/-- The rest of `Init` fills the queue with stored events and may start the thread. -/
theorem finishInit_cases {configured : Statistics} {now : UInt64}
    (h : statistics.initHistory now = some configured) : ∃ config queue thread terminated,
      configured.initReportThread.initRequest = { statistics with
        reportConfig := config, reportQueue := queue, running := true, reportThread := thread
        terminated := terminated }
      ∧ (thread = statistics.reportThread ∨ thread = some .loop)
      ∧ ∀ event ∈ queue.queue,
        event ∈ statistics.reportQueue.queue ∨ event ∈ statistics.persistence.getEvents := by
  have hstarted : ∀ (config : ReportConfig) (queue : BlockingQueue DurEvent), ∃ thread terminated,
      initRequest
        (initReportThread { statistics with reportConfig := config, reportQueue := queue })
        = { statistics with reportConfig := config, reportQueue := queue, running := true
                            reportThread := thread, terminated := terminated }
      ∧ (thread = statistics.reportThread ∨ thread = some .loop) := by
    intro config queue
    simp only [initReportThread, initRequest]
    split
    · exact ⟨_, _, rfl, Or.inl rfl⟩
    · split
      · exact ⟨_, _, rfl, Or.inl rfl⟩
      · exact ⟨_, _, rfl, Or.inr rfl⟩
  obtain ⟨config, queue, rfl, hqueue⟩ : ∃ config queue,
      configured = { statistics with reportConfig := config, reportQueue := queue }
      ∧ ∀ event ∈ queue.queue,
        event ∈ statistics.reportQueue.queue ∨ event ∈ statistics.persistence.getEvents := by
    have hfilled : ∀ (queue : BlockingQueue DurEvent) (keeps : DurEvent → Bool),
        statistics.reportQueue.putAll (statistics.persistence.getEvents.filter keeps) = some queue →
        ∀ event ∈ queue.queue,
          event ∈ statistics.reportQueue.queue ∨ event ∈ statistics.persistence.getEvents := by
      intro queue keeps hput event hevent
      rw [BlockingQueue.putAll_spec hput] at hevent
      rcases List.mem_append.mp hevent with hold | hnew
      · exact Or.inl hold
      · exact Or.inr (List.mem_filter.mp hnew).1
    cases hcached : statistics.persistence.getLatestConfig with
    | none =>
        simp only [initHistory, hcached] at h
        split at h
        · exact ⟨_, _, (Option.some.inj h).symm, fun _ hevent => Or.inl hevent⟩
        · obtain ⟨queue, hput, rfl⟩ := Option.map_eq_some_iff.mp h
          exact ⟨_, queue, rfl, hfilled queue _ hput⟩
    | some config =>
        simp only [initHistory, hcached, refreshConfig, Bool.false_eq_true, if_false] at h
        split at h
        · exact ⟨_, _, (Option.some.inj h).symm, fun _ hevent => Or.inl hevent⟩
        · obtain ⟨queue, hput, rfl⟩ := Option.map_eq_some_iff.mp h
          exact ⟨config, queue, rfl, hfilled queue _ hput⟩
  obtain ⟨thread, terminated, heq, hthread⟩ := hstarted config queue
  exact ⟨config, queue, thread, terminated, heq, hthread, hqueue⟩

/-- The session of the process has its row, which is the newest. -/
structure Registered (statistics : Statistics) : Prop where
  id : statistics.localSession.id = statistics.persistence.sessions.sequence
  session : statistics.localSession.session = statistics.gameSession
  row : ∃ row, statistics.persistence.sessions.find statistics.localSession.id = some row
    ∧ row.session = statistics.gameSession

theorem Registered.id_ne_zero (h : statistics.Registered) : statistics.localSession.id ≠ 0 := by
  obtain ⟨row, hrow, _⟩ := h.row
  have hpos := (Table.bounded _ _ _ hrow).1
  omega

theorem KeepsSession.registered (h : statistics.KeepsSession next)
    (hregistered : statistics.Registered) : next.Registered := by
  obtain ⟨row, hrow, hsession⟩ := hregistered.row
  refine ⟨?_, ?_, ?_⟩
  · rw [h.id, hregistered.id]
    rcases h.rows with hrows | hrows
    · rw [hrows]
    · rw [hrows]
      rfl
  · rw [h.session, h.gameSession, hregistered.session]
  · rw [h.id, h.gameSession]
    rcases h.rows with hrows | hrows
    · exact ⟨row, by rw [hrows, hrow], hsession⟩
    · exact ⟨next.localSession, by rw [hrows, Table.find_update_self hrow],
        h.session.trans hregistered.session⟩

theorem KeepsSession.sessionTable {uuids : List Str} (h : statistics.KeepsSession next)
    (hregistered : statistics.Registered)
    (htable : SessionTable uuids statistics.persistence.sessions) :
    SessionTable uuids next.persistence.sessions := by
  obtain ⟨row, hrow, hsession⟩ := hregistered.row
  rcases h.rows with hrows | hrows
  · rwa [hrows]
  · rw [hrows]
    exact htable.update hrow ((h.session.trans hregistered.session).trans hsession.symm)

/-- The event of the handler belongs to the session of the process. -/
def OwnHandler (statistics : Statistics) : Prop :=
  ∀ handler, statistics.handler = some handler →
    handler.event.session = statistics.gameSession ∧ handler.event.action ≠ .gameEnd
      ∧ handler.event.action ≠ .heatBeat

theorem Moved.ownHandler {op : Op} (h : statistics.Moved op next)
    (hid : statistics.localSession.id ≠ 0) (hown : statistics.OwnHandler) : next.OwnHandler := by
  intro handler hhandler
  rw [(h.keepsSession hid).gameSession]
  rcases h.handlerEvent hhandler with hbegun | ⟨before, hbefore, id, hevent⟩
  · obtain ⟨begun, hbegun', hsession, _, hend, hbeat, _⟩ := hbegun.event
    obtain rfl := Option.some.inj (hhandler.symm.trans hbegun')
    exact ⟨hsession, hend, hbeat⟩
  · rw [hevent]
    exact hown before hbefore

end Statistics

/-! ### What holds on every device -/

namespace Device

variable {device next : Device} {op : Op}

structure Sound (device : Device) : Prop where
  rows : ∀ id event, device.storage.events.find id = some event →
    event.id = id ∧ event ∈ device.stored
  sessions : SessionTable device.uuids device.storage.sessions
  stored : ∀ event ∈ device.stored, event.session ∈ device.uuids
  ended : ∀ statistics, device.process = .ended statistics → statistics.Unopened
  live : ∀ statistics, device.process.live = some statistics →
    statistics.Registered ∧ statistics.OwnHandler

theorem sound_start : start.Sound := by
  refine ⟨?_, ⟨?_, ?_, ?_⟩, ?_, ?_, ?_⟩
  · exact fun id event hfind => by cases hfind
  · exact fun id row hfind => by cases hfind
  · exact fun id other row row' hfind => by cases hfind
  · exact fun hpos => absurd hpos (Nat.lt_irrefl 0)
  · exact fun event hevent => by cases hevent
  · exact fun statistics hprocess => by cases hprocess
  · exact fun statistics hprocess => by cases hprocess

/-- What a launch stores, and where it leaves the storage. -/
theorem launch_cases (device : Device) (storage : DurPersistence) (deviceId : Str) :
    (storage.sessions.latest = none ∧ (device.launch storage deviceId).stored = device.stored
        ∧ (device.launch storage deviceId).storage = storage)
      ∨ ∃ id row, storage.sessions.latest = some (id, row)
        ∧ (device.launch storage deviceId).stored = device.stored ++ [(storage.addOrMergeEvent
            ((Statistics.construct storage deviceId).endEvent { row with id := id })).1]
        ∧ (device.launch storage deviceId).storage = (storage.addOrMergeEvent
            ((Statistics.construct storage deviceId).endEvent { row with id := id })).2 := by
  rcases hlatest : storage.sessions.latest with _ | ⟨id, row⟩
  · have hnone : storage.getLatestSession = none := by
      rw [DurPersistence.getLatestSession, hlatest]
      rfl
    refine Or.inl ⟨rfl, ?_, ?_⟩
    · simp only [launch, hnone, Option.map_none, Option.toList_none, List.append_nil]
    · simp only [Device.storage, launch, Process.storage, Statistics.endSession,
        Statistics.construct, hnone]
  · have hsome : storage.getLatestSession = some { row with id := id } := by
      rw [DurPersistence.getLatestSession, hlatest]
      rfl
    refine Or.inr ⟨id, row, rfl, ?_, ?_⟩
    · simp only [launch, hsome, Option.map_some, Option.toList_some]
    · simp only [Device.storage, launch, Process.storage, Statistics.endSession,
        Statistics.construct, hsome]

/-- What a launch adds to the store is the end of the newest session. -/
theorem mem_stored_launch {storage : DurPersistence} {deviceId : Str} {event : DurEvent}
    (h : event ∈ (device.launch storage deviceId).stored) :
    event ∈ device.stored ∨ ∃ id row newId, storage.sessions.latest = some (id, row)
      ∧ event = { (Statistics.construct storage deviceId).endEvent { row with id := id } with
        id := newId } := by
  rcases device.launch_cases storage deviceId with ⟨_, hstored, _⟩ | ⟨id, row, hlatest, hstored, _⟩
  · rw [hstored] at h
    exact Or.inl h
  · rw [hstored] at h
    rcases List.mem_append.mp h with hold | hnew
    · exact Or.inl hold
    · obtain ⟨newId, heq⟩ := Statistics.exists_id_addOrMergeEvent storage
        ((Statistics.construct storage deviceId).endEvent { row with id := id })
      exact Or.inr ⟨id, row, newId, hlatest, (List.mem_singleton.mp hnew).trans heq⟩

theorem storage_of_live {statistics : Statistics}
    (h : device.process.live = some statistics) : device.storage = statistics.persistence := by
  unfold Device.storage
  rcases hprocess : device.process with _ | _ | _ | _ <;> rw [hprocess] at h <;> cases h <;> rfl

theorem storage_of_statistics {statistics : Statistics}
    (h : device.process.statistics = some statistics) :
    device.storage = statistics.persistence := by
  unfold Device.storage
  rcases hprocess : device.process with _ | _ | _ | _ <;> rw [hprocess] at h <;> cases h <;> rfl

theorem live_of_running {statistics : Statistics} (h : device.process = .running statistics) :
    device.process.live = some statistics := by
  rw [h]
  rfl

theorem live_of_opened {statistics : Statistics} (h : device.process = .opened statistics) :
    device.process.live = some statistics := by
  rw [h]
  rfl

theorem storage_of_off {storage : DurPersistence} (h : device.process = .off storage) :
    device.storage = storage := by
  rw [Device.storage, h]
  rfl

theorem storage_of_ended {statistics : Statistics} (h : device.process = .ended statistics) :
    device.storage = statistics.persistence := by
  rw [Device.storage, h]
  rfl

theorem Sound.launch (h : device.Sound) {storage : DurPersistence} (deviceId : Str)
    (hprocess : device.process = .off storage) : (device.launch storage deviceId).Sound := by
  have hstorage := storage_of_off hprocess
  have hrows := h.rows
  have hsessions := h.sessions
  rw [hstorage] at hrows hsessions
  have hended : ∀ statistics, (device.launch storage deviceId).process = .ended statistics →
      statistics.Unopened := by
    intro statistics hended
    obtain rfl := Process.ended.inj hended
    exact Statistics.unopened_endSession storage deviceId
  have hlive : ∀ statistics, (device.launch storage deviceId).process.live = some statistics →
      statistics.Registered ∧ statistics.OwnHandler := fun statistics hlive => by cases hlive
  have hknown : ∀ event ∈ (device.launch storage deviceId).stored,
      event.session ∈ device.uuids := by
    intro event hevent
    rcases mem_stored_launch hevent with hold | ⟨id, row, newId, hlatest, rfl⟩
    · exact h.stored event hold
    · exact hsessions.known id row (Table.find_of_latest hlatest)
  rcases device.launch_cases storage deviceId with ⟨_, hstored, hafter⟩
    | ⟨id, row, hlatest, hstored, hafter⟩
  · refine ⟨?_, ?_, hknown, hended, hlive⟩
    · rw [hafter, hstored]
      exact hrows
    · rw [hafter]
      exact hsessions
  · refine ⟨?_, ?_, hknown, hended, hlive⟩
    · rw [hafter, hstored]
      intro other event hfind
      rcases find_addOrMergeEvent hfind with ⟨hnew, hid⟩ | hold
      · exact ⟨hid, List.mem_append_right _ (List.mem_singleton.mpr hnew)⟩
      · exact ⟨(hrows other event hold).1, List.mem_append_left _ (hrows other event hold).2⟩
    · rw [hafter, Statistics.addOrMergeEvent_sessions]
      exact hsessions

theorem Sound.openSession (h : device.Sound) {statistics : Statistics} {uuid : Str}
    (hprocess : device.process = .ended statistics) (hnew : uuid ∉ device.uuids) :
    ({ device with process := .opened (statistics.openSession uuid)
                   uuids := uuid :: device.uuids } : Device).Sound := by
  have hstorage := storage_of_ended hprocess
  have hrows := h.rows
  have hsessions := h.sessions
  rw [hstorage] at hrows hsessions
  have hunopened := h.ended statistics hprocess
  have hinserted : SessionTable (uuid :: device.uuids)
      (statistics.persistence.sessions.insert (Statistics.newSession uuid)) :=
    hsessions.insert hnew fun _ => rfl
  rw [hunopened.openSession]
  refine ⟨hrows, hinserted, ?_, ?_, ?_⟩
  · exact fun event hevent => List.mem_cons_of_mem _ (h.stored event hevent)
  · exact fun after hafter => by cases hafter
  · intro after hafter
    obtain rfl := Option.some.inj hafter
    refine ⟨⟨rfl, rfl, ⟨_, Table.find_insert_self, rfl⟩⟩, fun handler hhandler => ?_⟩
    rw [hunopened.handler] at hhandler
    cases hhandler

theorem Sound.finishInit (h : device.Sound) {statistics configured : Statistics} {now : UInt64}
    (hprocess : device.process = .opened statistics)
    (hhistory : statistics.initHistory now = some configured) :
    ({ device with process := .running configured.initReportThread.initRequest
                   clock := now } : Device).Sound := by
  have hlive := live_of_opened hprocess
  have hrows := h.rows
  have hsessions := h.sessions
  rw [storage_of_live hlive] at hrows hsessions
  obtain ⟨hregistered, hown⟩ := h.live statistics hlive
  obtain ⟨config, queue, thread, terminated, heq, _, _⟩ := Statistics.finishInit_cases hhistory
  rw [heq]
  refine ⟨hrows, hsessions, h.stored, ?_, ?_⟩
  · exact fun after hafter => by cases hafter
  · intro after hafter
    obtain rfl := Option.some.inj hafter
    exact ⟨⟨hregistered.id, hregistered.session, hregistered.row⟩, hown⟩

theorem Sound.run (h : device.Sound) {statistics after : Statistics} {op : Statistics.Op}
    (hprocess : device.process = .running statistics) (hmoved : statistics.Moved op after) :
    (device.run statistics op after).Sound := by
  have hlive := live_of_running hprocess
  have hrows := h.rows
  have hsessions := h.sessions
  rw [storage_of_live hlive] at hrows hsessions
  obtain ⟨hregistered, hown⟩ := h.live statistics hlive
  have hkeeps := hmoved.keepsSession hregistered.id_ne_zero
  have hended : ∀ other, (device.run statistics op after).process = .ended other →
      other.Unopened := fun other hother => by cases hother
  have hnext : ∀ other, (device.run statistics op after).process.live = some other →
      other.Registered ∧ other.OwnHandler := by
    intro other hother
    obtain rfl := Option.some.inj hother
    exact ⟨hkeeps.registered hregistered, hmoved.ownHandler hregistered.id_ne_zero hown⟩
  have htable := hkeeps.sessionTable hregistered hsessions
  rcases hmoved.rows with ⟨event, todo, rfl, hhandler, hevents⟩ | ⟨hnothing, hkept⟩
  · have hstored : (device.run statistics .handler after).stored
        = device.stored ++ [(statistics.persistence.addOrMergeEvent event).1] := by
      simp only [Device.run, Statistics.storedBy, hhandler]
    refine ⟨?_, htable, ?_, hended, hnext⟩
    · rw [hstored]
      intro id row hfind
      have hfind' : (statistics.persistence.addOrMergeEvent event).2.events.find id = some row :=
        hevents ▸ hfind
      rcases find_addOrMergeEvent hfind' with ⟨hnew, hid⟩ | hold
      · exact ⟨hid, List.mem_append_right _ (List.mem_singleton.mpr hnew)⟩
      · exact ⟨(hrows id row hold).1, List.mem_append_left _ (hrows id row hold).2⟩
    · rw [hstored]
      intro other hother
      rcases List.mem_append.mp hother with hold | hnew
      · exact h.stored other hold
      · obtain ⟨newId, heq⟩ := Statistics.exists_id_addOrMergeEvent statistics.persistence event
        obtain ⟨row, hrow, hsession⟩ := hregistered.row
        rw [List.mem_singleton.mp hnew, heq]
        exact (hown _ hhandler).1 ▸ hsession ▸ hsessions.known _ row hrow
  · have hstored : (device.run statistics op after).stored = device.stored := by
      simp only [Device.run, hnothing, List.append_nil]
    refine ⟨?_, htable, ?_, hended, hnext⟩
    · rw [hstored]
      exact fun id row hfind => hrows id row (hkept id row hfind)
    · rw [hstored]
      exact h.stored

theorem Sound.crash (h : device.Sound) {statistics : Statistics}
    (hprocess : device.process.statistics = some statistics) (deleted : Nat) :
    ({ device with process := .off (statistics.left deleted) } : Device).Sound := by
  have hrows := h.rows
  have hsessions := h.sessions
  rw [storage_of_statistics hprocess] at hrows hsessions
  refine ⟨?_, ?_, h.stored, ?_, ?_⟩
  · exact fun id row hfind => hrows id row (statistics.keepsRows_left deleted id row hfind)
  · rw [Device.storage, Process.storage, Statistics.left_sessions]
    exact hsessions
  · exact fun after hafter => by cases hafter
  · exact fun after hafter => by cases hafter

theorem Sound.step (h : device.Sound) (hmoved : device.Moved op next) : next.Sound := by
  cases hmoved with
  | launch hprocess => exact h.launch _ hprocess
  | openSession hprocess hnew => exact h.openSession hprocess hnew
  | finishInit hprocess _ hhistory => exact h.finishInit hprocess hhistory
  | run hprocess _ hmoved => exact h.run hprocess hmoved
  | crash hprocess => exact h.crash hprocess _

end Device

/-! ### The end of a session -/

def DurEvent.Ends (event : DurEvent) (session : Str) : Prop :=
  event.action = .gameEnd ∧ event.session = session

/-- What is stored for a session after its end is its end again, in the same row. -/
def NothingAfterEnd (stored : List DurEvent) : Prop :=
  stored.Pairwise fun event later => event.action = .gameEnd → later.session = event.session →
    later.action = .gameEnd ∧ later.id = event.id

theorem NothingAfterEnd.unique {stored : List DurEvent} (h : NothingAfterEnd stored)
    {event other : DurEvent} {session : Str} (hevent : event ∈ stored) (hother : other ∈ stored)
    (hends : event.Ends session) (hends' : other.Ends session) : event.id = other.id := by
  have hpairs : stored.Pairwise fun event other =>
      event.Ends session → other.Ends session → event.id = other.id := by
    refine h.imp fun hafter hends hends' => ?_
    exact (hafter hends.1 (hends'.2.trans hends.2.symm)).2.symm
  refine hpairs.forall_of_forall_of_flip (fun _ _ _ _ => rfl) ?_ hevent hother hends hends'
  exact hpairs.imp fun hsame hends hends' => (hsame hends' hends).symm

theorem NothingAfterEnd.concat {stored : List DurEvent} (h : NothingAfterEnd stored)
    {later : DurEvent} (hlater : ∀ event ∈ stored, event.action = .gameEnd →
      later.session = event.session → later.action = .gameEnd ∧ later.id = event.id) :
    NothingAfterEnd (stored ++ [later]) := by
  refine List.pairwise_append.mpr ⟨h, List.pairwise_singleton _ _, ?_⟩
  intro event hevent other hother
  obtain rfl := List.mem_singleton.mp hother
  exact hlater event hevent

/-- The newest event ends this session. -/
def DurPersistence.EndedBy (storage : DurPersistence) (session : Str) : Prop :=
  ∃ id event, storage.events.latest = some (id, event) ∧ event.Ends session

/-- An event that ends the session again goes into the row of its end. -/
theorem DurPersistence.EndedBy.merged {storage : DurPersistence} {event : DurEvent}
    (h : storage.EndedBy event.session) (haction : event.action = .gameEnd) :
    ∃ id old, storage.events.find id = some old ∧ old.Ends event.session
      ∧ (storage.addOrMergeEvent event).1.id = id := by
  obtain ⟨id, old, hlatest, hends⟩ := h
  refine ⟨id, old, Table.find_of_latest hlatest, hends, ?_⟩
  have hmerges : event.action = old.action ∧ old.session = event.session :=
    ⟨haction.trans hends.1.symm, hends.2⟩
  simp only [addOrMergeEvent, hlatest, if_pos hmerges]

namespace Device

variable {device next : Device} {op : Op}

structure EndsOnce (device : Device) : Prop where
  after : NothingAfterEnd device.stored
  closed : ∀ id row, device.storage.sessions.find id = some row →
    id ≠ device.storage.sessions.sequence → ∃ event ∈ device.stored, event.Ends row.session
  -- The newest session has not been ended, or its end is the newest event.
  off : ∀ storage, device.process = .off storage → ∀ row,
    storage.sessions.find storage.sessions.sequence = some row →
      (∀ event ∈ device.stored, ¬ event.Ends row.session) ∨ storage.EndedBy row.session
  ended : ∀ statistics, device.process = .ended statistics → ∀ row,
    statistics.persistence.sessions.find statistics.persistence.sessions.sequence = some row →
      statistics.persistence.EndedBy row.session
  live : ∀ statistics, device.process.live = some statistics →
    ∀ event ∈ device.stored, ¬ event.Ends statistics.gameSession

theorem EndsOnce.launch (h : device.EndsOnce) (hsound : device.Sound) {storage : DurPersistence}
    (deviceId : Str) (hprocess : device.process = .off storage) :
    (device.launch storage deviceId).EndsOnce := by
  have hstorage := storage_of_off hprocess
  have hclosed := h.closed
  have hrows := hsound.rows
  have hsessions := hsound.sessions
  rw [hstorage] at hclosed hrows hsessions
  have hoff : ∀ other, (device.launch storage deviceId).process = .off other → ∀ row,
      other.sessions.find other.sessions.sequence = some row →
        (∀ event ∈ (device.launch storage deviceId).stored, ¬ event.Ends row.session)
          ∨ other.EndedBy row.session := fun other hother => by cases hother
  have hlive : ∀ statistics, (device.launch storage deviceId).process.live = some statistics →
      ∀ event ∈ (device.launch storage deviceId).stored, ¬ event.Ends statistics.gameSession :=
    fun statistics hlive => by cases hlive
  rcases device.launch_cases storage deviceId with ⟨hnone, hstored, hafter⟩
    | ⟨id, row, hlatest, hstored, hafter⟩
  · refine ⟨by rw [hstored]; exact h.after, by rw [hstored, hafter]; exact hclosed, hoff, ?_, hlive⟩
    intro statistics hended row hrow
    have hsame : statistics.persistence = storage := by
      rw [← hafter, Device.storage, hended]
      rfl
    rw [hsame] at hrow
    rw [Table.latest_of_find_sequence hrow] at hnone
    cases hnone
  · -- the newest session is ended, or ended again
    obtain ⟨rfl, hnewest⟩ := hsessions.of_latest hlatest
    obtain ⟨newId, hnew⟩ := Statistics.exists_id_addOrMergeEvent storage
      ((Statistics.construct storage deviceId).endEvent
        { row with id := storage.sessions.sequence })
    refine ⟨?_, ?_, hoff, ?_, hlive⟩
    · rw [hstored]
      refine h.after.concat fun event hevent hend hsession => ?_
      rw [hnew] at hsession
      have hends : event.Ends row.session := ⟨hend, hsession.symm⟩
      refine ⟨by rw [hnew]; rfl, ?_⟩
      rcases h.off storage hprocess row hnewest with hopen | hended
      · exact absurd hends (hopen event hevent)
      · have hmerged : storage.EndedBy ((Statistics.construct storage deviceId).endEvent
            { row with id := storage.sessions.sequence }).session := hended
        obtain ⟨old, oldEvent, hold, holdEnds, hsameId⟩ := hmerged.merged rfl
        obtain ⟨holdId, holdStored⟩ := hrows old oldEvent hold
        have hunique := h.after.unique hevent holdStored hends holdEnds
        rw [hunique, holdId, ← hsameId]
    · rw [hstored, hafter, Statistics.addOrMergeEvent_sessions]
      intro other found hfound hne
      obtain ⟨event, hevent, hends⟩ := hclosed other found hfound hne
      exact ⟨event, List.mem_append_left _ hevent, hends⟩
    · intro statistics hended found hfound
      have hsame : statistics.persistence = (storage.addOrMergeEvent
          ((Statistics.construct storage deviceId).endEvent
            { row with id := storage.sessions.sequence })).2 := by
        rw [← hafter, Device.storage, hended]
        rfl
      rw [hsame, Statistics.addOrMergeEvent_sessions, hnewest] at hfound
      obtain rfl := Option.some.inj hfound
      rw [hsame]
      exact ⟨_, _, latest_addOrMergeEvent _ _, by rw [hnew]; exact ⟨rfl, rfl⟩⟩

theorem EndsOnce.openSession (h : device.EndsOnce) (hsound : device.Sound)
    {statistics : Statistics} {uuid : Str} (hprocess : device.process = .ended statistics)
    (hnew : uuid ∉ device.uuids) :
    ({ device with process := .opened (statistics.openSession uuid)
                   uuids := uuid :: device.uuids } : Device).EndsOnce := by
  have hstorage := storage_of_ended hprocess
  have hclosed := h.closed
  have hrows := hsound.rows
  rw [hstorage] at hclosed hrows
  rw [(hsound.ended statistics hprocess).openSession]
  refine ⟨h.after, ?_, ?_, ?_, ?_⟩
  · intro id row hrow hne
    have hne' : id ≠ statistics.persistence.sessions.sequence + 1 := hne
    have hold : statistics.persistence.sessions.find id = some row :=
      (Table.find_insert_of_ne hne').symm.trans hrow
    by_cases hnewest : id = statistics.persistence.sessions.sequence
    · subst hnewest
      obtain ⟨ended, event, hlatest, hends⟩ := h.ended statistics hprocess row hold
      exact ⟨event, (hrows ended event (Table.find_of_latest hlatest)).2, hends⟩
    · exact hclosed id row hold hnewest
  · exact fun storage hstorage => by cases hstorage
  · exact fun other hother => by cases hother
  · intro other hother event hevent hends
    obtain rfl := Option.some.inj hother
    have hknown := hsound.stored event hevent
    rw [hends.2] at hknown
    exact hnew hknown

theorem EndsOnce.finishInit (h : device.EndsOnce) {statistics configured : Statistics}
    {now : UInt64} (hprocess : device.process = .opened statistics)
    (hhistory : statistics.initHistory now = some configured) :
    ({ device with process := .running configured.initReportThread.initRequest
                   clock := now } : Device).EndsOnce := by
  have hlive := live_of_opened hprocess
  have hclosed := h.closed
  rw [storage_of_live hlive] at hclosed
  obtain ⟨config, queue, thread, terminated, heq, _, _⟩ := Statistics.finishInit_cases hhistory
  rw [heq]
  refine ⟨h.after, hclosed, ?_, ?_, ?_⟩
  · exact fun storage hstorage => by cases hstorage
  · exact fun other hother => by cases hother
  · intro other hother
    obtain rfl := Option.some.inj hother
    exact h.live statistics hlive

theorem EndsOnce.run (h : device.EndsOnce) (hsound : device.Sound) {statistics after : Statistics}
    {op : Statistics.Op} (hprocess : device.process = .running statistics)
    (hmoved : statistics.Moved op after) : (device.run statistics op after).EndsOnce := by
  have hlive := live_of_running hprocess
  have hclosed := h.closed
  rw [storage_of_live hlive] at hclosed
  have hopen := h.live statistics hlive
  obtain ⟨hregistered, hown⟩ := hsound.live statistics hlive
  have hkeeps := hmoved.keepsSession hregistered.id_ne_zero
  have hregistered' := hkeeps.registered hregistered
  have hclosed' : ∀ id row, after.persistence.sessions.find id = some row →
      id ≠ after.persistence.sessions.sequence → ∃ event ∈ device.stored,
        event.Ends row.session := by
    intro id row hrow hne
    have hother : id ≠ statistics.localSession.id := by
      rw [← hkeeps.id, hregistered'.id]
      exact hne
    have hold : statistics.persistence.sessions.find id = some row := by
      rcases hkeeps.rows with hrows | hrows
      · rwa [hrows] at hrow
      · rwa [hrows, Table.find_update_of_ne hother] at hrow
    exact hclosed id row hold (hregistered.id ▸ hother)
  have hstored : device.stored ⊆ (device.run statistics op after).stored :=
    List.subset_append_left _ _
  refine ⟨?_, ?_, ?_, ?_, ?_⟩
  · rcases hmoved.rows with ⟨event, todo, rfl, hhandler, _⟩ | ⟨hnothing, _⟩
    · simp only [Device.run, Statistics.storedBy, hhandler]
      obtain ⟨id, heq⟩ := Statistics.exists_id_addOrMergeEvent statistics.persistence event
      refine h.after.concat fun earlier hearlier hend hsession => ?_
      rw [heq] at hsession
      exact absurd ⟨hend, hsession.symm.trans (hown _ hhandler).1⟩ (hopen earlier hearlier)
    · simp only [Device.run, hnothing, List.append_nil]
      exact h.after
  · intro id row hrow hne
    obtain ⟨event, hevent, hends⟩ := hclosed' id row hrow hne
    exact ⟨event, hstored hevent, hends⟩
  · exact fun storage hstorage => by cases hstorage
  · exact fun other hother => by cases hother
  · intro other hother
    obtain rfl := Option.some.inj hother
    rw [hkeeps.gameSession]
    rcases hmoved.rows with ⟨event, todo, rfl, hhandler, _⟩ | ⟨hnothing, _⟩
    · simp only [Device.run, Statistics.storedBy, hhandler]
      obtain ⟨id, heq⟩ := Statistics.exists_id_addOrMergeEvent statistics.persistence event
      intro earlier hearlier hends
      rcases List.mem_append.mp hearlier with hold | hnew
      · exact hopen earlier hold hends
      · rw [List.mem_singleton.mp hnew, heq] at hends
        exact (hown _ hhandler).2.1 hends.1
    · simp only [Device.run, hnothing, List.append_nil]
      exact hopen

theorem EndsOnce.crash (h : device.EndsOnce) (hsound : device.Sound) {statistics : Statistics}
    (hprocess : device.process.statistics = some statistics) (deleted : Nat) :
    ({ device with process := .off (statistics.left deleted) } : Device).EndsOnce := by
  have hclosed := h.closed
  rw [storage_of_statistics hprocess] at hclosed
  have hleft := statistics.left_sessions deleted
  refine ⟨h.after, ?_, ?_, ?_, ?_⟩
  · simp only [Device.storage, Process.storage, hleft]
    exact hclosed
  · intro storage hstorage row hrow
    obtain rfl := Process.off.inj hstorage
    rw [hleft] at hrow
    rcases hended : device.process with _ | ended | opened | running
    · rw [hended] at hprocess
      cases hprocess
    · -- the reporter has not started, so nothing is deleted
      rw [hended] at hprocess
      obtain rfl := Option.some.inj hprocess
      have hnothing : ended.left deleted = ended.persistence := by
        simp only [Statistics.left, (hsound.ended ended hended).reportThread]
      rw [hnothing]
      exact Or.inr (h.ended ended hended row hrow)
    all_goals
      have hlive : device.process.live = some statistics := by
        rw [hended] at hprocess ⊢
        exact hprocess
      obtain ⟨own, hown, hsession⟩ := (hsound.live statistics hlive).1.row
      rw [(hsound.live statistics hlive).1.id, hrow] at hown
      rw [Option.some.inj hown, hsession]
      exact Or.inl (h.live statistics hlive)
  · exact fun other hother => by cases hother
  · exact fun other hother => by cases hother

theorem EndsOnce.step (h : device.EndsOnce) (hsound : device.Sound)
    (hmoved : device.Moved op next) : next.EndsOnce := by
  cases hmoved with
  | launch hprocess => exact h.launch hsound _ hprocess
  | openSession hprocess hnew => exact h.openSession hsound hprocess hnew
  | finishInit hprocess _ hhistory => exact h.finishInit hprocess hhistory
  | run hprocess _ hmoved => exact h.run hsound hprocess hmoved
  | crash hprocess => exact h.crash hsound hprocess _

theorem endsOnce_start : start.EndsOnce := by
  refine ⟨List.Pairwise.nil, ?_, ?_, ?_, ?_⟩
  · exact fun id row hrow => by cases hrow
  · rintro _ ⟨⟩ row hrow
    cases hrow
  · exact fun statistics hprocess => by cases hprocess
  · exact fun statistics hprocess => by cases hprocess

theorem endsOnce_of_reaches {allowed : Device → Op → Prop}
    (hreach : system.Reaches allowed device) : device.EndsOnce := by
  have hboth : device.Sound ∧ device.EndsOnce := by
    refine hreach.invariant (fun device => device.Sound ∧ device.EndsOnce) ?_ ?_
    · rintro _ rfl
      exact ⟨sound_start, endsOnce_start⟩
    · rintro state label after ⟨hsound, honce⟩ _ hstep
      have hmoved := moved_of_step hstep
      exact ⟨hsound.step hmoved, honce.step hsound hmoved⟩
  exact hboth.2

/-- **Every session ends exactly once.** Over any launches and crashes, a session that is not the
newest has had exactly one id for its end, the newest has had at most one, and nothing but that end
is stored for a session that has ended. -/
theorem session_ends_once (hreach : system.Reachable device) :
    (∀ id row, device.storage.sessions.find id = some row →
      ((∃ newer found, id < newer ∧ device.storage.sessions.find newer = some found) →
        ∃! ended, ∃ event ∈ device.stored, event.Ends row.session ∧ event.id = ended)
      ∧ ∀ event ∈ device.stored, ∀ other ∈ device.stored,
        event.Ends row.session → other.Ends row.session → event.id = other.id)
    ∧ NothingAfterEnd device.stored := by
  have honce := endsOnce_of_reaches hreach
  refine ⟨fun id row hrow => ⟨?_, ?_⟩, honce.after⟩
  · rintro ⟨newer, found, hlt, hfound⟩
    have hne : id ≠ device.storage.sessions.sequence := by
      have hbounded := (Table.bounded _ _ _ hfound).2
      omega
    obtain ⟨event, hevent, hends⟩ := honce.closed id row hrow hne
    refine ⟨event.id, ⟨event, hevent, hends, rfl⟩, ?_⟩
    rintro _ ⟨other, hother, hends', rfl⟩
    exact honce.after.unique hother hevent hends' hends
  · exact fun event hevent other hother => honce.after.unique hevent hother

/-- A launch with this session, up to the end of `Init`. -/
def launchOps (uuid : Str) (now : UInt64) : List Op :=
  [.launch [], .openSession uuid, .finishInit now]

def gameOps (now : UInt64) : List Op :=
  .run (.gameStart [103] [112] now) :: List.replicate 4 (.run .handler)

/-- A game, a crash, and a launch that crashes before it has opened its session. -/
def endedTwice : List Op :=
  launchOps [117] 0 ++ gameOps 1000 ++ [.crash 0, .launch [], .crash 0, .launch [],
    .openSession [118]]

theorem reachable_of_run {ops : List Op} (hrun : ops.foldlM step start = some device) :
    system.Reachable device :=
  System.Reaches.foldlM (fun _ _ _ => trivial) (.init rfl) hrun

theorem session_ends_once_endedTwice : ∃ device : Device,
    device.stored.map (fun event => (event.id, event.action))
        = [(1, .gameStart), (2, .gameEnd), (2, .gameEnd)]
      ∧ ∃ row, device.storage.sessions.find 1 = some row
        ∧ ∃! ended, ∃ event ∈ device.stored, event.Ends row.session ∧ event.id = ended := by
  have hrun : ((endedTwice.foldlM step start).any fun device =>
      device.stored.map (fun event => (event.id, event.action))
          = [(1, .gameStart), (2, .gameEnd), (2, .gameEnd)]
        ∧ (device.storage.sessions.find 1).isSome ∧ (device.storage.sessions.find 2).isSome)
      = true := by decide +kernel
  obtain ⟨device, hlast, hseen⟩ := (Option.any_eq_true _ _).mp hrun
  obtain ⟨hstored, hfirst, hsecond⟩ := of_decide_eq_true hseen
  obtain ⟨row, hrow⟩ := Option.isSome_iff_exists.mp hfirst
  obtain ⟨newest, hnewest⟩ := Option.isSome_iff_exists.mp hsecond
  refine ⟨device, hstored, row, hrow, ?_⟩
  exact ((session_ends_once (reachable_of_run hlast)).1 1 row hrow).1
    ⟨2, newest, by decide, hnewest⟩

end Device

end TapSdk.Duration
