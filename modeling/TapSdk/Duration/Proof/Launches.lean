import TapSdk.Duration.Launches
import TapSdk.Duration.Proof.Durability

/-!
# What a step of a launch can do

Every step of the statistics either starts a handler, performs one operation of the handler that
runs, saves the session, puts a heartbeat in the queue, moves the reporter, or changes the
configuration. The frame lemmas say what this means for the session row, for the event rows and for
the events that are on their way.
-/

namespace TapSdk.Duration

open Library

namespace Statistics

variable {statistics next : Statistics} {op : Op}

/-- What starts a handler, once `event_lock` is free. -/
inductive Begun (statistics : Statistics) : Op → Statistics → Prop where
  | gameStart {gameId gamePkg : Str} {now : UInt64} :
      Begun statistics (.gameStart gameId gamePkg now) (statistics.gameStart gameId gamePkg now)
  | onForeground {now : UInt64} (hgame : statistics.gameId ≠ []) :
      Begun statistics (.onForeground now) (statistics.onWindow true now)
  | onBackground {now : UInt64} (hgame : statistics.gameId ≠ []) :
      Begun statistics (.onBackground now) (statistics.onWindow false now)
  | login {user : User} {now : UInt64} (hother : statistics.userId ≠ user.userId) :
      Begun statistics (.onNewUser (some user) now) (statistics.onNewUser (some user) now)
  | logout {now : UInt64} :
      Begun statistics (.onNewUser none now) (statistics.onNewUser none now)

/-- What does nothing without a game, or in the background. -/
def Op.quiet : Op → Bool
  | .onForeground _ | .onBackground _ | .localHeatBeat _ | .onlineHeatBeat _ => true
  | _ => false

/-- What a step can do. -/
inductive Moved (statistics : Statistics) : Op → Statistics → Prop where
  | still {op : Op} (hquiet : op.quiet = true) : Moved statistics op statistics
  | begun {op : Op} {next : Statistics} (hidle : statistics.handler = none)
      (hbegun : statistics.Begun op next) : Moved statistics op next
  | sameUser {user : User} {now : UInt64} (hidle : statistics.handler = none)
      (hsame : statistics.userId = user.userId) :
      Moved statistics (.onNewUser (some user) now) statistics.setSessionUser.saveSession
  | performed {event after : DurEvent} {step : HandlerStep} {todo : List HandlerStep}
      {changed : Statistics} (hhandler : statistics.handler = some ⟨event, step :: todo⟩)
      (hperform : statistics.perform event step = some (after, changed)) :
      Moved statistics .handler { changed with handler := remaining after todo }
  | beat {now : UInt64} (hforeground : statistics.foreground = true)
      (hgame : statistics.gameId ≠ []) :
      Moved statistics (.localHeatBeat now) (saveSession { statistics with
        localSession := { statistics.localSession with lastBeats := now } })
  | tick {now : UInt64} {queue : BlockingQueue DurEvent} (hgame : statistics.gameId ≠ [])
      (hidle : statistics.handler = none)
      (hput : statistics.reportQueue.put
        (statistics.newEvent .heatBeat now statistics.localSession.lastTimestamp) = some queue) :
      Moved statistics (.onlineHeatBeat now) { statistics with reportQueue := queue }
  | reporter {input : ReporterInput} {next : Statistics}
      (hmove : statistics.ReporterMove input next) : Moved statistics (.reporter input) next
  | refreshConfig {config : ReportConfig} :
      Moved statistics (.refreshConfig config) (statistics.refreshConfig config true)

theorem moved_onWindow {foreground : Bool} {now : UInt64}
    (hop : op = if foreground then .onForeground now else .onBackground now)
    (h : statistics.locked (statistics.onWindow foreground now) = some next) :
    statistics.Moved op next := by
  unfold locked at h
  split at h
  · rename_i hidle
    obtain rfl := Option.some.inj h
    by_cases hgame : statistics.gameId = []
    · rw [onWindow, if_pos hgame]
      cases foreground <;> exact hop ▸ .still rfl
    · cases foreground with
      | true => exact hop ▸ .begun hidle (.onForeground hgame)
      | false => exact hop ▸ .begun hidle (.onBackground hgame)
  · cases h

theorem moved_onNewUser {user : Option User} {now : UInt64}
    (h : statistics.locked (statistics.onNewUser user now) = some next) :
    statistics.Moved (.onNewUser user now) next := by
  unfold locked at h
  split at h
  · rename_i hidle
    obtain rfl := Option.some.inj h
    cases user with
    | none => exact .begun hidle .logout
    | some user =>
        by_cases hother : statistics.userId = user.userId
        · simp only [onNewUser, ne_eq, hother, not_true_eq_false, if_false]
          exact .sameUser hidle hother
        · exact .begun hidle (.login hother)
  · cases h

theorem moved_handler (h : statistics.handlerStep = some next) :
    statistics.Moved .handler next := by
  unfold handlerStep at h
  split at h
  · rename_i event step todo hhandler
    obtain ⟨⟨after, changed⟩, hperform, rfl⟩ := Option.map_eq_some_iff.mp h
    exact .performed hhandler hperform
  · cases h

theorem moved_of_step (h : statistics.step op = some next) : statistics.Moved op next := by
  unfold step at h
  split at h
  · cases h
  cases op with
  | gameStart gameId gamePkg now =>
      simp only [locked] at h
      split at h
      · rename_i hidle
        obtain rfl := Option.some.inj h
        exact .begun hidle .gameStart
      · cases h
  | onForeground now => exact moved_onWindow rfl h
  | onBackground now => exact moved_onWindow rfl h
  | onNewUser user now => exact moved_onNewUser h
  | handler => exact moved_handler h
  | localHeatBeat now =>
      obtain rfl := Option.some.inj h
      unfold localHeatBeat
      split
      · rename_i hon
        exact .beat hon.1 hon.2
      · exact .still rfl
  | onlineHeatBeat now =>
      simp only [onlineHeatBeat] at h
      split at h
      · rename_i hon
        split at h
        · rename_i hidle
          obtain ⟨queue, hput, rfl⟩ := Option.map_eq_some_iff.mp h
          exact .tick hon.2 hidle hput
        · cases h
      · obtain rfl := Option.some.inj h
        exact .still rfl
  | reporter input => exact .reporter (reporterMove_of_step h)
  | refreshConfig config =>
      obtain rfl := Option.some.inj h
      exact .refreshConfig

/-! ### The session row -/

theorem saveSession_of_id (h : statistics.localSession.id ≠ 0) :
    statistics.saveSession = { statistics with persistence := { statistics.persistence with
      sessions := statistics.persistence.sessions.update statistics.localSession.id
        statistics.localSession } } := by
  simp only [saveSession, DurPersistence.updateSession, if_neg h]

@[simp]
theorem addOrMergeEvent_sessions (storage : DurPersistence) (event : DurEvent) :
    (storage.addOrMergeEvent event).2.sessions = storage.sessions := by
  rcases addOrMergeEvent_cases storage event with hinsert | ⟨id, old, _, _, _, hmerge⟩
  · rw [hinsert]
    rfl
  · rw [hmerge]

/-- The row of the session stays, or it becomes what `local_session` is after the step. -/
structure KeepsSession (statistics next : Statistics) : Prop where
  gameSession : next.gameSession = statistics.gameSession
  id : next.localSession.id = statistics.localSession.id
  session : next.localSession.session = statistics.localSession.session
  rows : next.persistence.sessions = statistics.persistence.sessions
    ∨ next.persistence.sessions = statistics.persistence.sessions.update
      statistics.localSession.id next.localSession

theorem keepsSession_of_same (hgameSession : next.gameSession = statistics.gameSession)
    (hlocal : next.localSession = statistics.localSession)
    (hrows : next.persistence.sessions = statistics.persistence.sessions) :
    statistics.KeepsSession next :=
  ⟨hgameSession, by rw [hlocal], by rw [hlocal], Or.inl hrows⟩

theorem keepsSession_saveSession {touched : Statistics} (hid : statistics.localSession.id ≠ 0)
    (hgameSession : touched.gameSession = statistics.gameSession)
    (hlocal : touched.localSession.id = statistics.localSession.id)
    (hsession : touched.localSession.session = statistics.localSession.session)
    (hrows : touched.persistence.sessions = statistics.persistence.sessions) :
    statistics.KeepsSession touched.saveSession := by
  rw [saveSession_of_id (hlocal ▸ hid)]
  refine ⟨hgameSession, hlocal, hsession, Or.inr ?_⟩
  rw [← hlocal, ← hrows]

theorem Begun.frame (h : statistics.Begun op next) : next.persistence = statistics.persistence
    ∧ next.localSession = statistics.localSession ∧ next.gameSession = statistics.gameSession
    ∧ next.reportQueue = statistics.reportQueue
    ∧ next.reportThread = statistics.reportThread := by
  cases h with
  | gameStart => exact ⟨rfl, rfl, rfl, rfl, rfl⟩
  | onForeground hgame | onBackground hgame =>
      rw [onWindow, if_neg hgame]
      exact ⟨rfl, rfl, rfl, rfl, rfl⟩
  | login hother =>
      simp only [onNewUser, if_pos hother]
      exact ⟨trivial, trivial, trivial, trivial, trivial⟩
  | logout => exact ⟨rfl, rfl, rfl, rfl, rfl⟩

theorem keepsSession_perform {event after : DurEvent} {step : HandlerStep} {changed : Statistics}
    (hid : statistics.localSession.id ≠ 0)
    (h : statistics.perform event step = some (after, changed)) :
    statistics.KeepsSession changed := by
  cases step with
  | startSession | touchSession | userSession =>
      obtain ⟨rfl, rfl⟩ := Prod.mk.inj (Option.some.inj h)
      exact ⟨rfl, rfl, rfl, Or.inl rfl⟩
  | updateSession =>
      obtain ⟨rfl, rfl⟩ := Prod.mk.inj (Option.some.inj h)
      exact keepsSession_saveSession hid rfl rfl rfl rfl
  | addOrMergeEvent =>
      obtain ⟨rfl, rfl⟩ := Prod.mk.inj (Option.some.inj h)
      exact keepsSession_of_same rfl rfl (addOrMergeEvent_sessions _ _)
  | putEvent =>
      obtain ⟨queue, _, hpair⟩ := Option.map_eq_some_iff.mp h
      obtain ⟨rfl, rfl⟩ := Prod.mk.inj hpair
      exact keepsSession_of_same rfl rfl rfl

theorem ReporterMove.keepsSession {input : ReporterInput} (hid : statistics.localSession.id ≠ 0)
    (h : statistics.ReporterMove input next) : statistics.KeepsSession next := by
  cases h with
  | @beaten _ now _ _ _ =>
      have hsaved : statistics.KeepsSession (saveSession { statistics with
          localSession := { statistics.localSession with lastTimestamp := now } }) :=
        keepsSession_saveSession hid rfl rfl rfl rfl
      exact ⟨hsaved.gameSession, hsaved.id, hsaved.session, hsaved.rows⟩
  | _ => exact keepsSession_of_same rfl rfl rfl

theorem Moved.keepsSession (hid : statistics.localSession.id ≠ 0)
    (h : statistics.Moved op next) : statistics.KeepsSession next := by
  cases h with
  | still _ => exact keepsSession_of_same rfl rfl rfl
  | begun _ hbegun =>
      obtain ⟨hpersistence, hlocal, hgameSession, _, _⟩ := hbegun.frame
      exact keepsSession_of_same hgameSession hlocal (by rw [hpersistence])
  | sameUser _ _ => exact keepsSession_saveSession hid rfl rfl rfl rfl
  | performed _ hperform =>
      obtain ⟨hgameSession, hlocal, hsession, hrows⟩ := keepsSession_perform hid hperform
      exact ⟨hgameSession, hlocal, hsession, hrows⟩
  | beat _ _ => exact keepsSession_saveSession hid rfl rfl rfl rfl
  | tick _ _ _ => exact keepsSession_of_same rfl rfl rfl
  | reporter hmove => exact hmove.keepsSession hid
  | @refreshConfig config =>
      have hspec := statistics.refreshConfig_spec config
      exact keepsSession_of_same hspec.gameSession hspec.localSession hspec.sessions

/-! ### The event rows -/

theorem exists_id_addOrMergeEvent (storage : DurPersistence) (event : DurEvent) :
    ∃ id, (storage.addOrMergeEvent event).1 = { event with id := id } := by
  rcases addOrMergeEvent_cases storage event with hinsert | ⟨id, old, _, _, _, hmerge⟩
  · exact ⟨_, by rw [hinsert]; rfl⟩
  · exact ⟨id, by rw [hmerge]⟩

theorem find_of_find_delete {storage : DurPersistence} {events : List DurEvent} {id : Nat}
    {row : DurEvent} (h : (storage.delete events).events.find id = some row) :
    storage.events.find id = some row := by
  simp only [DurPersistence.delete] at h
  generalize storage.events = table at h
  induction events generalizing table with
  | nil => exact h
  | cons first rest ih =>
      have hfirst := ih _ h
      dsimp only at hfirst
      split at hfirst
      · exact Table.find_of_find_remove hfirst
      · exact hfirst

theorem find_delete_of_mem {storage : DurPersistence} {events : List DurEvent} {id : Nat}
    (h : id ∈ events.map (·.id)) :
    (storage.delete events).events.find id = none := by
  obtain ⟨event, hevent, rfl⟩ := List.mem_map.mp h
  obtain ⟨before, after, rfl⟩ := List.append_of_mem hevent
  -- the row is gone when its event has been gone through, and no row comes back
  have hgone : ((storage.delete before).delete [event]).events.find event.id = none := by
    simp only [DurPersistence.delete, List.foldl_cons, List.foldl_nil]
    split
    · exact OrderedMap.find_erase_self
    · rename_i hzero
      rw [not_not] at hzero
      rw [Option.eq_none_iff_forall_ne_some]
      intro row hrow
      have hpos := (Table.bounded _ _ _ hrow).1
      omega
  rw [Option.eq_none_iff_forall_ne_some]
  intro row hrow
  have hsplit : storage.delete (before ++ event :: after)
      = ((storage.delete before).delete [event]).delete after := by
    simp only [DurPersistence.delete, List.foldl_append, List.foldl_cons, List.foldl_nil]
  rw [hsplit] at hrow
  rw [find_of_find_delete hrow] at hgone
  cases hgone

/-- No row is new. -/
def KeepsRows (before after : DurPersistence) : Prop :=
  ∀ id row, after.events.find id = some row → before.events.find id = some row

theorem keepsRows_of_same {before after : DurPersistence} (h : after.events = before.events) :
    KeepsRows before after := by
  intro id row hfind
  rwa [h] at hfind

/-- What a step does to the event rows: a handler stores its event, or the rows of some events are
deleted, most often of none. -/
theorem Moved.events (h : statistics.Moved op next) :
    (∃ event todo, op = .handler ∧ statistics.handler = some ⟨event, .addOrMergeEvent :: todo⟩
        ∧ next.persistence.events = (statistics.persistence.addOrMergeEvent event).2.events)
      ∨ (statistics.storedBy op = [] ∧ ∃ gone,
        next.persistence.events = (statistics.persistence.delete gone).events) := by
  have hsame : next.persistence.events = statistics.persistence.events →
      ∃ gone, next.persistence.events = (statistics.persistence.delete gone).events :=
    fun hevents => ⟨[], hevents⟩
  cases h with
  | still hquiet =>
      refine Or.inr ⟨?_, hsame rfl⟩
      cases op <;> first | rfl | cases hquiet
  | begun hidle hbegun =>
      refine Or.inr ⟨?_, hsame (by rw [hbegun.frame.1])⟩
      cases hbegun <;> rfl
  | sameUser _ _ =>
      exact Or.inr ⟨rfl, hsame (sameReporting_saveSession statistics.setSessionUser).events⟩
  | @performed event after step todo changed hhandler hperform =>
      cases step with
      | addOrMergeEvent =>
          obtain ⟨rfl, rfl⟩ := Prod.mk.inj (Option.some.inj hperform)
          exact Or.inl ⟨event, todo, rfl, hhandler, rfl⟩
      | putEvent =>
          obtain ⟨queue, _, hpair⟩ := Option.map_eq_some_iff.mp hperform
          obtain ⟨rfl, rfl⟩ := Prod.mk.inj hpair
          exact Or.inr ⟨by simp only [storedBy, hhandler], hsame rfl⟩
      | updateSession =>
          obtain ⟨rfl, rfl⟩ := Prod.mk.inj (Option.some.inj hperform)
          exact Or.inr ⟨by simp only [storedBy, hhandler],
            hsame (sameReporting_saveSession statistics).events⟩
      | startSession | touchSession | userSession =>
          obtain ⟨rfl, rfl⟩ := Prod.mk.inj (Option.some.inj hperform)
          exact Or.inr ⟨by simp only [storedBy, hhandler], hsame rfl⟩
  | beat _ _ => exact Or.inr ⟨rfl, hsame (sameReporting_saveSession _).events⟩
  | tick _ _ _ => exact Or.inr ⟨rfl, hsame rfl⟩
  | reporter hmove =>
      refine Or.inr ⟨rfl, ?_⟩
      cases hmove with
      | @delivered events _ _ _ | @discarded events _ _ _ _ _ => exact ⟨events, rfl⟩
      | beaten _ _ _ => exact hsame (sameReporting_saveSession _).events
      | _ => exact hsame rfl
  | @refreshConfig config => exact Or.inr ⟨rfl, hsame (statistics.refreshConfig_spec config).events⟩

theorem Moved.rows (h : statistics.Moved op next) :
    (∃ event todo, op = .handler ∧ statistics.handler = some ⟨event, .addOrMergeEvent :: todo⟩
        ∧ next.persistence.events = (statistics.persistence.addOrMergeEvent event).2.events)
      ∨ (statistics.storedBy op = [] ∧ KeepsRows statistics.persistence next.persistence) := by
  refine h.events.imp_right ?_
  rintro ⟨hnothing, gone, hevents⟩
  refine ⟨hnothing, fun id row hfind => ?_⟩
  rw [hevents] at hfind
  exact find_of_find_delete hfind

theorem keepsRows_left (statistics : Statistics) (deleted : Nat) :
    KeepsRows statistics.persistence (statistics.left deleted) := by
  unfold left
  split
  · split
    · exact fun id row => find_of_find_delete
    · exact keepsRows_of_same rfl
  · exact keepsRows_of_same rfl

theorem left_sessions (statistics : Statistics) (deleted : Nat) :
    (statistics.left deleted).sessions = statistics.persistence.sessions := by
  unfold left
  repeat' split
  all_goals rfl

/-! ### The handler -/

/-- The event a handler starts with: it is stamped with the time, and it reaches back to the last
time of the session unless the game is just starting. -/
theorem Begun.event (h : statistics.Begun op next) : ∃ handler, next.handler = some handler
    ∧ handler.event.session = statistics.gameSession ∧ handler.event.id = 0
    ∧ handler.event.action ≠ .gameEnd ∧ handler.event.action ≠ .heatBeat
    ∧ op.reading = some handler.event.timestamp ∧ op.readsLocked = true
    ∧ ((handler.event.lastTimestamp = 0 ∧ handler.todo.head? = some .addOrMergeEvent)
      ∨ (handler.event.lastTimestamp = statistics.localSession.lastTimestamp
        ∧ handler.todo.head? = some .touchSession)) := by
  cases h with
  | gameStart =>
      exact ⟨_, rfl, rfl, rfl, by simp [newEvent], by simp [newEvent], rfl, rfl, Or.inl ⟨rfl, rfl⟩⟩
  | onForeground hgame | onBackground hgame =>
      rw [onWindow, if_neg hgame]
      exact ⟨_, rfl, rfl, rfl, by simp [newEvent], by simp [newEvent], rfl, rfl, Or.inr ⟨rfl, rfl⟩⟩
  | login hother =>
      simp only [onNewUser, if_pos hother]
      exact ⟨_, rfl, rfl, rfl, by simp [newEvent], by simp [newEvent], rfl, rfl, Or.inr ⟨rfl, rfl⟩⟩
  | logout =>
      exact ⟨_, rfl, rfl, rfl, by simp [newEvent], by simp [newEvent], rfl, rfl, Or.inr ⟨rfl, rfl⟩⟩

theorem perform_addOrMergeEvent {event after : DurEvent} {changed : Statistics}
    (h : statistics.perform event .addOrMergeEvent = some (after, changed)) :
    after = (statistics.persistence.addOrMergeEvent event).1
      ∧ changed = { statistics with
        persistence := (statistics.persistence.addOrMergeEvent event).2 } := by
  obtain ⟨hafter, hchanged⟩ := Prod.mk.inj (Option.some.inj h)
  exact ⟨hafter.symm, hchanged.symm⟩

theorem perform_event {event after : DurEvent} {step : HandlerStep} {changed : Statistics}
    (h : statistics.perform event step = some (after, changed)) :
    ∃ id, after = { event with id := id } := by
  cases step with
  | startSession | touchSession | userSession | updateSession =>
      obtain ⟨rfl, rfl⟩ := Prod.mk.inj (Option.some.inj h)
      exact ⟨event.id, rfl⟩
  | addOrMergeEvent =>
      obtain ⟨rfl, rfl⟩ := Prod.mk.inj (Option.some.inj h)
      exact exists_id_addOrMergeEvent _ _
  | putEvent =>
      obtain ⟨queue, _, hpair⟩ := Option.map_eq_some_iff.mp h
      obtain ⟨rfl, rfl⟩ := Prod.mk.inj hpair
      exact ⟨event.id, rfl⟩

/-- A handler leaves the reporter alone, and the queue unless it puts its event there. -/
theorem perform_frame {event after : DurEvent} {step : HandlerStep} {changed : Statistics}
    (h : statistics.perform event step = some (after, changed)) :
    (step ≠ .putEvent → changed.reportQueue = statistics.reportQueue)
      ∧ changed.reportThread = statistics.reportThread := by
  cases step with
  | startSession | touchSession | userSession | addOrMergeEvent =>
      obtain ⟨rfl, rfl⟩ := Prod.mk.inj (Option.some.inj h)
      exact ⟨fun _ => rfl, rfl⟩
  | updateSession =>
      obtain ⟨rfl, rfl⟩ := Prod.mk.inj (Option.some.inj h)
      have hsame := sameReporting_saveSession statistics
      exact ⟨fun _ => hsame.reportQueue, hsame.reportThread⟩
  | putEvent =>
      obtain ⟨queue, _, hpair⟩ := Option.map_eq_some_iff.mp h
      obtain ⟨rfl, rfl⟩ := Prod.mk.inj hpair
      exact ⟨fun hstep => absurd rfl hstep, rfl⟩

theorem ReporterMove.handler {input : ReporterInput} (h : statistics.ReporterMove input next) :
    next.handler = statistics.handler := by
  cases h with
  | beaten _ _ _ => exact saveSession_handler
  | _ => rfl

/-- The event of the handler stays the same but for its id. -/
theorem Moved.handlerEvent (h : statistics.Moved op next) {handler : Handler}
    (hnext : next.handler = some handler) : statistics.Begun op next
      ∨ ∃ before, statistics.handler = some before
        ∧ ∃ id, handler.event = { before.event with id := id } := by
  have hsame : next.handler = statistics.handler → ∃ before, statistics.handler = some before
      ∧ ∃ id, handler.event = { before.event with id := id } := by
    intro hsame
    exact ⟨handler, hsame.symm.trans hnext, handler.event.id, rfl⟩
  cases h with
  | still _ => exact Or.inr (hsame rfl)
  | begun _ hbegun => exact Or.inl hbegun
  | sameUser _ _ => exact Or.inr (hsame saveSession_handler)
  | @performed event after step todo changed hhandler hperform =>
      obtain ⟨id, hid⟩ := perform_event hperform
      obtain ⟨hevent, _⟩ := Account.handler_of_remaining hnext
      exact Or.inr ⟨_, hhandler, id, hevent.trans hid⟩
  | beat _ _ => exact Or.inr (hsame saveSession_handler)
  | tick _ _ _ => exact Or.inr (hsame rfl)
  | reporter hmove => exact Or.inr (hsame hmove.handler)
  | @refreshConfig config => exact Or.inr (hsame (statistics.refreshConfig_spec config).handler)

end Statistics

/-! ### The device -/

namespace Process

/-- The statistics of a process whose session has its row. -/
def live : Process → Option Statistics
  | .opened statistics | .running statistics => some statistics
  | .off _ | .ended _ => none

def statistics : Process → Option Statistics
  | .ended statistics | .opened statistics | .running statistics => some statistics
  | .off _ => none

end Process

namespace Device

variable {device next : Device} {op : Op}

def storage (device : Device) : DurPersistence := device.process.storage

/-- What a step of the device can do. -/
inductive Moved (device : Device) : Op → Device → Prop where
  | launch {storage : DurPersistence} {deviceId : Str} (hprocess : device.process = .off storage) :
      Moved device (.launch deviceId) (device.launch storage deviceId)
  | openSession {statistics : Statistics} {uuid : Str}
      (hprocess : device.process = .ended statistics) (hnew : uuid ∉ device.uuids) :
      Moved device (.openSession uuid) { device with
        process := .opened (statistics.openSession uuid), uuids := uuid :: device.uuids }
  | finishInit {statistics configured : Statistics} {now : UInt64}
      (hprocess : device.process = .opened statistics) (hclock : device.clock ≤ now)
      (hhistory : statistics.initHistory now = some configured) :
      Moved device (.finishInit now) { device with
        process := .running configured.initReportThread.initRequest, clock := now }
  | run {statistics next : Statistics} {op : Statistics.Op}
      (hprocess : device.process = .running statistics) (hadmits : device.admits op = true)
      (hmoved : statistics.Moved op next) :
      Moved device (.run op) (device.run statistics op next)
  | crash {statistics : Statistics} {deleted : Nat}
      (hprocess : device.process.statistics = some statistics) :
      Moved device (.crash deleted) { device with process := .off (statistics.left deleted) }

theorem moved_of_step (h : device.step op = some next) : device.Moved op next := by
  unfold step at h
  split at h
  · rename_i storage deviceId hprocess
    obtain rfl := Option.some.inj h
    exact .launch hprocess
  · rename_i statistics uuid hprocess
    split at h
    · cases h
    · rename_i hnew
      obtain rfl := Option.some.inj h
      exact .openSession hprocess hnew
  · rename_i statistics now hprocess
    split at h
    · rename_i hclock
      obtain ⟨configured, hhistory, rfl⟩ := Option.map_eq_some_iff.mp h
      exact .finishInit hprocess hclock hhistory
    · cases h
  · rename_i statistics op hprocess
    split at h
    · rename_i hadmits
      obtain ⟨after, hstep, rfl⟩ := Option.map_eq_some_iff.mp h
      exact .run hprocess hadmits (Statistics.moved_of_step hstep)
    · cases h
  · rename_i statistics deleted hprocess
    obtain rfl := Option.some.inj h
    exact .crash (by rw [hprocess]; rfl)
  · rename_i statistics deleted hprocess
    obtain rfl := Option.some.inj h
    exact .crash (by rw [hprocess]; rfl)
  · rename_i statistics deleted hprocess
    obtain rfl := Option.some.inj h
    exact .crash (by rw [hprocess]; rfl)
  · cases h

end Device

end TapSdk.Duration
