import TapSdk.Duration.Account

/-!
# The record follows the program

What the record of a run says about the queue, the batch of the reporter and the handler is what the
program has. An entry that was taken and is not settled is in the batch the reporter is working on;
the only other way is that the reporter has given up because the statistics were stopped, and then
it takes nothing more.
-/

namespace TapSdk.Duration

open Library

/-! ### What the steps leave alone -/

/-- In what is still to do, an event goes into the queue straight after it has been stored. -/
def orderly : List HandlerStep → Bool
  | first :: second :: rest =>
      (second ≠ .putEvent || first = .addOrMergeEvent) && orderly (second :: rest)
  | _ => true

/-- A handler that has not stored its event yet. -/
structure Handler.Fresh (handler : Handler) : Prop where
  action : handler.event.action ≠ .heatBeat
  orderly : orderly handler.todo = true
  unstored : handler.todo.head? ≠ some .putEvent

namespace Statistics

structure SameReporting (statistics next : Statistics) : Prop where
  events : next.persistence.events = statistics.persistence.events
  running : next.running = statistics.running
  reportThread : next.reportThread = statistics.reportThread
  reportQueue : next.reportQueue = statistics.reportQueue
  terminated : next.terminated = statistics.terminated

variable {statistics next : Statistics} {event : DurEvent} {todo : List HandlerStep}

theorem sameReporting_saveSession (statistics : Statistics) :
    statistics.SameReporting statistics.saveSession := by
  simp only [saveSession, DurPersistence.updateSession]
  split <;> exact ⟨rfl, rfl, rfl, rfl, rfl⟩

@[simp]
theorem saveSession_handler : statistics.saveSession.handler = statistics.handler := by
  simp only [saveSession]

/-- What a handler does before its first operation. -/
def Prepares (statistics next : Statistics) : Prop :=
  statistics.SameReporting next ∧ ∀ handler, next.handler = some handler → handler.Fresh

theorem fresh_newEvent {action : EventAction} (haction : action ≠ .heatBeat)
    (horderly : orderly todo = true) (hunstored : todo.head? ≠ some .putEvent)
    (timestamp lastTimestamp : UInt64) :
    Handler.Fresh ⟨statistics.newEvent action timestamp lastTimestamp, todo⟩ :=
  ⟨haction, horderly, hunstored⟩

theorem prepares_gameStart (gameId gamePkg : Str) (now : UInt64) :
    statistics.Prepares (statistics.gameStart gameId gamePkg now) := by
  refine ⟨⟨rfl, rfl, rfl, rfl, rfl⟩, ?_⟩
  rintro _ ⟨⟩
  exact fresh_newEvent (by decide) rfl (by decide) _ _

theorem prepares_onWindow (hidle : statistics.handler = none) (foreground : Bool) (now : UInt64) :
    statistics.Prepares (statistics.onWindow foreground now) := by
  unfold onWindow
  split
  · refine ⟨⟨rfl, rfl, rfl, rfl, rfl⟩, fun handler hhandler => ?_⟩
    rw [hidle] at hhandler
    cases hhandler
  · refine ⟨⟨rfl, rfl, rfl, rfl, rfl⟩, ?_⟩
    rintro _ ⟨⟩
    refine fresh_newEvent ?_ rfl (by decide) _ _
    cases foreground <;> decide

theorem prepares_onNewUser (hidle : statistics.handler = none) (user : Option User) (now : UInt64) :
    statistics.Prepares (statistics.onNewUser user now) := by
  cases user with
  | none =>
      refine ⟨⟨rfl, rfl, rfl, rfl, rfl⟩, ?_⟩
      rintro _ ⟨⟩
      exact fresh_newEvent (by decide) rfl (by decide) _ _
  | some user =>
      simp only [onNewUser]
      split
      · refine ⟨⟨rfl, rfl, rfl, rfl, rfl⟩, ?_⟩
        rintro _ ⟨⟩
        exact fresh_newEvent (by decide) rfl (by decide) _ _
      · have hsame := sameReporting_saveSession statistics.setSessionUser
        refine ⟨⟨hsame.events, hsame.running, hsame.reportThread, hsame.reportQueue,
          hsame.terminated⟩, fun handler hhandler => ?_⟩
        rw [saveSession_handler] at hhandler
        have hsome : statistics.handler = some handler := hhandler
        rw [hidle] at hsome
        cases hsome

def remaining (event : DurEvent) (todo : List HandlerStep) : Option Handler :=
  if todo = [] then none else some ⟨event, todo⟩

theorem handlerStep_cases (h : statistics.handlerStep = some next) :
    ∃ event step todo, statistics.handler = some ⟨event, step :: todo⟩
      ∧ ((step = .addOrMergeEvent
          ∧ next = { statistics with
              persistence := (statistics.persistence.addOrMergeEvent event).2
              handler := remaining (statistics.persistence.addOrMergeEvent event).1 todo })
        ∨ (step = .putEvent ∧ ∃ queue, statistics.reportQueue.put event = some queue
          ∧ next = { statistics with reportQueue := queue, handler := remaining event todo })
        ∨ (step ≠ .addOrMergeEvent ∧ step ≠ .putEvent ∧ statistics.SameReporting next
          ∧ next.handler = remaining event todo)) := by
  unfold handlerStep at h
  split at h
  · rename_i event step todo hhandler
    obtain ⟨⟨after, changed⟩, hperform, rfl⟩ := Option.map_eq_some_iff.mp h
    refine ⟨event, step, todo, hhandler, ?_⟩
    cases step with
    | addOrMergeEvent =>
        obtain ⟨rfl, rfl⟩ := Prod.mk.inj (Option.some.inj hperform)
        exact Or.inl ⟨rfl, rfl⟩
    | putEvent =>
        obtain ⟨queue, hqueue, hpair⟩ := Option.map_eq_some_iff.mp hperform
        obtain ⟨rfl, rfl⟩ := Prod.mk.inj hpair
        exact Or.inr (Or.inl ⟨rfl, queue, hqueue, rfl⟩)
    | updateSession =>
        obtain ⟨rfl, rfl⟩ := Prod.mk.inj (Option.some.inj hperform)
        have hsame := sameReporting_saveSession statistics
        exact Or.inr (Or.inr ⟨by decide, by decide, ⟨hsame.events, hsame.running,
          hsame.reportThread, hsame.reportQueue, hsame.terminated⟩, rfl⟩)
    | startSession =>
        obtain ⟨rfl, rfl⟩ := Prod.mk.inj (Option.some.inj hperform)
        exact Or.inr (Or.inr ⟨by decide, by decide, ⟨rfl, rfl, rfl, rfl, rfl⟩, rfl⟩)
    | touchSession =>
        obtain ⟨rfl, rfl⟩ := Prod.mk.inj (Option.some.inj hperform)
        exact Or.inr (Or.inr ⟨by decide, by decide, ⟨rfl, rfl, rfl, rfl, rfl⟩, rfl⟩)
    | userSession =>
        obtain ⟨rfl, rfl⟩ := Prod.mk.inj (Option.some.inj hperform)
        exact Or.inr (Or.inr ⟨by decide, by decide, ⟨rfl, rfl, rfl, rfl, rfl⟩, rfl⟩)
  · cases h

theorem onlineHeatBeat_cases {now : UInt64} (h : statistics.onlineHeatBeat now = some next) :
    next = statistics
      ∨ ∃ queue event, queue.queue = statistics.reportQueue.queue ++ [event]
        ∧ next = { statistics with reportQueue := queue } := by
  unfold onlineHeatBeat at h
  split at h
  · split at h
    · obtain ⟨queue, hqueue, rfl⟩ := Option.map_eq_some_iff.mp h
      exact Or.inr ⟨queue, _, congrArg (·.queue) (BlockingQueue.put_spec hqueue), rfl⟩
    · cases h
  · exact Or.inl (Option.some.inj h).symm

theorem sameReporting_localHeatBeat (statistics : Statistics) (now : UInt64) :
    statistics.SameReporting (statistics.localHeatBeat now)
      ∧ (statistics.localHeatBeat now).handler = statistics.handler := by
  unfold localHeatBeat
  split
  · have hsame := sameReporting_saveSession { statistics with
      localSession := { statistics.localSession with lastBeats := now } }
    exact ⟨⟨hsame.events, hsame.running, hsame.reportThread, hsame.reportQueue,
      hsame.terminated⟩, by rw [saveSession_handler]⟩
  · exact ⟨⟨rfl, rfl, rfl, rfl, rfl⟩, rfl⟩

/-- What a configuration from the network leaves as it is; and it starts a thread, stops the
statistics, or does neither. -/
structure RefreshedBy (config : ReportConfig) (statistics next : Statistics) : Prop where
  events : next.persistence.events = statistics.persistence.events
  sessions : next.persistence.sessions = statistics.persistence.sessions
  queue : next.reportQueue.queue = statistics.reportQueue.queue
  handler : next.handler = statistics.handler
  localSession : next.localSession = statistics.localSession
  gameSession : next.gameSession = statistics.gameSession
  identity : next.gameId = statistics.gameId ∧ next.gamePkg = statistics.gamePkg
    ∧ next.userId = statistics.userId
  switched : if statistics.running = config.enable then
      next.running = statistics.running ∧ next.reportThread = statistics.reportThread
        ∧ next.reportQueue.stopped = statistics.reportQueue.stopped
        ∧ next.terminated = statistics.terminated
    else if config.enable then
      next.running = true ∧ next.reportThread = some .loop
        ∧ next.reportQueue.stopped = statistics.reportQueue.stopped
        ∧ next.terminated = (statistics.terminated || statistics.reportThread.isSome)
    else next.running = false ∧ next.reportThread = statistics.reportThread
        ∧ next.reportQueue.stopped = true ∧ next.terminated = statistics.terminated

theorem refreshConfig_spec (statistics : Statistics) (config : ReportConfig) :
    RefreshedBy config statistics (statistics.refreshConfig config true) := by
  have hstored : ∀ storage : DurPersistence,
      (storage.updateConfig config).2.events = storage.events
        ∧ (storage.updateConfig config).2.sessions = storage.sessions := by
    intro storage
    unfold DurPersistence.updateConfig
    split <;> exact ⟨rfl, rfl⟩
  have hsame := hstored statistics.persistence
  cases henable : config.enable <;> cases hrunning : statistics.running <;>
    constructor <;>
    simp [refreshConfig, henable, hrunning, initReportThread, stop, BlockingQueue.stop, hsame]

/-! ### The state after `Init` -/

def cachedEnable (storage : DurPersistence) : Bool :=
  (storage.getLatestConfig.map (·.enable)).getD true

structure Idle (statistics : Statistics) : Prop where
  handler : statistics.handler = none
  running : statistics.running = false
  reportThread : statistics.reportThread = none
  stopped : statistics.reportQueue.stopped = false
  terminated : statistics.terminated = false

theorem idle_newGameSession (storage : DurPersistence) (deviceId uuid : Str) :
    ((construct storage deviceId).newGameSession uuid).Idle
      ∧ ((construct storage deviceId).newGameSession uuid).persistence.configs = storage.configs
      ∧ ((construct storage deviceId).newGameSession uuid).reportConfig = ReportConfig.default := by
  have hconfigs : ∀ event, (storage.addOrMergeEvent event).2.configs = storage.configs := by
    intro event
    simp only [DurPersistence.addOrMergeEvent, DurPersistence.insertEvent]
    repeat' split
    all_goals rfl
  simp only [newGameSession, saveSession, DurPersistence.updateSession]
  repeat' split
  all_goals first
    | exact ⟨⟨rfl, rfl, rfl, rfl, rfl⟩, rfl, rfl⟩
    | exact ⟨⟨rfl, rfl, rfl, rfl, rfl⟩, hconfigs _, rfl⟩

theorem idle_initHistory {configured : Statistics} {now : UInt64} (h : statistics.Idle)
    (hdefault : statistics.reportConfig = ReportConfig.default)
    (hconfigured : statistics.initHistory now = some configured) :
    configured.Idle ∧ configured.reportConfig.enable = cachedEnable statistics.persistence := by
  have hrefreshed : ∀ config, (statistics.refreshConfig config false).Idle :=
    fun config => ⟨h.handler, h.running, h.reportThread, h.stopped, h.terminated⟩
  have hput : ∀ (before : Statistics) (queue : BlockingQueue DurEvent) (tasks : List DurEvent),
      before.Idle → before.reportQueue.putAll tasks = some queue →
      ({ before with reportQueue := queue } : Statistics).Idle := by
    intro before queue tasks hidle hputAll
    rw [BlockingQueue.putAll_spec hputAll]
    exact ⟨hidle.handler, hidle.running, hidle.reportThread, hidle.stopped, hidle.terminated⟩
  unfold initHistory at hconfigured
  unfold cachedEnable
  cases hcached : statistics.persistence.getLatestConfig with
  | none =>
      simp only [hcached] at hconfigured
      split at hconfigured
      · obtain rfl := Option.some.inj hconfigured
        exact ⟨h, by rw [hdefault]; rfl⟩
      · obtain ⟨queue, hqueue, rfl⟩ := Option.map_eq_some_iff.mp hconfigured
        exact ⟨hput _ _ _ h hqueue, by rw [hdefault]; rfl⟩
  | some config =>
      simp only [hcached] at hconfigured
      split at hconfigured
      · obtain rfl := Option.some.inj hconfigured
        exact ⟨hrefreshed config, rfl⟩
      · obtain ⟨queue, hqueue, rfl⟩ := Option.map_eq_some_iff.mp hconfigured
        exact ⟨hput _ _ _ (hrefreshed config) hqueue, rfl⟩

/-- **The state after `Init`**: it runs, with a thread exactly if the cached configuration does not
forbid it. -/
theorem init_spec {storage : DurPersistence} {deviceId uuid : Str} {now : UInt64}
    (h : (construct storage deviceId).init uuid now = some statistics) :
    statistics.handler = none ∧ statistics.running = true
      ∧ statistics.reportThread = (if cachedEnable storage then some .loop else none)
      ∧ statistics.reportQueue.stopped = false ∧ statistics.terminated = false := by
  obtain ⟨configured, hconfigured, rfl⟩ := Option.map_eq_some_iff.mp h
  obtain ⟨hidle, hconfigs, hdefault⟩ := idle_newGameSession storage deviceId uuid
  obtain ⟨hidle', henable⟩ := idle_initHistory hidle hdefault hconfigured
  have hcached : cachedEnable ((construct storage deviceId).newGameSession uuid).persistence
      = cachedEnable storage := by
    simp only [cachedEnable, DurPersistence.getLatestConfig, hconfigs]
  rw [hcached] at henable
  cases hvalue : cachedEnable storage with
  | true =>
      rw [hvalue] at henable
      simp only [initRequest, initReportThread, hidle'.running, henable, hidle'.terminated,
        hidle'.reportThread]
      exact ⟨hidle'.handler, trivial, rfl, hidle'.stopped, rfl⟩
  | false =>
      rw [hvalue] at henable
      simp only [initRequest, initReportThread, hidle'.running, henable]
      exact ⟨hidle'.handler, trivial, hidle'.reportThread, hidle'.stopped, hidle'.terminated⟩

/-- What a step of the reporter can do. -/
inductive ReporterMove (statistics : Statistics) (input : ReporterInput) : Statistics → Prop where
  | goOn (hthread : statistics.reportThread = some .loop) (hrunning : statistics.running = true) :
      ReporterMove statistics input (statistics.setReporter .waiting)
  | leave (hthread : statistics.reportThread = some .loop) (hrunning : statistics.running = false) :
      ReporterMove statistics input (statistics.setReporter .exited)
  | take {events : List DurEvent} {queue : BlockingQueue DurEvent}
      (hthread : statistics.reportThread = some .waiting)
      (htake : statistics.reportQueue.take maxReportEvents = some (events, queue)) :
      ReporterMove statistics input
        ({ statistics with reportQueue := queue }.setReporter
          (.building events input.uninitialized))
  | skip {events built : List DurEvent} {reportSuccess hasHeatBeats : Bool}
      (hthread : statistics.reportThread = some (.building events reportSuccess))
      (hbuild : statistics.buildReports input.now events false = (built, [], hasHeatBeats)) :
      ReporterMove statistics input (statistics.setReporter (.checking built reportSuccess))
  | post {events built reports : List DurEvent} {reportSuccess hasHeatBeats : Bool}
      (hthread : statistics.reportThread = some (.building events reportSuccess))
      (hbuild : statistics.buildReports input.now events false = (built, reports, hasHeatBeats))
      (hsome : reports ≠ []) :
      ReporterMove statistics input
        (statistics.setReporter (.posting built reports input.now hasHeatBeats))
  | answer {events reports : List DurEvent} {now : UInt64} {hasHeatBeats : Bool}
      (hthread : statistics.reportThread = some (.posting events reports now hasHeatBeats)) :
      ReporterMove statistics input
        (statistics.setReporter (.answered events now hasHeatBeats input.answer))
  | delivered {events : List DurEvent} {now : UInt64} {hasHeatBeats : Bool}
      (hthread : statistics.reportThread = some (.answered events now hasHeatBeats .success)) :
      ReporterMove statistics input
        ({ statistics with persistence := statistics.persistence.delete events }.setReporter
          (if hasHeatBeats then .beating events now else .checking events true))
  | discarded {events : List DurEvent} {now : UInt64} {hasHeatBeats : Bool} {answer : Answer}
      (hthread : statistics.reportThread = some (.answered events now hasHeatBeats answer))
      (hdiscards : answer.discards = true) :
      ReporterMove statistics input
        ({ statistics with persistence := statistics.persistence.delete events }.setReporter .loop)
  | failed {events : List DurEvent} {now : UInt64} {hasHeatBeats : Bool} {answer : Answer}
      (hthread : statistics.reportThread = some (.answered events now hasHeatBeats answer))
      (hopen : answer.settles = false) :
      ReporterMove statistics input (statistics.setReporter (.checking events false))
  | beaten {events : List DurEvent} {now : UInt64}
      (hthread : statistics.reportThread = some (.beating events now))
      (hfree : statistics.handler = none) (hlater : now > statistics.localSession.lastTimestamp) :
      ReporterMove statistics input ((saveSession { statistics with
        localSession := { statistics.localSession with lastTimestamp := now } }).setReporter
          (.checking events true))
  | overtaken {events : List DurEvent} {now : UInt64}
      (hthread : statistics.reportThread = some (.beating events now))
      (hfree : statistics.handler = none) (hnot : ¬ now > statistics.localSession.lastTimestamp) :
      ReporterMove statistics input (statistics.setReporter (.checking events true))
  | retry {events : List DurEvent}
      (hthread : statistics.reportThread = some (.checking events false))
      (hrunning : statistics.running = true) :
      ReporterMove statistics input (statistics.setReporter (.building events false))
  | done {events : List DurEvent} {reportSuccess : Bool}
      (hthread : statistics.reportThread = some (.checking events reportSuccess))
      (hdone : reportSuccess = true ∨ statistics.running = false) :
      ReporterMove statistics input (statistics.setReporter .loop)

theorem reporterMove_of_step {input : ReporterInput}
    (h : statistics.reporterStep input = some next) : statistics.ReporterMove input next := by
  unfold reporterStep at h
  split at h
  · cases h
  · cases h
  · rename_i hthread
    obtain rfl := Option.some.inj h
    split
    · rename_i hrunning
      exact .goOn hthread hrunning
    · rename_i hrunning
      exact .leave hthread (Bool.not_eq_true _ ▸ hrunning)
  · rename_i hthread
    obtain ⟨⟨events, queue⟩, htake, rfl⟩ := Option.map_eq_some_iff.mp h
    exact .take hthread htake
  · rename_i events reportSuccess hthread
    rcases hbuild : statistics.buildReports input.now events false with
      ⟨built, reports, hasHeatBeats⟩
    rw [hbuild] at h
    obtain rfl := Option.some.inj h
    split
    · rename_i hnothing
      exact .skip hthread (hnothing ▸ hbuild)
    · rename_i hsome
      exact .post hthread hbuild hsome
  · rename_i hthread
    obtain rfl := Option.some.inj h
    exact .answer hthread
  · rename_i events now hasHeatBeats answer hthread
    dsimp only at h
    split at h
    · rename_i hsuccess
      obtain rfl := Option.some.inj h
      exact .delivered (hsuccess ▸ hthread)
    · rename_i hfailed
      split at h
      · rename_i hdiscards
        obtain rfl := Option.some.inj h
        exact .discarded hthread hdiscards
      · rename_i hopen
        obtain rfl := Option.some.inj h
        refine .failed hthread ?_
        rw [Answer.settles, decide_eq_false hfailed, Bool.false_or]
        exact Bool.not_eq_true _ ▸ hopen
  · rename_i events now hthread
    split at h
    · rename_i hfree
      obtain rfl := Option.some.inj h
      dsimp only
      split
      · rename_i hlater
        exact .beaten hthread hfree hlater
      · rename_i hnot
        exact .overtaken hthread hfree hnot
    · cases h
  · rename_i events reportSuccess hthread
    obtain rfl := Option.some.inj h
    split
    · rename_i hagain
      obtain ⟨hfailed, hrunning⟩ := Bool.and_eq_true_iff.mp hagain
      rw [Bool.not_eq_true'] at hfailed
      subst hfailed
      exact .retry hthread hrunning
    · rename_i hleaves
      refine .done hthread ?_
      revert hleaves
      cases reportSuccess <;> simp

end Statistics

/-! ### The batch -/

/-- What an entry of a batch keeps, whatever the reporter does to it. -/
def DurEvent.tag (event : DurEvent) : Nat × EventAction := (event.id, event.action)

namespace Reporter

def batch : Reporter → List DurEvent
  | .building events _ | .posting events _ _ _ | .answered events _ _ _ | .beating events _
  | .checking events _ => events
  | .loop | .waiting | .exited => []

/-- The fate of the batch is still open. -/
def undecided : Reporter → Bool
  | .building _ _ | .posting _ _ _ _ => true
  | .answered _ _ _ answer => !answer.settles
  | .checking _ reportSuccess => !reportSuccess
  | .loop | .waiting | .beating _ _ | .exited => false

end Reporter

theorem buildReports_tag (statistics : Statistics) (now : UInt64) (events : List DurEvent)
    (hasHeatBeats : Bool) :
    (statistics.buildReports now events hasHeatBeats).1.map DurEvent.tag
      = events.map DurEvent.tag := by
  induction events generalizing hasHeatBeats with
  | nil => rfl
  | cons event rest ih =>
      simp only [Statistics.buildReports]
      split
      · simp only [List.map_cons, ih]
      · split
        · simp only [List.map_cons, ih]
        · simp only [List.map_cons, ih]
          rfl

theorem heatBeat_of_buildReports_eq_nil {statistics : Statistics} {now : UInt64}
    {events : List DurEvent} {hasHeatBeats : Bool}
    (h : (statistics.buildReports now events hasHeatBeats).2.1 = []) :
    ∀ event ∈ events, event.action = .heatBeat := by
  induction events generalizing hasHeatBeats with
  | nil =>
      intro event hevent
      cases hevent
  | cons first rest ih =>
      simp only [Statistics.buildReports] at h
      split at h
      · cases h
      · rename_i hfirst
        split at h
        · intro event hevent
          rcases List.mem_cons.mp hevent with rfl | hrest
          · exact not_not.mp hfirst
          · exact ih h event hrest
        · cases h

namespace Account

variable {account : Account} {next : Statistics} {entry : Entry} {position : Nat}

def Took (account : Account) (events : List DurEvent) : Prop :=
  events.length ≤ account.taken ∧ events.map DurEvent.tag
    = ((account.entries.take account.taken).drop (account.taken - events.length)).map
      fun entry => entry.event.tag

theorem took_nil (account : Account) : account.Took [] := by
  refine ⟨Nat.zero_le _, ?_⟩
  rw [List.drop_eq_nil_of_le (by simp)]
  rfl

theorem Took.exists_event {events : List DurEvent} (h : account.Took events)
    (hentry : account.entries[position]? = some entry)
    (hlow : account.taken - events.length ≤ position) (hhigh : position < account.taken) :
    ∃ event ∈ events, event.tag = entry.event.tag := by
  obtain ⟨hle, htags⟩ := h
  have hget := congrArg (fun tags => tags[position - (account.taken - events.length)]?) htags
  simp only [List.getElem?_map, List.getElem?_drop, Nat.add_sub_cancel' hlow,
    List.getElem?_take_of_lt hhigh, hentry, Option.map_some] at hget
  obtain ⟨event, hevent, htag⟩ := Option.map_eq_some_iff.mp hget
  exact ⟨event, List.mem_of_getElem? hevent, htag⟩

/-- Where an unsettled entry that has been taken is. -/
def Held (account : Account) (position : Nat) : Prop :=
  (∃ reporter, account.statistics.reportThread = some reporter ∧ reporter.undecided = true
      ∧ account.taken - reporter.batch.length ≤ position)
    ∨ (account.statistics.running = false ∧ (account.statistics.reportThread = some .loop
      ∨ account.statistics.reportThread = some .exited))
    ∨ account.statistics.terminated = true

structure Tracked (account : Account) : Prop where
  queued : (account.entries.drop account.taken).map (·.event)
    = account.statistics.reportQueue.queue
  taken_le : account.taken ≤ account.entries.length
  took : ∀ reporter, account.statistics.reportThread = some reporter → account.Took reporter.batch
  unstarted : account.statistics.reportThread = none → account.taken = 0
  acting : ∀ entry ∈ account.entries, entry.ticket ≠ none → entry.event.action ≠ .heatBeat
  handler : ∀ handler, account.statistics.handler = some handler → handler.event.action ≠ .heatBeat
  held : ∀ position entry, account.entries[position]? = some entry → entry.ticket ≠ none →
    account.settled position = false → position < account.taken → account.Held position

/-- A step that keeps the contents of the queue and the place of the reporter. -/
theorem Tracked.congr (h : account.Tracked)
    (hqueue : next.reportQueue.queue = account.statistics.reportQueue.queue)
    (hthread : next.reportThread = account.statistics.reportThread)
    (hhandler : ∀ handler, next.handler = some handler → handler.event.action ≠ .heatBeat)
    (hrunning : account.statistics.running = false → next.running = false)
    (hterminated : account.statistics.terminated = true → next.terminated = true)
    (stored : List DurEvent) :
    ({ account with statistics := next, stored := stored } : Account).Tracked := by
  refine ⟨?_, h.taken_le, ?_, ?_, h.acting, hhandler, ?_⟩
  · rw [hqueue]
    exact h.queued
  · rw [hthread]
    exact h.took
  · rw [hthread]
    exact h.unstarted
  · intro position entry hentry hticket hopen hlt
    simp only [Held, hthread]
    exact (h.held position entry hentry hticket hopen hlt).imp_right
      (Or.imp (And.imp_left hrunning) hterminated)

theorem Tracked.enqueue (h : account.Tracked)
    (hqueue : next.reportQueue.queue = account.statistics.reportQueue.queue ++ [entry.event])
    (hthread : next.reportThread = account.statistics.reportThread)
    (hrunning : next.running = account.statistics.running)
    (hterminated : next.terminated = account.statistics.terminated)
    (hhandler : ∀ handler, next.handler = some handler → handler.event.action ≠ .heatBeat)
    (hentry : entry.ticket ≠ none → entry.event.action ≠ .heatBeat) :
    ({ account with statistics := next, entries := account.entries ++ [entry] } : Account).Tracked
    := by
  have htake : (account.entries ++ [entry]).take account.taken
      = account.entries.take account.taken :=
    List.take_append_of_le_length h.taken_le
  refine ⟨?_, ?_, ?_, ?_, ?_, hhandler, ?_⟩
  · rw [List.drop_append_of_le_length h.taken_le, List.map_append, h.queued, hqueue]
    rfl
  · rw [List.length_append]
    exact Nat.le_add_right_of_le h.taken_le
  · rw [hthread]
    intro reporter hreporter
    simp only [Took, htake]
    exact h.took reporter hreporter
  · rw [hthread]
    exact h.unstarted
  · intro other hother
    rcases List.mem_append.mp hother with hold | hnew
    · exact h.acting other hold
    · rw [List.mem_singleton.mp hnew]
      exact hentry
  · intro position other hother hticket hopen hlt
    rw [List.getElem?_append_left (Nat.lt_of_lt_of_le hlt h.taken_le)] at hother
    simp only [Held, hthread, hrunning, hterminated]
    exact h.held position other hother hticket hopen hlt

theorem Tracked.move (h : account.Tracked) {before after : Reporter}
    (hbefore : account.statistics.reportThread = some before)
    (hafter : next.reportThread = some after)
    (hqueue : next.reportQueue = account.statistics.reportQueue)
    (hrunning : next.running = account.statistics.running)
    (hterminated : next.terminated = account.statistics.terminated)
    (hhandler : next.handler = account.statistics.handler)
    (hbatch : after.batch = [] ∨ after.batch.map DurEvent.tag = before.batch.map DurEvent.tag)
    (hundecided : before.undecided = true → (∀ event ∈ before.batch, event.action = .heatBeat)
      ∨ (after.undecided = true ∧ after.batch.length = before.batch.length)
      ∨ (account.statistics.running = false ∧ (after = .loop ∨ after = .exited)))
    (hidle : before = .loop ∨ before = .exited → account.statistics.running = false →
      after = .loop ∨ after = .exited) :
    ({ account with statistics := next } : Account).Tracked := by
  refine ⟨?_, h.taken_le, ?_, ?_, h.acting, ?_, ?_⟩
  · rw [hqueue]
    exact h.queued
  · intro reporter hreporter
    obtain rfl := Option.some.inj (hafter.symm.trans hreporter)
    rcases hbatch with hnil | hsame
    · rw [hnil]
      exact took_nil _
    · have hlength : after.batch.length = before.batch.length := by
        simpa using congrArg List.length hsame
      have htook := h.took before hbefore
      unfold Took at htook ⊢
      rw [hsame, hlength]
      exact htook
  · intro hnone
    rw [hafter] at hnone
    cases hnone
  · rw [hhandler]
    exact h.handler
  · intro position other hother hticket hopen hlt
    simp only [Held, hafter, hrunning, hterminated, Option.some.injEq, exists_eq_left']
    rcases h.held position other hother hticket hopen hlt with ⟨reporter, hreporter, hopen', hlow⟩
      | ⟨hstopped, hat⟩ | hdead
    · obtain rfl := Option.some.inj (hbefore.symm.trans hreporter)
      rcases hundecided hopen' with hbeats | ⟨hafter', hlength⟩ | hgone
      · obtain ⟨event, hevent, htag⟩ := (h.took before hbefore).exists_event hother hlow hlt
        have haction : event.action = other.event.action := (Prod.mk.inj htag).2
        have hacting := h.acting other (List.mem_of_getElem? hother) hticket
        exact absurd (haction.symm.trans (hbeats event hevent)) hacting
      · rw [hlength]
        exact Or.inl ⟨hafter', hlow⟩
      · exact Or.inr (Or.inl hgone)
    · refine Or.inr (Or.inl ⟨hstopped, hidle ?_ hstopped⟩)
      rw [hbefore] at hat
      exact hat.imp Option.some.inj Option.some.inj
    · exact Or.inr (Or.inr hdead)

theorem Tracked.take (h : account.Tracked) (halive : account.statistics.terminated = false)
    (hthread : account.statistics.reportThread = some .waiting) {events : List DurEvent}
    {queue : BlockingQueue DurEvent}
    (htake : account.statistics.reportQueue.take maxReportEvents = some (events, queue))
    (uninitialized : Bool) :
    ({ account with
        statistics := { account.statistics with
          reportQueue := queue, reportThread := some (.building events uninitialized) }
        taken := account.taken
          + (account.statistics.reportQueue.queue.length - queue.queue.length) } : Account).Tracked
    := by
  obtain ⟨count, hcount, hevents, rfl⟩ := BlockingQueue.take_spec htake
  have hlength : events.length = count := by
    rw [hevents, List.length_take, Nat.min_eq_left hcount]
  have hdiff : account.statistics.reportQueue.queue.length
      - (account.statistics.reportQueue.queue.drop count).length = count := by
    rw [List.length_drop]
    omega
  have hroom : account.taken + count ≤ account.entries.length := by
    have hqueued := congrArg List.length h.queued
    rw [List.length_map, List.length_drop] at hqueued
    have htaken := h.taken_le
    omega
  rw [hdiff]
  refine ⟨?_, hroom, ?_, ?_, h.acting, h.handler, ?_⟩
  · rw [← List.drop_drop, List.map_drop, h.queued]
  · rintro _ ⟨⟩
    refine ⟨?_, ?_⟩
    · simp only [Reporter.batch, hlength]
      exact Nat.le_add_left _ _
    · simp only [Reporter.batch, hlength, Nat.add_sub_cancel]
      have hstretch : (account.entries.take (account.taken + count)).drop account.taken
          = (account.entries.drop account.taken).take count := by
        rw [List.drop_take, Nat.add_sub_cancel_left]
      rw [hstretch, List.map_take, hevents, ← h.queued, List.map_take, List.map_map]
      rfl
  · intro hnone
    cases hnone
  · intro position entry hentry hticket hopen hlt
    by_cases hold : position < account.taken
    · -- the reporter had nothing in its hands
      exfalso
      rcases h.held position entry hentry hticket hopen hold with
        ⟨reporter, hreporter, hundecided, _⟩ | ⟨_, hat⟩ | hdead
      · obtain rfl := Option.some.inj (hthread.symm.trans hreporter)
        cases hundecided
      · rw [hthread] at hat
        rcases hat with hat | hat <;> cases hat
      · rw [halive] at hdead
        cases hdead
    · refine Or.inl ⟨_, rfl, rfl, ?_⟩
      simp only [Reporter.batch, hlength]
      omega

theorem Tracked.answer (h : account.Tracked) {events reports : List DurEvent} {now : UInt64}
    {hasHeatBeats : Bool}
    (hthread : account.statistics.reportThread = some (.posting events reports now hasHeatBeats))
    (answer : Answer) :
    ({ account with
        statistics := account.statistics.setReporter (.answered events now hasHeatBeats answer)
        settled := fun position => account.settled position
          || (answer.settles && decide (account.taken - events.length ≤ position)
            && decide (position < account.taken)) } : Account).Tracked := by
  refine ⟨h.queued, h.taken_le, ?_, ?_, h.acting, h.handler, ?_⟩
  · rintro _ ⟨⟩
    exact h.took (.posting events reports now hasHeatBeats) hthread
  · intro hnone
    cases hnone
  · intro position entry hentry hticket hopen hlt
    obtain ⟨hold, hnew⟩ := Bool.or_eq_false_iff.mp hopen
    rcases h.held position entry hentry hticket hold hlt with ⟨reporter, hreporter, _, hlow⟩
      | ⟨_, hat⟩ | hdead
    · obtain rfl := Option.some.inj (hthread.symm.trans hreporter)
      have hlow' : account.taken - events.length ≤ position := hlow
      simp only [hlow', hlt, decide_true, Bool.and_true] at hnew
      exact Or.inl ⟨_, rfl, by simp only [Reporter.undecided, hnew, Bool.not_false], hlow⟩
    · rw [hthread] at hat
      rcases hat with hat | hat <;> cases hat
    · exact Or.inr (Or.inr hdead)

theorem Tracked.reporterStep (h : account.Tracked)
    (halive : account.statistics.terminated = false) {input : Statistics.ReporterInput}
    (hstep : account.statistics.reporterStep input = some next) :
    (account.recordReporter input next).Tracked := by
  unfold recordReporter
  cases Statistics.reporterMove_of_step hstep with
  | goOn hthread hrunning =>
      rw [hthread]
      refine h.move hthread rfl rfl rfl rfl rfl (Or.inl rfl) nofun fun _ hstopped => ?_
      rw [hrunning] at hstopped
      cases hstopped
  | leave hthread _ =>
      rw [hthread]
      exact h.move hthread rfl rfl rfl rfl rfl (Or.inl rfl) nofun fun _ _ => Or.inr rfl
  | take hthread htake =>
      rw [hthread]
      exact h.take halive hthread htake input.uninitialized
  | @skip events built _ _ hthread hbuild =>
      have htags := buildReports_tag account.statistics input.now events false
      have hbeats : ∀ event ∈ events, event.action = .heatBeat :=
        heatBeat_of_buildReports_eq_nil (by rw [hbuild])
      rw [hbuild] at htags
      rw [hthread]
      exact h.move hthread rfl rfl rfl rfl rfl (Or.inr htags) (fun _ => Or.inl hbeats)
        fun hat => hat.elim nofun nofun
  | @post events built _ _ _ hthread hbuild _ =>
      have htags := buildReports_tag account.statistics input.now events false
      rw [hbuild] at htags
      have hlengths : built.length = events.length := by
        simpa using congrArg List.length htags
      rw [hthread]
      exact h.move hthread rfl rfl rfl rfl rfl (Or.inr htags)
        (fun _ => Or.inr (Or.inl ⟨rfl, hlengths⟩)) fun hat => hat.elim nofun nofun
  | answer hthread =>
      rw [hthread]
      exact h.answer hthread input.answer
  | delivered hthread =>
      rw [hthread]
      refine h.move hthread rfl rfl rfl rfl rfl (Or.inr ?_) nofun fun hat => hat.elim nofun nofun
      split <;> rfl
  | discarded hthread hdiscards =>
      rw [hthread]
      refine h.move hthread rfl rfl rfl rfl rfl (Or.inl rfl) (fun hundecided => ?_)
        fun hat => hat.elim nofun nofun
      rw [Reporter.undecided, Answer.settles, hdiscards, Bool.or_true] at hundecided
      cases hundecided
  | failed hthread _ =>
      rw [hthread]
      exact h.move hthread rfl rfl rfl rfl rfl (Or.inr rfl)
        (fun _ => Or.inr (Or.inl ⟨rfl, rfl⟩)) fun hat => hat.elim nofun nofun
  | @beaten events now hthread _ _ =>
      have hsame := Statistics.sameReporting_saveSession { account.statistics with
        localSession := { account.statistics.localSession with lastTimestamp := now } }
      rw [hthread]
      exact h.move hthread rfl hsame.reportQueue hsame.running hsame.terminated
        Statistics.saveSession_handler (Or.inr rfl) nofun fun hat => hat.elim nofun nofun
  | overtaken hthread _ _ =>
      rw [hthread]
      exact h.move hthread rfl rfl rfl rfl rfl (Or.inr rfl) nofun fun hat => hat.elim nofun nofun
  | retry hthread _ =>
      rw [hthread]
      exact h.move hthread rfl rfl rfl rfl rfl (Or.inr rfl)
        (fun _ => Or.inr (Or.inl ⟨rfl, rfl⟩)) fun hat => hat.elim nofun nofun
  | done hthread hdone =>
      rw [hthread]
      refine h.move hthread rfl rfl rfl rfl rfl (Or.inl rfl) (fun hundecided => ?_)
        fun hat => hat.elim nofun nofun
      rw [Reporter.undecided, Bool.not_eq_true'] at hundecided
      rw [hundecided] at hdone
      exact Or.inr (Or.inr ⟨hdone.resolve_left nofun, Or.inl rfl⟩)

theorem Tracked.refreshConfig (h : account.Tracked) (config : ReportConfig) :
    ({ account with statistics := account.statistics.refreshConfig config true } : Account).Tracked
    := by
  obtain ⟨_, _, hqueue, hhandler, _, _, _, heffect⟩ := account.statistics.refreshConfig_spec config
  have hacting : ∀ handler, (account.statistics.refreshConfig config true).handler = some handler →
      handler.event.action ≠ .heatBeat := by
    rw [hhandler]
    exact h.handler
  split at heffect
  · obtain ⟨hrunning, hthread, _, hterminated⟩ := heffect
    exact h.congr hqueue hthread hacting (fun hstopped => hrunning.trans hstopped)
      (fun hdead => hterminated.trans hdead) account.stored
  · split at heffect
    · -- a thread is started; if there was one, the process ends
      obtain ⟨_, hthread, _, hterminated⟩ := heffect
      refine ⟨?_, h.taken_le, ?_, ?_, h.acting, hacting, ?_⟩
      · rw [hqueue]
        exact h.queued
      · rw [hthread]
        rintro _ ⟨⟩
        exact took_nil _
      · rw [hthread]
        intro hnone
        cases hnone
      · intro position entry _ _ _ hlt
        refine Or.inr (Or.inr ?_)
        rw [hterminated, Bool.or_eq_true]
        right
        cases hbefore : account.statistics.reportThread with
        | some reporter => rfl
        | none =>
            rw [h.unstarted hbefore] at hlt
            exact absurd hlt (Nat.not_lt_zero position)
    · obtain ⟨hrunning, hthread, _, hterminated⟩ := heffect
      exact h.congr hqueue hthread hacting (fun _ => hrunning)
        (fun hdead => hterminated.trans hdead) account.stored

/-! ### Every step -/

theorem Tracked.handlerStep (h : account.Tracked)
    (hstep : account.statistics.handlerStep = some next) :
    (account.recordHandler next).Tracked := by
  obtain ⟨event, step, todo, hhandler, heffect⟩ := Statistics.handlerStep_cases hstep
  have haction := h.handler _ hhandler
  have hremaining : ∀ (after : DurEvent), after.action = event.action → ∀ handler,
      Statistics.remaining after todo = some handler → handler.event.action ≠ .heatBeat := by
    intro after hafter handler hleft
    unfold Statistics.remaining at hleft
    split at hleft
    · cases hleft
    · obtain rfl := Option.some.inj hleft
      exact hafter ▸ haction
  unfold recordHandler
  rw [hhandler]
  rcases heffect with ⟨rfl, rfl⟩ | ⟨rfl, queue, hqueue, rfl⟩ | ⟨hstores, hputs, hsame, hleft⟩
  · apply h.congr
    · rfl
    · rfl
    · apply hremaining
      simp only [DurPersistence.addOrMergeEvent, DurPersistence.insertEvent]
      repeat' split
      all_goals rfl
    · exact id
    · exact id
  · exact @Tracked.enqueue account _ ⟨event, some (account.stored.length - 1)⟩ h
      (congrArg (·.queue) (BlockingQueue.put_spec hqueue)) rfl rfl rfl
        (hremaining event rfl) fun _ => haction
  · have hplain : ({ account with statistics := next } : Account).Tracked :=
      h.congr (by rw [hsame.reportQueue]) hsame.reportThread
        (by rw [hleft]; exact hremaining event rfl) (fun hstopped => hsame.running.trans hstopped)
        (fun hdead => hsame.terminated.trans hdead) account.stored
    cases step with
    | addOrMergeEvent => exact absurd rfl hstores
    | putEvent => exact absurd rfl hputs
    | startSession => exact hplain
    | touchSession => exact hplain
    | userSession => exact hplain
    | updateSession => exact hplain

theorem Tracked.heatBeat (h : account.Tracked) {now : UInt64}
    (hstep : account.statistics.onlineHeatBeat now = some next) :
    (account.record next (.onlineHeatBeat now)).Tracked := by
  rcases Statistics.onlineHeatBeat_cases hstep with rfl | ⟨queue, event, hqueue, rfl⟩
  · simp only [record, List.drop_length, List.map_nil, List.append_nil]
    exact h
  · have hnew : queue.queue.drop account.statistics.reportQueue.queue.length = [event] := by
      rw [hqueue, List.drop_left]
    simp only [record, hnew, List.map_cons, List.map_nil]
    exact @Tracked.enqueue account _ ⟨event, none⟩ h hqueue rfl rfl rfl h.handler
      fun hticket => absurd rfl hticket

theorem Tracked.prepare (h : account.Tracked) (hprepares : account.statistics.Prepares next) :
    ({ account with statistics := next } : Account).Tracked := by
  obtain ⟨hsame, hfresh⟩ := hprepares
  exact h.congr (by rw [hsame.reportQueue]) hsame.reportThread
    (fun handler hhandler => (hfresh handler hhandler).action)
    (fun hstopped => hsame.running.trans hstopped) (fun hdead => hsame.terminated.trans hdead)
    account.stored

end Account

theorem Statistics.prepares_of_locked {statistics started next : Statistics}
    (hprepares : statistics.handler = none → statistics.Prepares started)
    (h : statistics.locked started = some next) : statistics.Prepares next := by
  unfold locked at h
  split at h
  · rename_i hidle
    exact Option.some.inj h ▸ hprepares hidle
  · cases h

namespace Account

variable {account after : Account} {op : Statistics.Op}

theorem Tracked.step (h : account.Tracked) (hstep : account.step op = some after) :
    after.Tracked := by
  obtain ⟨next, hnext, rfl⟩ := Option.map_eq_some_iff.mp hstep
  unfold Statistics.step at hnext
  split at hnext
  · cases hnext
  rename_i halive
  rw [Bool.not_eq_true] at halive
  cases op with
  | gameStart gameId gamePkg now =>
      exact h.prepare (Statistics.prepares_of_locked
        (fun _ => Statistics.prepares_gameStart gameId gamePkg now) hnext)
  | onForeground now =>
      exact h.prepare (Statistics.prepares_of_locked
        (fun hidle => Statistics.prepares_onWindow hidle true now) hnext)
  | onBackground now =>
      exact h.prepare (Statistics.prepares_of_locked
        (fun hidle => Statistics.prepares_onWindow hidle false now) hnext)
  | onNewUser user now =>
      exact h.prepare (Statistics.prepares_of_locked
        (fun hidle => Statistics.prepares_onNewUser hidle user now) hnext)
  | handler => exact h.handlerStep hnext
  | localHeatBeat now =>
      obtain rfl := Option.some.inj hnext
      obtain ⟨hsame, hhandler⟩ := account.statistics.sameReporting_localHeatBeat now
      exact h.congr (by rw [hsame.reportQueue]) hsame.reportThread
        (by rw [hhandler]; exact h.handler)
        (fun hstopped => hsame.running.trans hstopped)
        (fun hdead => hsame.terminated.trans hdead) account.stored
  | onlineHeatBeat now => exact h.heatBeat hnext
  | reporter input => exact h.reporterStep halive hnext
  | refreshConfig config =>
      obtain rfl := Option.some.inj hnext
      exact h.refreshConfig config

end Account

end TapSdk.Duration
