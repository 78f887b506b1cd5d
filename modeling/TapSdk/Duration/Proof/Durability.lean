import TapSdk.Duration.Proof.Tracking

/-!
# An event is in the database until it is settled

`AddOrMergeEvent` gives an event the id of the newest row when the two match, and the reporter
deletes the rows of a batch by id. A batch that is deleted while another event with one of its ids
is still on its way takes that event's row along. Along the runs in which this does not happen,
every event that a handler has put in the queue keeps its row until it is delivered or discarded.
-/

namespace TapSdk.Duration

open Library

/-! ### Storage -/

/-- The row of the event is there: with the event itself, or with one that was merged into it
later. `stored` lists what was stored, in order. -/
def Kept (stored : List DurEvent) (table : Table DurEvent) (ticket : Nat) (event : DurEvent) :
    Prop :=
  stored[ticket]? = some event ∧ ∃ later row, ticket ≤ later ∧ stored[later]? = some row
    ∧ row.id = event.id ∧ row.action = event.action ∧ row.session = event.session
    ∧ table.find event.id = some row

variable {stored : List DurEvent} {storage : DurPersistence} {table : Table DurEvent} {ticket : Nat}
  {event : DurEvent}

theorem addOrMergeEvent_cases (storage : DurPersistence) (event : DurEvent) :
    (storage.addOrMergeEvent event = storage.insertEvent event)
      ∨ ∃ id old, storage.events.find id = some old
        ∧ event.action = old.action ∧ old.session = event.session
        ∧ storage.addOrMergeEvent event = ({ event with id := id },
          { storage with events := storage.events.update id { event with id := id } }) := by
  unfold DurPersistence.addOrMergeEvent
  split
  · rename_i id old hlatest
    split
    · rename_i hmatches
      exact Or.inr ⟨id, old, Table.find_of_latest hlatest, hmatches.1, hmatches.2, rfl⟩
    · exact Or.inl rfl
  · exact Or.inl rfl

theorem kept_addOrMergeEvent (stored : List DurEvent) (storage : DurPersistence)
    (event : DurEvent) :
    Kept (stored ++ [(storage.addOrMergeEvent event).1]) (storage.addOrMergeEvent event).2.events
      stored.length (storage.addOrMergeEvent event).1 := by
  refine ⟨List.getElem?_concat_length, stored.length, _, Nat.le_refl _,
    List.getElem?_concat_length, rfl, rfl, rfl, ?_⟩
  rcases addOrMergeEvent_cases storage event with hinsert | ⟨id, old, hold, _, _, hmerge⟩
  · rw [hinsert]
    exact Table.find_insert_self
  · rw [hmerge]
    exact Table.find_update_self hold

theorem Kept.addOrMergeEvent (h : Kept stored storage.events ticket event) (new : DurEvent) :
    Kept (stored ++ [(storage.addOrMergeEvent new).1]) (storage.addOrMergeEvent new).2.events ticket
      event := by
  obtain ⟨hticket, later, row, hlater, hrow, hid, haction, hsession, hfind⟩ := h
  have hticketLt : ticket < stored.length := (List.getElem?_eq_some_iff.mp hticket).1
  have hlaterLt : later < stored.length := (List.getElem?_eq_some_iff.mp hrow).1
  refine ⟨by rw [List.getElem?_append_left hticketLt, hticket], ?_⟩
  rcases addOrMergeEvent_cases storage new with hinsert | ⟨id, old, hold, hsameAction,
    hsameSession, hmerge⟩
  · rw [hinsert]
    exact ⟨later, row, hlater, by rw [List.getElem?_append_left hlaterLt, hrow], hid, haction,
      hsession, Table.find_insert_of_some hfind⟩
  · rw [hmerge]
    by_cases hsame : event.id = id
    · -- the new event goes into the row of this one
      have hrow' : row = old := by
        rw [hsame, hold] at hfind
        exact (Option.some.inj hfind).symm
      subst hrow'
      refine ⟨stored.length, { new with id := id }, Nat.le_of_lt hticketLt,
        List.getElem?_concat_length, hsame.symm, hsameAction.trans haction,
        hsameSession.symm.trans hsession, ?_⟩
      rw [hsame]
      exact Table.find_update_self hold
    · exact ⟨later, row, hlater, by rw [List.getElem?_append_left hlaterLt, hrow], hid, haction,
        hsession, by rw [Table.find_update_of_ne hsame, hfind]⟩

theorem find_delete_of_notMem {events : List DurEvent} {id : Nat}
    (h : ∀ event ∈ events, event.id ≠ 0 → event.id ≠ id) :
    (storage.delete events).events.find id = storage.events.find id := by
  simp only [DurPersistence.delete]
  generalize storage.events = table
  induction events generalizing table with
  | nil => rfl
  | cons first rest ih =>
      rw [List.foldl_cons, ih fun event hevent => h event (List.mem_cons_of_mem _ hevent)]
      split
      · rename_i hnonzero
        exact Table.find_remove_of_ne (h first List.mem_cons_self hnonzero).symm
      · rfl

theorem Kept.delete {events : List DurEvent} (h : Kept stored storage.events ticket event)
    (hothers : ∀ other ∈ events, other.id ≠ 0 → other.id ≠ event.id) :
    Kept stored (storage.delete events).events ticket event := by
  obtain ⟨hticket, later, row, hlater, hrow, hid, haction, hsession, hfind⟩ := h
  exact ⟨hticket, later, row, hlater, hrow, hid, haction, hsession,
    (find_delete_of_notMem hothers).trans hfind⟩

/-! ### Runs -/

/-- The batch that is about to be deleted shares no id with an event that is in the queue, or that a
handler has stored and will put there next. -/
def Statistics.DeletesOnlyOwn (statistics : Statistics) : Statistics.Op → Prop
  | .reporter _ => ∀ events now hasHeatBeats answer,
      statistics.reportThread = some (.answered events now hasHeatBeats answer) →
      answer.settles = true → ∀ event ∈ events, event.id ≠ 0 →
        (∀ other ∈ statistics.reportQueue.queue, event.id ≠ other.id)
          ∧ ∀ other todo, statistics.handler = some ⟨other, .putEvent :: todo⟩ → event.id ≠ other.id
  | _ => True

/-- A test of the condition. -/
def Statistics.deletesOnlyOwn (statistics : Statistics) : Statistics.Op → Bool
  | .reporter _ => match statistics.reportThread with
      | some (.answered events _ _ answer) => !answer.settles || events.all fun event =>
          event.id = 0 || (statistics.reportQueue.queue.all (fun other => event.id ≠ other.id)
            && statistics.handler.all fun handler =>
              handler.todo.head? ≠ some .putEvent || event.id ≠ handler.event.id)
      | _ => true
  | _ => true

theorem Statistics.deletesOnlyOwn_of_eq_true {statistics : Statistics} {op : Statistics.Op}
    (h : statistics.deletesOnlyOwn op = true) : statistics.DeletesOnlyOwn op := by
  cases op with
  | reporter input =>
      intro events now hasHeatBeats answer hthread hsettles event hevent hnonzero
      simp only [deletesOnlyOwn, hthread, hsettles, Bool.not_true, Bool.false_or,
        List.all_eq_true] at h
      have hothers := h event hevent
      simp only [hnonzero, decide_false, Bool.false_or, Bool.and_eq_true, List.all_eq_true,
        decide_eq_true_eq] at hothers
      refine ⟨hothers.1, fun other todo hhandler => ?_⟩
      simpa [hhandler] using hothers.2
  | _ => trivial

theorem Statistics.reporterStep_rows {statistics next : Statistics} {input : ReporterInput}
    (h : statistics.reporterStep input = some next) :
    next.handler = statistics.handler
      ∧ (next.persistence.events = statistics.persistence.events
        ∨ ∃ events now hasHeatBeats answer,
          statistics.reportThread = some (.answered events now hasHeatBeats answer)
            ∧ answer.settles = true
            ∧ next.persistence.events = (statistics.persistence.delete events).events) := by
  cases reporterMove_of_step h with
  | delivered hthread => exact ⟨rfl, Or.inr ⟨_, _, _, _, hthread, rfl, rfl⟩⟩
  | discarded hthread hdiscards =>
      refine ⟨rfl, Or.inr ⟨_, _, _, _, hthread, ?_, rfl⟩⟩
      rw [Answer.settles, hdiscards, Bool.or_true]
  | beaten _ _ _ => exact ⟨saveSession_handler, Or.inl (sameReporting_saveSession _).events⟩
  | _ => exact ⟨rfl, Or.inl rfl⟩

namespace Account

variable {account after : Account} {op : Statistics.Op} {next : Statistics}

structure Durable (account : Account) : Prop where
  tracked : account.Tracked
  -- The handler has not stored its event, or it has, and puts it in the queue next.
  handler : ∀ event todo, account.statistics.handler = some ⟨event, todo⟩ →
    orderly todo = true ∧ (todo.head? = some .putEvent →
      0 < account.stored.length ∧ Kept account.stored account.statistics.persistence.events
        (account.stored.length - 1) event)
  kept : ∀ position entry ticket, account.entries[position]? = some entry →
    entry.ticket = some ticket → account.settled position = false →
    Kept account.stored account.statistics.persistence.events ticket entry.event

theorem Durable.congr (h : account.Durable) (htracked : after.Tracked)
    (hstored : after.stored = account.stored)
    (hevents : after.statistics.persistence.events = account.statistics.persistence.events)
    (hhandler : ∀ event todo, after.statistics.handler = some ⟨event, todo⟩ →
      account.statistics.handler = some ⟨event, todo⟩
        ∨ (orderly todo = true ∧ todo.head? ≠ some .putEvent))
    (hentries : ∀ position entry ticket, after.entries[position]? = some entry →
      entry.ticket = some ticket → after.settled position = false →
      account.entries[position]? = some entry ∧ account.settled position = false) :
    after.Durable := by
  refine ⟨htracked, ?_, ?_⟩
  · intro event todo hrunning
    rw [hstored, hevents]
    rcases hhandler event todo hrunning with hsame | ⟨horderly, hhead⟩
    · exact h.handler event todo hsame
    · exact ⟨horderly, fun hput => absurd hput hhead⟩
  · intro position entry ticket hentry hticket hopen
    obtain ⟨hentry', hopen'⟩ := hentries position entry ticket hentry hticket hopen
    rw [hstored, hevents]
    exact h.kept position entry ticket hentry' hticket hopen'

/-- What is left of an orderly handler is orderly, and the event is next to be put in the queue only
if it has just been stored. -/
theorem orderly_tail {step : HandlerStep} {todo : List HandlerStep}
    (h : orderly (step :: todo) = true) :
    orderly todo = true ∧ (step ≠ .addOrMergeEvent → todo.head? ≠ some .putEvent) := by
  cases todo with
  | nil => exact ⟨rfl, fun _ hhead => by cases hhead⟩
  | cons second rest =>
      simp only [orderly, Bool.and_eq_true, Bool.or_eq_true, decide_eq_true_eq] at h
      refine ⟨h.2, fun hstep hhead => ?_⟩
      rcases h.1 with hsecond | hfirst
      · exact hsecond (Option.some.inj hhead)
      · exact hstep hfirst

theorem handler_of_remaining {event other : DurEvent} {todo todo' : List HandlerStep}
    (h : Statistics.remaining event todo = some ⟨other, todo'⟩) : other = event ∧ todo' = todo := by
  unfold Statistics.remaining at h
  split at h
  · cases h
  · cases h
    exact ⟨rfl, rfl⟩

theorem Durable.handlerStep (h : account.Durable)
    (hstep : account.statistics.handlerStep = some next) :
    (account.recordHandler next).Durable := by
  have htracked := h.tracked.handlerStep hstep
  obtain ⟨event, step, todo, hhandler, heffect⟩ := Statistics.handlerStep_cases hstep
  obtain ⟨horderly, hready⟩ := h.handler event (step :: todo) hhandler
  obtain ⟨htail, hhead⟩ := orderly_tail horderly
  unfold recordHandler at htracked ⊢
  rw [hhandler] at htracked ⊢
  rcases heffect with ⟨rfl, rfl⟩ | ⟨rfl, queue, hqueue, rfl⟩ | ⟨hstores, hputs, hsame, hleft⟩
  · -- the event is stored
    refine ⟨htracked, ?_, ?_⟩
    · intro other todo' hremains
      obtain ⟨rfl, rfl⟩ := handler_of_remaining hremains
      refine ⟨htail, fun _ => ?_⟩
      simp only [List.length_append, List.length_singleton, Nat.add_sub_cancel]
      exact ⟨Nat.succ_pos _, kept_addOrMergeEvent _ _ _⟩
    · intro position entry ticket hentry hticket hopen
      exact (h.kept position entry ticket hentry hticket hopen).addOrMergeEvent event
  · -- the event is put in the queue
    refine ⟨htracked, ?_, ?_⟩
    · intro other todo' hremains
      obtain ⟨rfl, rfl⟩ := handler_of_remaining hremains
      exact ⟨htail, fun hput => absurd hput (hhead (by decide))⟩
    · intro position entry ticket hentry hticket hopen
      by_cases hlt : position < account.entries.length
      · rw [List.getElem?_append_left hlt] at hentry
        exact h.kept position entry ticket hentry hticket hopen
      · have hmem := List.mem_of_getElem? hentry
        rw [List.getElem?_append_right (Nat.not_lt.mp hlt)] at hentry
        obtain rfl := List.mem_singleton.mp (List.mem_of_getElem? hentry)
        obtain rfl := Option.some.inj hticket
        exact (hready rfl).2
  · have hrest : ({ account with statistics := next } : Account).Tracked → Durable
        { account with statistics := next } := by
      intro htracked
      refine h.congr htracked rfl hsame.events ?_ ?_
      · intro other todo' hremains
        obtain ⟨rfl, rfl⟩ := handler_of_remaining (hleft.symm.trans hremains)
        exact Or.inr ⟨htail, hhead hstores⟩
      · exact fun _ _ _ hentry _ hopen => ⟨hentry, hopen⟩
    cases step with
    | addOrMergeEvent => exact absurd rfl hstores
    | putEvent => exact absurd rfl hputs
    | startSession => exact hrest htracked
    | touchSession => exact hrest htracked
    | userSession => exact hrest htracked
    | updateSession => exact hrest htracked

theorem recordReporter_frame (account : Account) (input : Statistics.ReporterInput)
    (next : Statistics) :
    (account.recordReporter input next).statistics = next
      ∧ (account.recordReporter input next).stored = account.stored
      ∧ (account.recordReporter input next).entries = account.entries
      ∧ ∀ position, (account.recordReporter input next).settled position = false →
        account.settled position = false := by
  unfold recordReporter
  split
  · exact ⟨rfl, rfl, rfl, fun _ hopen => hopen⟩
  · exact ⟨rfl, rfl, rfl, fun _ hopen => (Bool.or_eq_false_iff.mp hopen).1⟩
  · exact ⟨rfl, rfl, rfl, fun _ hopen => hopen⟩

theorem Durable.reporterStep (h : account.Durable)
    (halive : account.statistics.terminated = false) {input : Statistics.ReporterInput}
    (hown : account.statistics.DeletesOnlyOwn (.reporter input))
    (hstep : account.statistics.reporterStep input = some next) :
    (account.recordReporter input next).Durable := by
  have htracked := h.tracked.reporterStep halive hstep
  obtain ⟨hstatistics, hstored, hentries, hsettled⟩ := account.recordReporter_frame input next
  obtain ⟨hhandler, hsame | ⟨events, now, hasHeatBeats, answer, hthread, hsettles, hdeleted⟩⟩ :=
    Statistics.reporterStep_rows hstep
  · refine h.congr htracked hstored (by rw [hstatistics, hsame]) ?_ ?_
    · intro event todo hrunning
      rw [hstatistics, hhandler] at hrunning
      exact Or.inl hrunning
    · intro position entry ticket hentry _ hopen
      rw [hentries] at hentry
      exact ⟨hentry, hsettled position hopen⟩
  · have hothers := hown events now hasHeatBeats answer hthread hsettles
    refine ⟨htracked, ?_, ?_⟩
    · intro event todo hrunning
      rw [hstatistics, hhandler] at hrunning
      obtain ⟨horderly, hready⟩ := h.handler event todo hrunning
      refine ⟨horderly, fun hput => ?_⟩
      obtain ⟨rest, rfl⟩ : ∃ rest, todo = .putEvent :: rest := by
        cases todo with
        | nil => cases hput
        | cons first rest => exact ⟨rest, by rw [Option.some.inj hput]⟩
      obtain ⟨hpos, hkept⟩ := hready hput
      rw [hstored, hstatistics, hdeleted]
      exact ⟨hpos, hkept.delete fun other hother hnonzero =>
        (hothers other hother hnonzero).2 event rest hrunning⟩
    · intro position entry ticket hentry hticket hopen
      rw [hentries] at hentry
      have hopen' := hsettled position hopen
      have hkept := h.kept position entry ticket hentry hticket hopen'
      -- the entry is still in the queue: the batch is settled, and nothing has been dropped
      have hqueued : entry.event ∈ account.statistics.reportQueue.queue := by
        have hlate : account.taken ≤ position := by
          by_contra hearly
          rcases h.tracked.held position entry hentry (by rw [hticket]; simp) hopen'
            (Nat.not_le.mp hearly) with ⟨reporter, hreporter, hundecided, _⟩ | ⟨_, hat⟩ | hdead
          · obtain rfl := Option.some.inj (hthread.symm.trans hreporter)
            simp only [Reporter.undecided, hsettles, Bool.not_true] at hundecided
            cases hundecided
          · rw [hthread] at hat
            rcases hat with hat | hat <;> cases hat
          · rw [halive] at hdead
            cases hdead
        rw [← h.tracked.queued]
        refine List.mem_map_of_mem (@List.mem_of_getElem? _ _ (position - account.taken) _ ?_)
        rw [List.getElem?_drop, Nat.add_sub_cancel' hlate, hentry]
      rw [hstored, hstatistics, hdeleted]
      exact hkept.delete fun other hother hnonzero =>
        (hothers other hother hnonzero).1 entry.event hqueued

theorem Durable.step (h : account.Durable) (hown : account.statistics.DeletesOnlyOwn op)
    (hstep : account.step op = some after) : after.Durable := by
  have htracked := h.tracked.step hstep
  obtain ⟨next, hnext, rfl⟩ := Option.map_eq_some_iff.mp hstep
  unfold Statistics.step at hnext
  split at hnext
  · cases hnext
  rename_i halive
  rw [Bool.not_eq_true] at halive
  have hprepared : account.statistics.Prepares next →
      ({ account with statistics := next } : Account).Tracked →
      ({ account with statistics := next } : Account).Durable := by
    rintro ⟨hsame, hfresh⟩ htracked
    refine h.congr htracked rfl hsame.events ?_ fun _ _ _ hentry _ hopen => ⟨hentry, hopen⟩
    exact fun event todo hrunning =>
      Or.inr ⟨(hfresh _ hrunning).orderly, (hfresh _ hrunning).unstored⟩
  cases op with
  | gameStart gameId gamePkg now =>
      exact hprepared (Statistics.prepares_of_locked
        (fun _ => Statistics.prepares_gameStart gameId gamePkg now) hnext) htracked
  | onForeground now =>
      exact hprepared (Statistics.prepares_of_locked
        (fun hidle => Statistics.prepares_onWindow hidle true now) hnext) htracked
  | onBackground now =>
      exact hprepared (Statistics.prepares_of_locked
        (fun hidle => Statistics.prepares_onWindow hidle false now) hnext) htracked
  | onNewUser user now =>
      exact hprepared (Statistics.prepares_of_locked
        (fun hidle => Statistics.prepares_onNewUser hidle user now) hnext) htracked
  | handler => exact h.handlerStep hnext
  | localHeatBeat now =>
      obtain rfl := Option.some.inj hnext
      obtain ⟨hsame, hhandler⟩ := account.statistics.sameReporting_localHeatBeat now
      refine h.congr htracked rfl hsame.events ?_ fun _ _ _ hentry _ hopen => ⟨hentry, hopen⟩
      exact fun event todo hrunning => Or.inl (hhandler.symm.trans hrunning)
  | onlineHeatBeat now =>
      have hsame : next.persistence.events = account.statistics.persistence.events
          ∧ next.handler = account.statistics.handler := by
        rcases Statistics.onlineHeatBeat_cases hnext with rfl | ⟨queue, event, _, rfl⟩
        · exact ⟨rfl, rfl⟩
        · exact ⟨rfl, rfl⟩
      refine h.congr htracked rfl hsame.1 ?_ ?_
      · exact fun event todo hrunning => Or.inl (hsame.2.symm.trans hrunning)
      · intro position entry ticket hentry hticket hopen
        refine ⟨?_, hopen⟩
        by_cases hlt : position < account.entries.length
        · rw [record, List.getElem?_append_left hlt] at hentry
          exact hentry
        · rw [record, List.getElem?_append_right (Nat.not_lt.mp hlt)] at hentry
          obtain ⟨event, _, rfl⟩ := List.mem_map.mp (List.mem_of_getElem? hentry)
          cases hticket
  | reporter input => exact h.reporterStep halive hown hnext
  | refreshConfig config =>
      obtain rfl := Option.some.inj hnext
      have hspec := account.statistics.refreshConfig_spec config
      refine h.congr htracked rfl hspec.events ?_ fun _ _ _ hentry _ hopen => ⟨hentry, hopen⟩
      exact fun event todo hrunning => Or.inl (hspec.handler.symm.trans hrunning)

theorem durable_start {storage : DurPersistence} {deviceId uuid : Str} {now : UInt64}
    {statistics : Statistics}
    (h : (Statistics.construct storage deviceId).init uuid now = some statistics) :
    (start statistics).Durable := by
  obtain ⟨hhandler, _, hthread, _⟩ := Statistics.init_spec h
  have htickets : ∀ entry ∈ (start statistics).entries, entry.ticket = none := by
    intro entry hentry
    obtain ⟨event, _, rfl⟩ := List.mem_map.mp hentry
    rfl
  refine ⟨⟨?_, Nat.zero_le _, ?_, fun _ => rfl, ?_, ?_, ?_⟩, ?_, ?_⟩
  · rw [start, List.drop_zero, List.map_map]
    exact List.map_id _
  · intro reporter hreporter
    rw [start, hthread] at hreporter
    split at hreporter
    · obtain rfl := Option.some.inj hreporter
      exact took_nil _
    · cases hreporter
  · exact fun entry hentry hticket => absurd (htickets entry hentry) hticket
  · intro handler hrunning
    rw [start, hhandler] at hrunning
    cases hrunning
  · exact fun position entry _ _ _ hlt => absurd hlt (Nat.not_lt_zero position)
  · intro event todo hrunning
    rw [start, hhandler] at hrunning
    cases hrunning
  · intro position entry ticket hentry hticket
    rw [htickets entry (List.mem_of_getElem? hentry)] at hticket
    cases hticket

/-- **An event is durable until it is settled.** Along every run in which no batch is deleted whose
ids are shared by an event on its way to the reporter, the queue is what the record says, and every
event a handler has put there and that is neither delivered nor discarded has its row. -/
theorem event_kept_until_settled
    (hreach : system.Reaches (fun account op => account.statistics.DeletesOnlyOwn op) account) :
    (account.entries.drop account.taken).map (·.event) = account.statistics.reportQueue.queue
      ∧ ∀ position entry ticket, account.entries[position]? = some entry →
        entry.ticket = some ticket → account.settled position = false →
        Kept account.stored account.statistics.persistence.events ticket entry.event := by
  have hdurable : account.Durable := by
    refine hreach.invariant Durable ?_ ?_
    · rintro _ ⟨statistics, ⟨storage, deviceId, uuid, now, hinit⟩, rfl⟩
      exact durable_start hinit
    · intro state op next hdurable hown hstep
      exact hdurable.step hown hstep
  exact ⟨hdurable.tracked.queued, hdurable.kept⟩

/-! ### Two events in one row -/

def emptyStorage : DurPersistence := ⟨Table.empty, Table.empty, Table.empty⟩

def launched : Option Account :=
  ((Statistics.construct emptyStorage []).init [117] 0).map start

def calm : Statistics.Op := .reporter ⟨false, 0, .success⟩

def handled (op : Statistics.Op) : List Statistics.Op :=
  [op, .handler, .handler, .handler, .handler]

def gameStarted : List Statistics.Op := handled (.gameStart [103] [112] 1000)

/-- The game comes to the foreground a second time while the report of the first is on its way. -/
def mergedWhilePosting : List Statistics.Op :=
  gameStarted ++ handled (.onForeground 2000) ++ [calm, calm, calm] ++ handled (.onForeground 3000)
    ++ [calm, calm]

theorem reaches_of_launched {allowed : Account → Statistics.Op → Prop} {ops : List Statistics.Op}
    {last : Account} (hops : ∀ op ∈ ops, ∀ account, allowed account op)
    (hrun : (launched.bind fun first => ops.foldlM step first) = some last) :
    system.Reaches allowed last := by
  obtain ⟨first, hfirst, hlast⟩ := Option.bind_eq_some_iff.mp hrun
  obtain ⟨statistics, hinit, rfl⟩ := Option.map_eq_some_iff.mp hfirst
  exact System.Reaches.foldlM hops (.init ⟨statistics, ⟨_, _, _, _, hinit⟩, rfl⟩) hlast

/-- The game goes to the background while the report of its start is on its way. -/
def startedAndReported : List Statistics.Op :=
  gameStarted ++ [calm, calm, calm] ++ handled (.onBackground 2000) ++ [calm, calm]

theorem event_kept_until_settled_started :
    ∃ account : Account, account.settled 0 = true ∧ account.settled 1 = false
      ∧ account.statistics.persistence.events.find 1 = none
      ∧ ∃ row, account.statistics.persistence.events.find 2 = some row
        ∧ row.action = .gameBackground := by
  have hrun : launched.any (fun first => (system.guarded
      (fun account op => account.statistics.deletesOnlyOwn op = true) startedAndReported first).any
        fun account => decide (account.settled 0 = true ∧ account.settled 1 = false)
          && (account.statistics.persistence.events.find 1).isNone
          && decide ((account.entries[1]?.map fun entry =>
            (entry.ticket, entry.event.id, entry.event.action))
              = some (some 1, 2, .gameBackground))) = true := by decide +kernel
  obtain ⟨first, hfirst, hlater⟩ := (Option.any_eq_true _ _).mp hrun
  obtain ⟨account, hguarded, hseen⟩ := (Option.any_eq_true _ _).mp hlater
  simp only [Bool.and_eq_true, decide_eq_true_eq] at hseen
  obtain ⟨⟨⟨hsettled, hopen⟩, hgone⟩, hentries⟩ := hseen
  obtain ⟨entry, hentry, heq⟩ := Option.map_eq_some_iff.mp hentries
  obtain ⟨hticket, hid, haction⟩ : entry.ticket = some 1 ∧ entry.event.id = 2
      ∧ entry.event.action = .gameBackground := by simpa using heq
  obtain ⟨statistics, hinit, rfl⟩ := Option.map_eq_some_iff.mp hfirst
  have hstart : system.init (start statistics) := ⟨statistics, ⟨_, _, _, _, hinit⟩, rfl⟩
  have hreach := System.Reaches.guarded (.init hstart) hguarded
  obtain ⟨_, _, row, _, _, _, haction', _, hfind⟩ := (event_kept_until_settled (hreach.mono
    fun _ _ => Statistics.deletesOnlyOwn_of_eq_true)).2 1 entry 1 hentry hticket hopen
  refine ⟨account, hsettled, hopen, Option.isNone_iff_eq_none.mp hgone, row, ?_,
    haction'.trans haction⟩
  rw [← hid]
  exact hfind

/-- **The second event is in the queue, and its row is gone.** -/
theorem event_lost_while_posting :
    ∃ account : Account, system.Reaches (fun _ _ => True) account
      ∧ ∃ entry, account.entries[2]? = some entry ∧ entry.ticket = some 2
        ∧ account.settled 2 = false
        ∧ account.statistics.persistence.events.find entry.event.id = none := by
  have hrun : ((launched.bind fun first => mergedWhilePosting.foldlM step first).map fun account =>
      ((account.entries[2]?).map fun entry => (entry.ticket,
        (account.statistics.persistence.events.find entry.event.id).isNone), account.settled 2))
        = some (some (some 2, true), false) := by decide +kernel
  obtain ⟨account, hlast, hseen⟩ := Option.map_eq_some_iff.mp hrun
  obtain ⟨hentry, hopen⟩ := Prod.mk.inj hseen
  obtain ⟨entry, hentry, hseen'⟩ := Option.map_eq_some_iff.mp hentry
  obtain ⟨hticket, hgone⟩ := Prod.mk.inj hseen'
  exact ⟨account, reaches_of_launched (fun _ _ _ => trivial) hlast, entry, hentry, hticket, hopen,
    Option.isNone_iff_eq_none.mp hgone⟩

end Account

end TapSdk.Duration
