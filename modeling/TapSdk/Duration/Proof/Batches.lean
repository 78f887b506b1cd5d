import TapSdk.Duration.Proof.Encoding

/-!
# A batch is reported in one go

With a server that answers every POST with success, the reporter is done with a batch after one
iteration exactly if what it takes out of the batch can be encoded. If the user of one event is not
JSON the whole batch is built, refused and built again, and if a string is not UTF-8 the process
ends.
-/

namespace TapSdk.Duration

open Library

/-! ### Ids that were handed out -/

namespace Statistics

variable {statistics next : Statistics} {op : Op} {storage : DurPersistence}

theorem delete_sequence (storage : DurPersistence) (events : List DurEvent) :
    (storage.delete events).events.sequence = storage.events.sequence := by
  simp only [DurPersistence.delete]
  generalize storage.events = table
  induction events generalizing table with
  | nil => rfl
  | cons first rest ih =>
      rw [List.foldl_cons, ih]
      split <;> rfl

theorem addOrMergeEvent_issues (storage : DurPersistence) (event : DurEvent) :
    storage.events.sequence ≤ (storage.addOrMergeEvent event).2.events.sequence
      ∧ (storage.addOrMergeEvent event).1.id ≤ (storage.addOrMergeEvent event).2.events.sequence
      ∧ ∀ id, id ≤ storage.events.sequence → storage.events.find id = none →
        (storage.addOrMergeEvent event).2.events.find id = none := by
  rcases addOrMergeEvent_cases storage event with hinsert | ⟨id, old, hold, _, _, hmerge⟩
  · rw [hinsert]
    refine ⟨Nat.le_succ _, Nat.le_refl _, fun other hle hnone => ?_⟩
    exact (Table.find_insert_of_ne (by omega)).trans hnone
  · rw [hmerge]
    refine ⟨Nat.le_refl _, (Table.bounded _ _ _ hold).2, fun other _ hnone => ?_⟩
    have hother : other ≠ id := by
      rintro rfl
      rw [hold] at hnone
      cases hnone
    exact (Table.find_update_of_ne hother).trans hnone

theorem Moved.sequence_le (h : statistics.Moved op next) :
    statistics.persistence.events.sequence ≤ next.persistence.events.sequence := by
  rcases h.events with ⟨event, _, _, _, hevents⟩ | ⟨_, gone, hevents⟩
  · rw [hevents]
    exact (addOrMergeEvent_issues statistics.persistence event).1
  · rw [hevents, delete_sequence]

/-- The row had the id, and it has been deleted. -/
structure Gone (statistics : Statistics) (id : Nat) : Prop where
  issued : id ≤ statistics.persistence.events.sequence
  deleted : statistics.persistence.events.find id = none

/-- A deleted row does not come back. -/
theorem Moved.gone (h : statistics.Moved op next) {id : Nat} (hgone : statistics.Gone id) :
    next.Gone id := by
  refine ⟨Nat.le_trans hgone.issued h.sequence_le, ?_⟩
  rcases h.events with ⟨event, _, _, _, hevents⟩ | ⟨_, gone, hevents⟩
  · rw [hevents]
    exact (addOrMergeEvent_issues statistics.persistence event).2.2 id hgone.issued hgone.deleted
  · rw [hevents, Option.eq_none_iff_forall_ne_some]
    intro row hrow
    have hold := hgone.deleted
    rw [find_of_find_delete hrow] at hold
    cases hold

/-- No event is on its way with an id that the table has not handed out. -/
structure Issued (statistics : Statistics) : Prop where
  carries : statistics.Carries fun event => event.id ≤ statistics.persistence.events.sequence
  handler : ∀ handler, statistics.handler = some handler →
    handler.event.id ≤ statistics.persistence.events.sequence

theorem Moved.issued (h : statistics.Moved op next) (hissued : statistics.Issued) :
    next.Issued := by
  have hle := h.sequence_le
  refine ⟨?_, ?_⟩
  · refine (h.carries hissued.carries ?_ ?_ ?_).mono fun event hevent => Nat.le_trans hevent hle
    · exact fun event todo _ hhandler => hissued.handler _ hhandler
    · exact fun now _ _ => Nat.zero_le _
    · exact fun input events success _ _ _ event _ _ hevent => hevent
  · have hsame : next.handler = statistics.handler → ∀ handler, next.handler = some handler →
        handler.event.id ≤ next.persistence.events.sequence := by
      intro hsame handler hhandler
      exact Nat.le_trans (hissued.handler handler (hsame.symm.trans hhandler)) hle
    cases h with
    | still _ => exact hsame rfl
    | begun _ hbegun =>
        intro handler hhandler
        obtain ⟨begun, hbegun', _, hid, _⟩ := hbegun.event
        obtain rfl := Option.some.inj (hhandler.symm.trans hbegun')
        rw [hid]
        exact Nat.zero_le _
    | sameUser _ _ => exact hsame saveSession_handler
    | @performed event after step todo changed hbefore hperform =>
        intro handler hhandler
        obtain ⟨hevent, _⟩ := Account.handler_of_remaining hhandler
        rw [hevent]
        by_cases hstep : step = .addOrMergeEvent
        · subst hstep
          obtain ⟨rfl, rfl⟩ := Prod.mk.inj (Option.some.inj hperform)
          exact (addOrMergeEvent_issues statistics.persistence event).2.1
        · have hkept : after = event := by
            cases step with
            | addOrMergeEvent => exact absurd rfl hstep
            | putEvent =>
                obtain ⟨queue, _, hpair⟩ := Option.map_eq_some_iff.mp hperform
                exact (Prod.mk.inj hpair).1.symm
            | _ => exact (Prod.mk.inj (Option.some.inj hperform)).1.symm
          rw [hkept]
          exact Nat.le_trans (hissued.handler _ hbefore) hle
    | beat _ _ => exact hsame saveSession_handler
    | tick _ _ _ => exact hsame rfl
    | reporter hmove => exact hsame hmove.handler
    | @refreshConfig config => exact hsame (statistics.refreshConfig_spec config).handler

theorem issued_of_init (h : Statistics.system.init statistics) : statistics.Issued := by
  obtain ⟨storage, deviceId, uuid, now, hinit⟩ := h
  obtain ⟨configured, hhistory, rfl⟩ := Option.map_eq_some_iff.mp hinit
  rw [newGameSession_eq] at hhistory
  have hunopened := unopened_endSession storage deviceId
  obtain ⟨config, queue, thread, terminated, heq, hthread, hqueue⟩ := finishInit_cases hhistory
  rw [heq]
  rw [hunopened.openSession] at hthread hqueue ⊢
  refine ⟨⟨fun event hevent => ?_, fun reporter hreporter event hevent => ?_⟩,
    fun handler hhandler => ?_⟩
  · rcases hqueue event hevent with hold | hrow
    · rw [hunopened.reportQueue] at hold
      cases hold
    · obtain ⟨⟨id, row⟩, hentry, rfl⟩ := List.mem_map.mp hrow
      exact (Table.bounded _ _ _ (OrderedMap.find_of_mem hentry)).2
  · have hreporter' : thread = some reporter := hreporter
    rcases hthread with hthread | hthread
    · rw [hthread, hunopened.reportThread] at hreporter'
      cases hreporter'
    · obtain rfl := Option.some.inj (hthread.symm.trans hreporter')
      rcases hevent with hevent | hevent <;> cases hevent
  · rw [hunopened.handler] at hhandler
    cases hhandler

end Statistics

/-! ### The steps of the reporter -/

def Statistics.Op.byReporter : Statistics.Op → Bool
  | .reporter _ => true
  | _ => false

/-- Nothing but the reporter moves the reporter, except that its thread object is replaced, which
ends the process. -/
theorem Statistics.Moved.thread {statistics next : Statistics} {op : Statistics.Op}
    {reporter : Reporter} (h : statistics.Moved op next) (hop : op.byReporter = false)
    (hthread : statistics.reportThread = some reporter) :
    next.reportThread = some reporter ∨ next.terminated = true := by
  cases h with
  | still _ => exact Or.inl hthread
  | begun _ hbegun => exact Or.inl (hbegun.frame.2.2.2.2.trans hthread)
  | sameUser _ _ => exact Or.inl ((sameReporting_saveSession _).reportThread.trans hthread)
  | performed _ hperform => exact Or.inl ((perform_frame hperform).2.trans hthread)
  | beat _ _ => exact Or.inl ((sameReporting_saveSession _).reportThread.trans hthread)
  | tick _ _ _ => exact Or.inl hthread
  | reporter _ => cases hop
  | @refreshConfig config =>
      have hrest := (statistics.refreshConfig_spec config).switched
      split at hrest
      · exact Or.inl (hrest.2.1.trans hthread)
      · split at hrest
        · rw [hthread, Option.isSome_some, Bool.or_true] at hrest
          exact Or.inr hrest.2.2.2
        · exact Or.inl (hrest.2.1.trans hthread)

/-- How many steps the reporter has before it is done with its batch, once the reports are built. -/
def Reporter.stepsLeft : Reporter → Nat
  | .posting .. => 4
  | .answered .. => 3
  | .beating .. => 2
  | .checking .. => 1
  | .loop | .waiting | .building .. | .exited => 0

namespace Reporting

variable {parse : Str → Option Json} {info : ReportInfo} {reporting next : Reporting}
  {op : Statistics.Op}

/-- What a step can do. -/
inductive Moved (parse : Str → Option Json) (info : ReportInfo) (reporting : Reporting) :
    Statistics.Op → Reporting → Prop where
  | other {op : Statistics.Op} {next : Statistics} (hop : op.byReporter = false)
      (hmoved : reporting.statistics.Moved op next) :
      Moved parse info reporting op { reporting with statistics := next }
  | sent {input : Statistics.ReporterInput} {events reports : List DurEvent} {now : UInt64}
      {hasHeatBeats : Bool} {text : Str}
      (hthread : reporting.statistics.reportThread
        = some (.posting events reports now hasHeatBeats))
      (hbody : encode parse info reports = .body text) :
      Moved parse info reporting (.reporter input) { reporting with
        statistics := reporting.statistics.setReporter (.answered events now hasHeatBeats .success)
        received := reporting.received ++ reports }
  | refused {input : Statistics.ReporterInput} {events reports : List DurEvent} {now : UInt64}
      {hasHeatBeats : Bool}
      (hthread : reporting.statistics.reportThread
        = some (.posting events reports now hasHeatBeats))
      (hinvalid : encode parse info reports = .invalid) :
      Moved parse info reporting (.reporter input) { reporting with
        statistics := reporting.statistics.setReporter
          (.answered events now hasHeatBeats (.failure (-1))) }
  | threw {input : Statistics.ReporterInput} {events reports : List DurEvent} {now : UInt64}
      {hasHeatBeats : Bool}
      (hthread : reporting.statistics.reportThread
        = some (.posting events reports now hasHeatBeats))
      (hthrown : encode parse info reports = .thrown) :
      Moved parse info reporting (.reporter input) { reporting with thrown := true }
  | reporter {input : Statistics.ReporterInput} {next : Statistics}
      (hplace : ∀ events reports now hasHeatBeats,
        reporting.statistics.reportThread ≠ some (.posting events reports now hasHeatBeats))
      (hmove : reporting.statistics.ReporterMove input next) :
      Moved parse info reporting (.reporter input) (reporting.count next)

theorem step_reporter_eq {statistics : Statistics} (halive : statistics.terminated = false)
    (input : Statistics.ReporterInput) :
    statistics.step (.reporter input) = statistics.reporterStep input := by
  rw [Statistics.step, halive, if_neg Bool.false_ne_true]

theorem alive_iff : reporting.alive = true ↔
    reporting.thrown = false ∧ reporting.statistics.terminated = false := by
  simp [alive]

theorem moved_of_step (h : reporting.step parse info op = some next) :
    reporting.Moved parse info op next := by
  unfold step at h
  split at h
  · rename_i halive
    obtain ⟨_, hlives⟩ := alive_iff.mp halive
    split at h
    · rename_i input events reports now hasHeatBeats hthread
      have hanswer : ∀ answer, reporting.statistics.step (.reporter { input with answer := answer })
          = some (reporting.statistics.setReporter (.answered events now hasHeatBeats answer)) := by
        intro answer
        rw [step_reporter_eq hlives, Statistics.reporterStep, hthread]
      unfold post at h
      split at h
      · rename_i hinvalid
        rw [hanswer] at h
        obtain rfl := Option.some.inj h
        exact .refused hthread hinvalid
      · rename_i hthrown
        obtain rfl := Option.some.inj h
        exact .threw hthread hthrown
      · rename_i text hbody
        rw [hanswer] at h
        obtain rfl := Option.some.inj h
        exact .sent hthread hbody
    · rename_i input hplace
      obtain ⟨after, hafter, rfl⟩ := Option.map_eq_some_iff.mp h
      rw [step_reporter_eq hlives] at hafter
      exact .reporter hplace (Statistics.reporterMove_of_step hafter)
    · rename_i label _ _ hop _
      obtain ⟨after, hafter, rfl⟩ := Option.map_eq_some_iff.mp h
      refine .other ?_ (Statistics.moved_of_step hafter)
      cases label with
      | reporter input => exact absurd rfl (hop input)
      | _ => rfl
  · cases h

/-! ### What stays -/

theorem count_eq (reporting : Reporting) (after : Statistics) :
    (reporting.count after).statistics = after
      ∧ (reporting.count after).received = reporting.received
      ∧ (reporting.count after).thrown = reporting.thrown
      ∧ reporting.passes ≤ (reporting.count after).passes := by
  unfold count
  split <;> simp

/-- The statistics make a step of their own, or none; the server only receives; and the batches are
counted up. -/
structure Grown (reporting next : Reporting) : Prop where
  statistics : next.statistics = reporting.statistics
    ∨ ∃ op, reporting.statistics.Moved op next.statistics
  received : ∃ more, next.received = reporting.received ++ more
  passes : reporting.passes ≤ next.passes

theorem Moved.grown (h : reporting.Moved parse info op next) : reporting.Grown next := by
  have hanswered : ∀ {events reports now hasHeatBeats answer},
      reporting.statistics.reportThread = some (.posting events reports now hasHeatBeats) →
      ∃ op, reporting.statistics.Moved op
        (reporting.statistics.setReporter (.answered events now hasHeatBeats answer)) := by
    intro events reports now hasHeatBeats answer hthread
    exact ⟨_, .reporter (@Statistics.ReporterMove.answer _ ⟨false, now, answer⟩ _ _ _ _ hthread)⟩
  cases h with
  | other _ hmoved =>
      exact ⟨Or.inr ⟨_, hmoved⟩, ⟨[], (List.append_nil _).symm⟩, Nat.le_refl _⟩
  | @sent _ _ reports _ _ _ hthread _ =>
      exact ⟨Or.inr (hanswered hthread), ⟨reports, rfl⟩, Nat.le_refl _⟩
  | refused hthread _ =>
      exact ⟨Or.inr (hanswered hthread), ⟨[], (List.append_nil _).symm⟩, Nat.le_refl _⟩
  | threw _ _ => exact ⟨Or.inl rfl, ⟨[], (List.append_nil _).symm⟩, Nat.le_refl _⟩
  | @reporter input after _ hmove =>
      obtain ⟨hstatistics, hreceived, _, hpasses⟩ := reporting.count_eq after
      refine ⟨Or.inr ⟨.reporter input, ?_⟩, ⟨[], ?_⟩, hpasses⟩
      · rw [hstatistics]
        exact .reporter hmove
      · rw [hreceived, List.append_nil]

theorem Grown.gone (h : reporting.Grown next) {id : Nat} (hgone : reporting.statistics.Gone id) :
    next.statistics.Gone id := by
  rcases h.statistics with hsame | ⟨op, hmoved⟩
  · rwa [hsame]
  · exact hmoved.gone hgone

theorem issued_of_reachable (h : (system parse info).Reachable reporting) :
    reporting.statistics.Issued := by
  refine System.Reaches.invariant (fun reporting => reporting.statistics.Issued) ?_ ?_ h
  · rintro _ ⟨statistics, hinit, rfl⟩
    exact Statistics.issued_of_init hinit
  · intro state label after hissued _ hstep
    rcases (moved_of_step hstep).grown.statistics with hsame | ⟨op, hmoved⟩
    · rwa [hsame]
    · exact hmoved.issued hissued

/-! ### The pass over a batch -/

/-- The server has received every event of the batch that is no heartbeat, after this state. -/
def Delivered (before : Reporting) (batch : List DurEvent) (reporting : Reporting) : Prop :=
  ∃ posted, reporting.received = before.received ++ posted
    ∧ ∀ event ∈ batch, event.action ≠ .heatBeat → event ∈ posted

def Deleted (batch : List DurEvent) (reporting : Reporting) : Prop :=
  ∀ event ∈ batch, reporting.statistics.Gone event.id

variable {before : Reporting} {batch : List DurEvent}

theorem Delivered.grown (h : before.Delivered batch reporting) (hgrown : reporting.Grown next) :
    before.Delivered batch next := by
  obtain ⟨posted, hreceived, hall⟩ := h
  obtain ⟨more, hmore⟩ := hgrown.received
  refine ⟨posted ++ more, by rw [hmore, hreceived, List.append_assoc], ?_⟩
  exact fun event hevent haction => List.mem_append_left _ (hall event hevent haction)

theorem Deleted.grown (h : Deleted batch reporting) (hgrown : reporting.Grown next) :
    Deleted batch next := fun event hevent => hgrown.gone (h event hevent)

/-- Where the reporter is in the first iteration, and what has come of the batch there. -/
def OnTheWay (parse : Str → Option Json) (info : ReportInfo) (before : Reporting)
    (batch : List DurEvent) (reporting : Reporting) : Reporter → Prop
  | .posting built reports _ _ => built.map (·.id) = batch.map (·.id)
      ∧ (∃ text, encode parse info reports = .body text)
      ∧ (∀ event ∈ batch, event.action ≠ .heatBeat → event ∈ reports)
      ∧ reporting.received = before.received
  | .answered built _ _ answer => built.map (·.id) = batch.map (·.id) ∧ answer = .success
      ∧ before.Delivered batch reporting
  | .beating .. => before.Delivered batch reporting ∧ Deleted batch reporting
  | .checking _ reportSuccess => reportSuccess = true ∧ before.Delivered batch reporting
      ∧ Deleted batch reporting
  | .loop | .waiting | .building .. | .exited => False

/-- The reporter has made this many steps since it has built the reports. -/
structure InPass (parse : Str → Option Json) (info : ReportInfo) (before : Reporting)
    (batch : List DurEvent) (steps : Nat) (reporting : Reporting) : Prop where
  passes : reporting.passes = before.passes
  thrown : reporting.thrown = false
  iterations : reporting.iterations = 1
  issued : ∀ event ∈ batch, event.id ≤ reporting.statistics.persistence.events.sequence
  few : steps < 4
  place : reporting.statistics.terminated = true ∨ ∃ reporter,
    reporting.statistics.reportThread = some reporter ∧ steps + reporter.stepsLeft ≤ 4
      ∧ OnTheWay parse info before batch reporting reporter

structure AfterPass (before : Reporting) (batch : List DurEvent) (reporting : Reporting) :
    Prop where
  passes : before.passes < reporting.passes
  delivered : before.Delivered batch reporting
  deleted : Deleted batch reporting

theorem AfterPass.grown (h : AfterPass before batch reporting) (hgrown : reporting.Grown next) :
    AfterPass before batch next :=
  ⟨Nat.lt_of_lt_of_le h.passes hgrown.passes, h.delivered.grown hgrown, h.deleted.grown hgrown⟩

theorem OnTheWay.grown {reporter : Reporter}
    (h : OnTheWay parse info before batch reporting reporter) (hgrown : reporting.Grown next)
    (hreceived : next.received = reporting.received) :
    OnTheWay parse info before batch next reporter := by
  cases reporter with
  | posting built reports now hasHeatBeats =>
      obtain ⟨hids, hbody, hall, hnothing⟩ := h
      exact ⟨hids, hbody, hall, hreceived.trans hnothing⟩
  | answered built now hasHeatBeats answer =>
      obtain ⟨hids, hanswer, hdelivered⟩ := h
      exact ⟨hids, hanswer, hdelivered.grown hgrown⟩
  | beating events now => exact ⟨h.1.grown hgrown, h.2.grown hgrown⟩
  | checking events reportSuccess => exact ⟨h.1, h.2.1.grown hgrown, h.2.2.grown hgrown⟩
  | loop | waiting | building | exited => exact h

theorem OnTheWay.stepsLeft_pos {reporter : Reporter}
    (h : OnTheWay parse info before batch reporting reporter) : 0 < reporter.stepsLeft := by
  cases reporter with
  | loop | waiting | building | exited => exact h.elim
  | _ => exact Nat.succ_pos _

/-- The reporter goes on to another place of the first iteration. -/
theorem InPass.move {steps : Nat} {reporter : Reporter} {after : Statistics}
    {received : List DurEvent} (h : InPass parse info before batch steps reporting)
    (hgrown : reporting.Grown { reporting with statistics := after, received := received })
    (hleft : steps + reporter.stepsLeft ≤ 4) (place : Reporter)
    (hthread : after.reportThread = some place) (hless : place.stepsLeft < reporter.stepsLeft)
    (hplace : OnTheWay parse info before batch
      { reporting with statistics := after, received := received } place) :
    InPass parse info before batch (steps + 1)
      { reporting with statistics := after, received := received } := by
  have hpos := hplace.stepsLeft_pos
  refine ⟨h.passes, h.thrown, h.iterations, ?_, by omega,
    Or.inr ⟨place, hthread, by omega, hplace⟩⟩
  intro event hevent
  refine Nat.le_trans (h.issued event hevent) ?_
  rcases hgrown.statistics with hsame | ⟨op, hmoved⟩
  · rw [hsame]
  · exact hmoved.sequence_le

/-- A step of anything but the reporter. -/
theorem InPass.other {steps : Nat} {after : Statistics} {reporter : Reporter}
    (h : InPass parse info before batch steps reporting) (hop : op.byReporter = false)
    (hthread : reporting.statistics.reportThread = some reporter)
    (hleft : steps + reporter.stepsLeft ≤ 4)
    (hplace : OnTheWay parse info before batch reporting reporter)
    (hmoved : reporting.statistics.Moved op after) :
    InPass parse info before batch steps { reporting with statistics := after } := by
  have hgrown : reporting.Grown { reporting with statistics := after } :=
    ⟨Or.inr ⟨op, hmoved⟩, ⟨[], (List.append_nil _).symm⟩, Nat.le_refl _⟩
  refine ⟨h.passes, h.thrown, h.iterations, ?_, h.few, ?_⟩
  · exact fun event hevent => Nat.le_trans (h.issued event hevent) hmoved.sequence_le
  · rcases hmoved.thread hop hthread with hkept | hended
    · exact Or.inr ⟨reporter, hkept, hleft, hplace.grown hgrown rfl⟩
    · exact Or.inl hended

theorem count_of_answered {events : List DurEvent} {now : UInt64} {hasHeatBeats : Bool}
    {answer : Answer} {after : Statistics}
    (hthread : reporting.statistics.reportThread = some (.answered events now hasHeatBeats answer))
    (hgoesOn : after.reportThread ≠ some .loop) :
    reporting.count after = { reporting with statistics := after } := by
  unfold count
  rw [hthread]
  rcases hafter : after.reportThread with _ | _ | _ | _ | _ | _ | _ | _ | _ <;> simp_all

theorem count_of_beating {events : List DurEvent} {now : UInt64} {after : Statistics}
    (hthread : reporting.statistics.reportThread = some (.beating events now)) :
    reporting.count after = { reporting with statistics := after } := by
  unfold count
  rw [hthread]

theorem count_of_checking {events : List DurEvent} {reportSuccess : Bool} {after : Statistics}
    (hthread : reporting.statistics.reportThread = some (.checking events reportSuccess))
    (hdone : after.reportThread = some .loop) : reporting.count after
      = { reporting with statistics := after, passes := reporting.passes + 1 } := by
  unfold count
  rw [hthread, hdone]

/-- A step of the reporter that is not the POST. -/
theorem InPass.reporter {steps : Nat} {input : Statistics.ReporterInput} {after : Statistics}
    {reporter : Reporter} (h : InPass parse info before batch steps reporting)
    (hthread : reporting.statistics.reportThread = some reporter)
    (hleft : steps + reporter.stepsLeft ≤ 4)
    (hplace : OnTheWay parse info before batch reporting reporter)
    (hgrown : reporting.Grown (reporting.count after))
    (hposting : ∀ events reports now hasHeatBeats,
      reporting.statistics.reportThread ≠ some (.posting events reports now hasHeatBeats))
    (hmove : reporting.statistics.ReporterMove input after) :
    InPass parse info before batch (steps + 1) (reporting.count after)
      ∨ AfterPass before batch (reporting.count after) := by
  cases reporter with
  | posting events reports now hasHeatBeats => exact absurd hthread (hposting _ _ _ _)
  | loop | waiting | building | exited => exact hplace.elim
  | answered built now hasHeatBeats answer =>
      obtain ⟨hids, rfl, hdelivered⟩ := hplace
      cases hmove with
      | @delivered events now' beats hthread' =>
          obtain ⟨rfl, rfl, rfl, _⟩ := Reporter.answered.inj
            (Option.some.inj (hthread.symm.trans hthread'))
          have hgoesOn : (if hasHeatBeats then Reporter.beating built now
              else .checking built true) ≠ .loop := by
            split <;> simp
          rw [count_of_answered hthread (fun hloop => hgoesOn (Option.some.inj hloop))]
            at hgrown ⊢
          have hdeleted : Deleted batch { reporting with
              statistics := { reporting.statistics with
                persistence := reporting.statistics.persistence.delete built }.setReporter
                  (if hasHeatBeats then .beating built now else .checking built true) } := by
            intro event hevent
            have hmem : event.id ∈ built.map (·.id) := hids ▸ List.mem_map_of_mem hevent
            refine ⟨?_, Statistics.find_delete_of_mem hmem⟩
            exact (Statistics.delete_sequence _ built).symm ▸ h.issued event hevent
          have hdelivered' := hdelivered.grown hgrown
          refine Or.inl (h.move hgrown hleft _ rfl ?_ ?_)
          · split <;> simp [Reporter.stepsLeft]
          · cases hasHeatBeats with
            | true => exact ⟨hdelivered', hdeleted⟩
            | false => exact ⟨rfl, hdelivered', hdeleted⟩
      | discarded hthread' hdiscards =>
          obtain ⟨_, _, _, rfl⟩ := Reporter.answered.inj
            (Option.some.inj (hthread.symm.trans hthread'))
          cases hdiscards
      | failed hthread' hopen =>
          obtain ⟨_, _, _, rfl⟩ := Reporter.answered.inj
            (Option.some.inj (hthread.symm.trans hthread'))
          cases hopen
      | _ hthread' => cases hthread.symm.trans hthread'
  | beating events now =>
      obtain ⟨hdelivered, hdeleted⟩ := hplace
      have hchecking : after.reportThread = some (.checking events true) := by
        cases hmove with
        | beaten hthread' _ _ | overtaken hthread' _ _ =>
            cases hthread.symm.trans hthread'
            rfl
        | _ hthread' => cases hthread.symm.trans hthread'
      rw [count_of_beating hthread] at hgrown ⊢
      refine Or.inl (h.move hgrown hleft _ hchecking (by simp [Reporter.stepsLeft]) ?_)
      exact ⟨rfl, hdelivered.grown hgrown, hdeleted.grown hgrown⟩
  | checking events reportSuccess =>
      obtain ⟨rfl, hdelivered, hdeleted⟩ := hplace
      have hloop : after.reportThread = some .loop := by
        cases hmove with
        | retry hthread' _ => cases hthread.symm.trans hthread'
        | done hthread' _ => rfl
        | _ hthread' => cases hthread.symm.trans hthread'
      refine Or.inr ⟨?_, hdelivered.grown hgrown, hdeleted.grown hgrown⟩
      rw [count_of_checking hthread hloop, h.passes]
      exact Nat.lt_succ_self _

theorem InPass.step {steps : Nat} (h : InPass parse info before batch steps reporting)
    (hstep : reporting.step parse info op = some next) :
    InPass parse info before batch (steps + if op.byReporter then 1 else 0) next
      ∨ AfterPass before batch next := by
  have hmoved := moved_of_step hstep
  have hgrown := hmoved.grown
  have hlives : reporting.statistics.terminated = false := by
    unfold Reporting.step at hstep
    split at hstep
    · exact (alive_iff.mp ‹_›).2
    · cases hstep
  rcases h.place with hended | ⟨reporter, hthread, hleft, hplace⟩
  · rw [hlives] at hended
    cases hended
  cases hmoved with
  | other hop hmoved =>
      rw [hop, if_neg Bool.false_ne_true, Nat.add_zero]
      exact Or.inl (h.other hop hthread hleft hplace hmoved)
  | @sent input events reports now hasHeatBeats text hthread' hbody =>
      obtain rfl := Option.some.inj (hthread.symm.trans hthread')
      obtain ⟨hids, _, hall, hnothing⟩ := hplace
      refine Or.inl (h.move hgrown hleft (.answered events now hasHeatBeats .success) rfl
        (by simp [Reporter.stepsLeft]) ⟨hids, rfl, reports, ?_, hall⟩)
      rw [hnothing]
  | refused hthread' hinvalid =>
      obtain rfl := Option.some.inj (hthread.symm.trans hthread')
      obtain ⟨_, ⟨text, hbody⟩, _⟩ := hplace
      rw [hinvalid] at hbody
      cases hbody
  | threw hthread' hthrown =>
      obtain rfl := Option.some.inj (hthread.symm.trans hthread')
      obtain ⟨_, ⟨text, hbody⟩, _⟩ := hplace
      rw [hthrown] at hbody
      cases hbody
  | reporter hposting hmove => exact h.reporter hthread hleft hplace hgrown hposting hmove

theorem AfterPass.run {ops : List Statistics.Op} {last : Reporting}
    (h : AfterPass before batch reporting)
    (hrun : ops.foldlM (Reporting.step parse info) reporting = some last) :
    AfterPass before batch last := by
  induction ops generalizing reporting with
  | nil => exact Option.some.inj hrun ▸ h
  | cons op rest ih =>
      rw [List.foldlM_cons] at hrun
      obtain ⟨after, hstep, hrest⟩ := Option.bind_eq_some_iff.mp hrun
      exact ih (h.grown (moved_of_step hstep).grown) hrest

/-- The pass over a whole run: the first iteration goes on, or the reporter is done. -/
theorem InPass.run {steps : Nat} {ops : List Statistics.Op} {last : Reporting}
    (h : InPass parse info before batch steps reporting)
    (hrun : ops.foldlM (Reporting.step parse info) reporting = some last) :
    InPass parse info before batch (steps + ops.countP Statistics.Op.byReporter) last
      ∨ AfterPass before batch last := by
  induction ops generalizing reporting steps with
  | nil =>
      obtain rfl := Option.some.inj hrun
      exact Or.inl h
  | cons op rest ih =>
      rw [List.foldlM_cons] at hrun
      obtain ⟨after, hstep, hrest⟩ := Option.bind_eq_some_iff.mp hrun
      rcases h.step hstep with hin | hafter
      · rw [List.countP_cons, Nat.add_comm (List.countP _ _), ← Nat.add_assoc]
        exact ih hin hrest
      · exact Or.inr (hafter.run hrest)

theorem step_posting {input : Statistics.ReporterInput} {events reports : List DurEvent}
    {now : UInt64} {hasHeatBeats : Bool} (halive : reporting.alive = true)
    (hthread : reporting.statistics.reportThread
      = some (.posting events reports now hasHeatBeats)) :
    reporting.step parse info (.reporter input) = reporting.post parse info input reports := by
  unfold Reporting.step
  rw [if_pos halive, hthread]

theorem step_elsewhere {reporter : Reporter} (halive : reporting.alive = true)
    (hthread : reporting.statistics.reportThread = some reporter)
    (hposting : ∀ events reports now hasHeatBeats,
      reporter ≠ .posting events reports now hasHeatBeats) (input : Statistics.ReporterInput) :
    reporting.step parse info (.reporter input)
      = (reporting.statistics.reporterStep input).map reporting.count := by
  rw [← step_reporter_eq (alive_iff.mp halive).2]
  unfold Reporting.step
  rw [if_pos halive, hthread]
  cases reporter with
  | posting events reports now hasHeatBeats => exact absurd rfl (hposting _ _ _ _)
  | _ => rfl

/-- The reporter can always go on, but for a handler that it has to wait for. -/
theorem InPass.goesOn {steps : Nat} (h : InPass parse info before batch steps reporting)
    (hfree : reporting.statistics.handler = none)
    (hlives : reporting.statistics.terminated = false) (input : Statistics.ReporterInput) :
    (reporting.step parse info (.reporter input)).isSome = true := by
  have halive : reporting.alive = true := alive_iff.mpr ⟨h.thrown, hlives⟩
  rcases h.place with hended | ⟨reporter, hthread, _, hplace⟩
  · rw [hlives] at hended
    cases hended
  cases reporter with
  | posting events reports now hasHeatBeats =>
      obtain ⟨_, ⟨text, hbody⟩, _⟩ := hplace
      rw [step_posting halive hthread, post, hbody]
      simp only [step_reporter_eq hlives, Statistics.reporterStep, hthread, Option.map_some,
        Option.isSome_some]
  | answered events now hasHeatBeats answer =>
      obtain ⟨_, rfl, _⟩ := hplace
      rw [step_elsewhere halive hthread (by simp)]
      simp only [Statistics.reporterStep, hthread, if_true, Option.map_some, Option.isSome_some]
  | beating events now =>
      rw [step_elsewhere halive hthread (by simp)]
      simp only [Statistics.reporterStep, hthread, hfree, if_true, Option.map_some,
        Option.isSome_some]
  | checking events reportSuccess =>
      rw [step_elsewhere halive hthread (by simp)]
      simp only [Statistics.reporterStep, hthread, Option.map_some, Option.isSome_some]
  | loop | waiting | building | exited => exact hplace.elim

/-! ### The batch -/

/-- What is asked of the reporter when it starts with a batch. However things go on, until the retry
loop has ended no exception ends the process, the loop is in its first iteration, its reporter has
taken less than four steps since the reports were built, and nothing but a handler that holds
`event_lock` keeps it from the next one. Once the loop has ended, every event of the batch that is
no heartbeat has been received, and the rows of the batch are deleted. -/
def ReportsBatch (parse : Str → Option Json) (info : ReportInfo) (before : Reporting)
    (batch : List DurEvent) : Prop :=
  ∀ input first (ops : List Statistics.Op) last,
    before.step parse info (.reporter input) = some first →
    ops.foldlM (Reporting.step parse info) first = some last →
    (last.passes = before.passes → last.thrown = false ∧ last.iterations = 1
      ∧ ops.countP Statistics.Op.byReporter < 4
      ∧ (last.statistics.handler = none → last.statistics.terminated = false →
        ∀ input, (last.step parse info (.reporter input)).isSome = true))
    ∧ (last.passes ≠ before.passes → before.Delivered batch last
      ∧ ∀ event ∈ batch, last.statistics.persistence.events.find event.id = none)

/-- What the reporter takes out of the batch can be encoded. -/
def encodable (parse : Str → Option Json) (info : ReportInfo) (reporting : Reporting)
    (batch : List DurEvent) : Bool :=
  info.encodable && (reporting.statistics.reportable batch).all fun event => event.encodable parse

variable {reportSuccess : Bool}

/-- The step that builds the reports. -/
theorem step_building (halive : reporting.alive = true)
    (hthread : reporting.statistics.reportThread = some (.building batch reportSuccess))
    (hevent : ∃ event ∈ batch, event.action ≠ .heatBeat) (input : Statistics.ReporterInput) :
    ∃ built reports hasHeatBeats,
      reporting.statistics.buildReports input.now batch false = (built, reports, hasHeatBeats)
        ∧ reports ≠ [] ∧ reporting.step parse info (.reporter input) = some { reporting with
          statistics := reporting.statistics.setReporter
            (.posting built reports input.now hasHeatBeats) } := by
  obtain ⟨event, hmem, haction⟩ := hevent
  rcases hbuild : reporting.statistics.buildReports input.now batch false
    with ⟨built, reports, hasHeatBeats⟩
  have hsome : reports ≠ [] := by
    have hreported := @Statistics.mem_reports reporting.statistics input.now batch false event hmem
      haction
    rw [hbuild] at hreported
    exact List.ne_nil_of_mem hreported
  refine ⟨built, reports, hasHeatBeats, rfl, hsome, ?_⟩
  rw [step_elsewhere halive hthread (by simp)]
  simp only [Statistics.reporterStep, hthread, hbuild, if_neg hsome, Option.map_some, count,
    Statistics.setReporter]

theorem encodable_iff_encode (hparse : ∀ text value, parse text = some value → value.Dumps)
    {now : UInt64} {built reports : List DurEvent} {hasHeatBeats : Bool}
    (hbuild : reporting.statistics.buildReports now batch false = (built, reports, hasHeatBeats))
    (hsome : reports ≠ []) : reporting.encodable parse info batch = true
      ↔ ∃ text, encode parse info reports = .body text := by
  have hall := @Statistics.buildReports_encodable parse reporting.statistics now batch
  rw [hbuild] at hall
  rw [encode_eq_body_iff hparse hsome, hall, encodable, Bool.and_eq_true, List.all_eq_true]

/-- A batch that can be encoded is reported in one go. -/
theorem reportsBatch_of_encodable (hparse : ∀ text value, parse text = some value → value.Dumps)
    (hissued : reporting.statistics.Issued) (halive : reporting.alive = true)
    (hthread : reporting.statistics.reportThread = some (.building batch reportSuccess))
    (hfirst : reporting.iterations = 1) (hevent : ∃ event ∈ batch, event.action ≠ .heatBeat)
    (hencodable : reporting.encodable parse info batch = true) :
    reporting.ReportsBatch parse info batch := by
  intro input first ops last hstep hrun
  obtain ⟨built, reports, hasHeatBeats, hbuild, hsome, heq⟩ :=
    @step_building parse info reporting batch reportSuccess halive hthread hevent input
  obtain rfl := Option.some.inj (heq.symm.trans hstep)
  have hplace : OnTheWay parse info reporting batch { reporting with
      statistics := reporting.statistics.setReporter
        (.posting built reports input.now hasHeatBeats) }
      (.posting built reports input.now hasHeatBeats) := by
    refine ⟨?_, (encodable_iff_encode hparse hbuild hsome).mp hencodable, ?_, rfl⟩
    · have hids := @Statistics.buildReports_ids reporting.statistics input.now batch false
      rwa [hbuild] at hids
    · intro event hmem haction
      have hreported := @Statistics.mem_reports reporting.statistics input.now batch false event
        hmem haction
      rwa [hbuild] at hreported
  have hin : InPass parse info reporting batch 0 { reporting with
      statistics := reporting.statistics.setReporter
        (.posting built reports input.now hasHeatBeats) } :=
    ⟨rfl, (alive_iff.mp halive).1, hfirst, fun event hmem => hissued.carries.batch _ hthread event
      (Or.inl hmem), by decide, Or.inr ⟨_, rfl, Nat.le_refl _, hplace⟩⟩
  rcases hin.run hrun with hon | hafter
  · refine ⟨fun _ => ⟨hon.thrown, hon.iterations, ?_, fun hfree hlives => hon.goesOn hfree hlives⟩,
      fun hdone => absurd hon.passes hdone⟩
    simpa using hon.few
  · refine ⟨fun hsame => absurd hsame (Nat.ne_of_gt hafter.passes), fun _ => ⟨hafter.delivered, ?_⟩⟩
    exact fun event hmem => (hafter.deleted event hmem).deleted

/-- The same with the reporter elsewhere. -/
def moveTo (reporting : Reporting) (reporter : Reporter) : Reporting :=
  { reporting with statistics := reporting.statistics.setReporter reporter }

theorem step_moveTo {reporter : Reporter} (halive : reporting.alive = true)
    (hposting : ∀ events reports now hasHeatBeats,
      reporter ≠ .posting events reports now hasHeatBeats) (input : Statistics.ReporterInput) :
    (reporting.moveTo reporter).step parse info (.reporter input)
      = ((reporting.moveTo reporter).statistics.reporterStep input).map
        (reporting.moveTo reporter).count :=
  @step_elsewhere parse info (reporting.moveTo reporter) reporter halive rfl hposting input

theorem step_moveTo_posting {built reports : List DurEvent} {now : UInt64} {hasHeatBeats : Bool}
    (halive : reporting.alive = true) (input : Statistics.ReporterInput) :
    (reporting.moveTo (.posting built reports now hasHeatBeats)).step parse info (.reporter input)
      = (reporting.moveTo (.posting built reports now hasHeatBeats)).post parse info input
        reports :=
  @step_posting parse info (reporting.moveTo (.posting built reports now hasHeatBeats)) input built
    reports now hasHeatBeats halive rfl

theorem foldlM_cons_of_step {ops : List Statistics.Op}
    (hstep : reporting.step parse info op = some next) :
    (op :: ops).foldlM (Reporting.step parse info) reporting
      = ops.foldlM (Reporting.step parse info) next := by
  rw [List.foldlM_cons, hstep]
  rfl

/-- A POST that is refused leads to the condition of the retry loop, without success. -/
theorem foldlM_of_invalid {input : Statistics.ReporterInput} {built reports : List DurEvent}
    {now : UInt64} {hasHeatBeats : Bool} (halive : reporting.alive = true)
    (hinvalid : encode parse info reports = .invalid) (ops : List Statistics.Op) :
    (.reporter input :: .reporter input :: ops).foldlM (Reporting.step parse info)
        (reporting.moveTo (.posting built reports now hasHeatBeats))
      = ops.foldlM (Reporting.step parse info) (reporting.moveTo (.checking built false)) := by
  have hlives : (reporting.moveTo (.posting built reports now hasHeatBeats)).statistics.terminated
      = false := (alive_iff.mp halive).2
  have hrefused : (reporting.moveTo (.posting built reports now hasHeatBeats)).step parse info
      (.reporter input)
        = some (reporting.moveTo (.answered built now hasHeatBeats (.failure (-1)))) := by
    rw [step_moveTo_posting halive, post, hinvalid]
    simp only [step_reporter_eq hlives]
    rfl
  have hchecked : (reporting.moveTo (.answered built now hasHeatBeats (.failure (-1)))).step parse
      info (.reporter input) = some (reporting.moveTo (.checking built false)) := by
    rw [step_moveTo halive (by simp)]
    rfl
  rw [foldlM_cons_of_step hrefused, foldlM_cons_of_step hchecked]

/-- A batch that cannot be encoded ends the process, is built again, or is given up. -/
theorem encodable_of_reportsBatch (hparse : ∀ text value, parse text = some value → value.Dumps)
    (halive : reporting.alive = true)
    (hthread : reporting.statistics.reportThread = some (.building batch reportSuccess))
    (hfirst : reporting.iterations = 1) (hevent : ∃ event ∈ batch, event.action ≠ .heatBeat)
    (h : reporting.ReportsBatch parse info batch) :
    reporting.encodable parse info batch = true := by
  let input : Statistics.ReporterInput := ⟨false, 0, .success⟩
  obtain ⟨built, reports, hasHeatBeats, hbuild, hsome, hbuilt⟩ :=
    @step_building parse info reporting batch reportSuccess halive hthread hevent input
  have hbuilt' : reporting.step parse info (.reporter input)
      = some (reporting.moveTo (.posting built reports input.now hasHeatBeats)) := hbuilt
  cases hencode : encode parse info reports with
  | body text => exact (encodable_iff_encode hparse hbuild hsome).mpr ⟨text, hencode⟩
  | thrown =>
      have hthrown : (reporting.moveTo (.posting built reports input.now hasHeatBeats)).step parse
          info (.reporter input) = some { reporting.moveTo
            (.posting built reports input.now hasHeatBeats) with thrown := true } := by
        rw [step_moveTo_posting halive, post, hencode]
      obtain ⟨hduring, _⟩ := h input _ [.reporter input] _ hbuilt' (foldlM_cons_of_step hthrown)
      cases (hduring rfl).1
  | invalid =>
      have hcondition : (reporting.moveTo (.checking built false)).step parse info (.reporter input)
          = some ((reporting.moveTo (.checking built false)).count (reporting.statistics.setReporter
            (if !false && reporting.statistics.running then .building built false
              else .loop))) := by
        rw [step_moveTo halive (by simp)]
        rfl
      have hrun := (@foldlM_of_invalid parse info reporting input built reports input.now
        hasHeatBeats halive hencode [.reporter input]).trans (foldlM_cons_of_step hcondition)
      obtain ⟨hduring, hafter⟩ := h input _ _ _ hbuilt' hrun
      cases hrunning : reporting.statistics.running with
      | true =>
          rw [hrunning] at hduring
          have hagain : reporting.iterations + 1 = 1 := (hduring rfl).2.1
          omega
      | false =>
          rw [hrunning] at hafter
          obtain ⟨⟨posted, hposted, hall⟩, _⟩ := hafter (Nat.succ_ne_self _)
          have hnothing : posted = [] := List.self_eq_append_right.mp hposted
          obtain ⟨event, hmem, haction⟩ := hevent
          have hreceived := hall event hmem haction
          rw [hnothing] at hreceived
          cases hreceived

/-- **A batch is reported in one go exactly if it can be encoded.** -/
theorem batch_reported_iff (hparse : ∀ text value, parse text = some value → value.Dumps)
    (hreach : (system parse info).Reachable reporting) (halive : reporting.alive = true)
    (hthread : reporting.statistics.reportThread = some (.building batch reportSuccess))
    (hfirst : reporting.iterations = 1) (hevent : ∃ event ∈ batch, event.action ≠ .heatBeat) :
    reporting.ReportsBatch parse info batch ↔ reporting.encodable parse info batch = true :=
  ⟨encodable_of_reportsBatch hparse halive hthread hfirst hevent,
    reportsBatch_of_encodable hparse (issued_of_reachable hreach) halive hthread hfirst hevent⟩

/-- A parser that knows one text. -/
def parseEmptyObject (text : Str) : Option Json :=
  if text = ascii "\x7b\x7d" then some (.object []) else none

theorem dumps_of_parseEmptyObject (text : Str) (value : Json)
    (h : parseEmptyObject text = some value) : value.Dumps := by
  unfold parseEmptyObject at h
  split at h
  · obtain rfl := Option.some.inj h
    rfl
  · cases h

def desktop : ReportInfo :=
  ⟨.localDevice, some ⟨ascii "Windows", ascii "Unity", ascii "PC"⟩, ascii "1.0.0"⟩

def firstLaunch : Option Reporting :=
  ((Statistics.construct ⟨Table.empty, Table.empty, Table.empty⟩ (ascii "device")).init
    (ascii "session") 300000).map start

/-- The user logs in, and the reporter takes the event from the queue. -/
def loginOps (user : Str) : List Statistics.Op :=
  .onNewUser (some ⟨user, false⟩) 301000 :: List.replicate 6 .handler
    ++ List.replicate 2 (.reporter ⟨false, 302000, .success⟩)

def loginEvent (user : Str) : DurEvent :=
  ⟨1, .userLogin, false, user, [], [], ascii "device", ascii "session", 301000, 0⟩

theorem reachable_of_login {user : Str} (h : (firstLaunch.bind fun launched =>
      (loginOps user).foldlM (Reporting.step parse info) launched) = some reporting) :
    (system parse info).Reachable reporting := by
  obtain ⟨launched, hlaunched, hrun⟩ := Option.bind_eq_some_iff.mp h
  obtain ⟨statistics, hinit, rfl⟩ := Option.map_eq_some_iff.mp hlaunched
  exact System.Reaches.foldlM (fun _ _ _ => trivial)
    (.init ⟨statistics, ⟨_, _, _, _, hinit⟩, rfl⟩) hrun

theorem batch_reported_iff_jsonUser : ∃ reporting : Reporting,
    reporting.statistics.reportThread
        = some (.building [loginEvent (ascii "\x7b\x7d")] false)
      ∧ reporting.ReportsBatch parseEmptyObject desktop [loginEvent (ascii "\x7b\x7d")] := by
  have hrun : ((firstLaunch.bind fun launched => (loginOps (ascii "\x7b\x7d")).foldlM
      (Reporting.step parseEmptyObject desktop) launched).any fun reporting =>
        reporting.alive = true ∧ reporting.iterations = 1
          ∧ reporting.statistics.reportThread
            = some (.building [loginEvent (ascii "\x7b\x7d")] false)
          ∧ reporting.encodable parseEmptyObject desktop [loginEvent (ascii "\x7b\x7d")] = true)
      = true := by decide +kernel
  obtain ⟨reporting, hlast, hseen⟩ := (Option.any_eq_true _ _).mp hrun
  obtain ⟨halive, hfirst, hthread, hencodable⟩ := of_decide_eq_true hseen
  refine ⟨reporting, hthread, ?_⟩
  exact (batch_reported_iff dumps_of_parseEmptyObject (reachable_of_login hlast) halive hthread
    hfirst ⟨_, List.mem_singleton_self _, by simp [loginEvent]⟩).mpr hencodable

/-- **The login of a user whose id is not JSON is built again and again.** -/
theorem batch_built_again : ∃ reporting again : Reporting,
    (system parseEmptyObject desktop).Reachable reporting
      ∧ reporting.statistics.reportThread = some (.building [loginEvent (ascii "bob")] false)
      ∧ (List.replicate 4 (.reporter ⟨false, 302000, .success⟩)).foldlM
          (Reporting.step parseEmptyObject desktop) reporting = some again
      ∧ again.statistics.reportThread = some (.building [loginEvent (ascii "bob")] false)
      ∧ again.iterations = 2 ∧ again.received = []
      ∧ again.statistics.persistence.events.find 1 = some (loginEvent (ascii "bob"))
      ∧ ¬ reporting.ReportsBatch parseEmptyObject desktop [loginEvent (ascii "bob")] := by
  have hrun : ((firstLaunch.bind fun launched => (loginOps (ascii "bob")).foldlM
      (Reporting.step parseEmptyObject desktop) launched).any fun reporting =>
        (reporting.alive = true ∧ reporting.iterations = 1
          ∧ reporting.statistics.reportThread = some (.building [loginEvent (ascii "bob")] false)
          ∧ reporting.encodable parseEmptyObject desktop [loginEvent (ascii "bob")] = false)
        ∧ ((List.replicate 4 (.reporter ⟨false, 302000, .success⟩)).foldlM
          (Reporting.step parseEmptyObject desktop) reporting).any fun again =>
            again.statistics.reportThread = some (.building [loginEvent (ascii "bob")] false)
              ∧ again.iterations = 2 ∧ again.received = []
              ∧ again.statistics.persistence.events.find 1 = some (loginEvent (ascii "bob")))
      = true := by decide +kernel
  obtain ⟨reporting, hlast, hseen⟩ := (Option.any_eq_true _ _).mp hrun
  obtain ⟨⟨halive, hfirst, hthread, hnot⟩, hmore⟩ := of_decide_eq_true hseen
  obtain ⟨again, hagain, hretried⟩ := (Option.any_eq_true _ _).mp hmore
  obtain ⟨hthread', htwice, hnothing, hrow⟩ := of_decide_eq_true hretried
  refine ⟨reporting, again, reachable_of_login hlast, hthread, hagain, hthread', htwice, hnothing,
    hrow, fun hreports => ?_⟩
  have hencodable := encodable_of_reportsBatch dumps_of_parseEmptyObject halive hthread hfirst
    ⟨_, List.mem_singleton_self _, by simp [loginEvent]⟩ hreports
  rw [hnot] at hencodable
  cases hencodable

end Reporting

end TapSdk.Duration
