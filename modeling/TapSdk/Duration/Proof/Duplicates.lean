import Mathlib.Data.List.Nodup
import TapSdk.Duration.Startup
import TapSdk.Duration.Proof.Orphans

/-!
# Events that are queued twice

The listeners are registered before the history is read, so an event that a handler stores in
between is put in the queue by the handler and, with the history, by `InitHistory`. What has been
put and what is waiting to be put are together what is known to be stored; when nothing is known
twice, nothing is put twice.
-/

namespace TapSdk.Duration

open Library

theorem DurPersistence.nodup_getEvents (storage : DurPersistence) : storage.getEvents.Nodup := by
  have hids : (storage.getEvents.map (·.id)).Pairwise (· < ·) := by
    rw [DurPersistence.getEvents, List.map_map, List.pairwise_map]
    exact storage.events.rows.ascending
  refine List.Nodup.of_map (·.id) ?_
  exact hids.imp fun hlt => Nat.ne_of_lt hlt

namespace Statistics

variable {statistics next : Statistics} {op : Op}

theorem Begun.fresh (h : statistics.Begun op next) (hidle : statistics.handler = none) :
    ∀ handler, next.handler = some handler → handler.Fresh := by
  cases h with
  | gameStart => exact (prepares_gameStart _ _ _).2
  | onForeground _ | onBackground _ => exact (prepares_onWindow hidle _ _).2
  | login _ | logout => exact (prepares_onNewUser hidle _ _).2

/-- Only the start of a handler and its own steps change what it still has to do. -/
theorem Moved.handler_cases (h : statistics.Moved op next) (hop : op ≠ .handler) :
    next.handler = statistics.handler
      ∨ statistics.handler = none ∧ ∀ handler, next.handler = some handler →
        handler.Fresh ∧ paired handler.todo = true := by
  cases h with
  | still _ => exact Or.inl rfl
  | begun hidle hbegun =>
      exact Or.inr ⟨hidle, fun handler hnext =>
        ⟨hbegun.fresh hidle handler hnext, (hbegun.paired handler hnext).2⟩⟩
  | sameUser _ _ => exact Or.inl saveSession_handler
  | performed _ _ => exact absurd rfl hop
  | beat _ _ => exact Or.inl saveSession_handler
  | tick _ _ _ => exact Or.inl rfl
  | reporter hmove => exact Or.inl hmove.handler
  | @refreshConfig config => exact Or.inl (statistics.refreshConfig_spec config).handler

theorem storedBy_of_ne (statistics : Statistics) (hop : op ≠ .handler) :
    statistics.storedBy op = [] := by
  cases op with
  | handler => exact absurd rfl hop
  | _ => rfl

end Statistics

namespace Startup

variable {startup next : Startup} {op : Op}

/-- What a handler has stored and will put in the queue next. -/
def handled (statistics : Statistics) : List DurEvent :=
  match statistics.handler with
  | some ⟨event, .putEvent :: _⟩ => [event]
  | _ => []

def waiting (startup : Startup) : List DurEvent :=
  handled startup.statistics ++ startup.phase.pending

/-- A handler stores what is not known yet, and the history is read before any of the handlers has
stored an event, or their events have expired. -/
def fresh (startup : Startup) : Op → Bool
  | .init input =>
      match startup.phase with
      | .configured => (unexpired startup.statistics input.clock).all (· ∉ startup.known)
      | _ => true
  | .run op => (startup.statistics.storedBy op).all (· ∉ startup.known)

/-- What has been put and what is waiting are together what is known. -/
structure Accounted (startup : Startup) : Prop where
  perm : (startup.puts ++ startup.waiting).Perm startup.known
  handler : ∀ handler, startup.statistics.handler = some handler →
    orderly handler.todo = true ∧ paired handler.todo = true

theorem handled_none {statistics : Statistics} (h : statistics.handler = none) :
    handled statistics = [] := by
  rw [handled, h]

theorem handled_of_head {statistics : Statistics} {event : DurEvent} {todo : List HandlerStep}
    (hhandler : statistics.handler = some ⟨event, todo⟩) (hnot : todo.head? ≠ some .putEvent) :
    handled statistics = [] := by
  unfold handled
  rw [hhandler]
  split
  · rename_i heq
    cases heq
    exact absurd rfl hnot
  · rfl

theorem handled_of_remaining {statistics : Statistics} {event : DurEvent} {todo : List HandlerStep}
    (hhandler : statistics.handler = Statistics.remaining event todo)
    (hnot : todo.head? ≠ some .putEvent) : handled statistics = [] := by
  unfold Statistics.remaining at hhandler
  split at hhandler
  · exact handled_none hhandler
  · exact handled_of_head hhandler hnot

theorem plan_of_remaining {event : DurEvent} {todo : List HandlerStep} {handler : Handler}
    (h : Statistics.remaining event todo = some handler) (horderly : orderly todo = true)
    (hpaired : paired todo = true) :
    orderly handler.todo = true ∧ paired handler.todo = true := by
  obtain ⟨_, htodo⟩ := Account.handler_of_remaining h
  rw [htodo]
  exact ⟨horderly, hpaired⟩

/-- A step of the handler: it stores its event, which is then waiting, or puts it in the queue, or
does neither. -/
theorem handlerStep_waiting {statistics after : Statistics}
    (hplan : ∀ handler, statistics.handler = some handler →
      orderly handler.todo = true ∧ paired handler.todo = true)
    (hstep : statistics.handlerStep = some after) :
    (putBy statistics .handler ++ handled after
        = handled statistics ++ statistics.storedBy .handler)
      ∧ ∀ handler, after.handler = some handler →
        orderly handler.todo = true ∧ paired handler.todo = true := by
  obtain ⟨event, step, todo, hhandler, hcases⟩ := Statistics.handlerStep_cases hstep
  obtain ⟨horderly, hpaired⟩ := hplan _ hhandler
  obtain ⟨horderlyRest, hnext⟩ := Account.orderly_tail horderly
  obtain ⟨hpairedRest, hput⟩ := Statistics.paired_tail hpaired
  rcases hcases with ⟨rfl, rfl⟩ | ⟨rfl, queue, _, rfl⟩ | ⟨hstores, hputs, _, hremaining⟩
  · obtain ⟨more, rfl⟩ : ∃ more, todo = .putEvent :: more := by
      cases todo with
      | nil => cases hput rfl
      | cons second more =>
          obtain rfl := Option.some.inj (hput rfl)
          exact ⟨more, rfl⟩
    refine ⟨?_, fun handler hleft => plan_of_remaining hleft horderlyRest hpairedRest⟩
    simp only [putBy, handled, Statistics.storedBy, hhandler]
    rfl
  · refine ⟨?_, fun handler hleft => plan_of_remaining hleft horderlyRest hpairedRest⟩
    have hafter :=
      @handled_of_remaining { statistics with
          reportQueue := queue
          handler := Statistics.remaining event todo }
        event todo rfl (hnext (by simp))
    rw [hafter]
    simp only [putBy, handled, Statistics.storedBy, hhandler]
  · refine ⟨?_, fun handler hleft =>
      plan_of_remaining (hremaining.symm.trans hleft) horderlyRest hpairedRest⟩
    rw [handled_of_remaining hremaining (hnext hstores),
      handled_of_head hhandler (by simpa using hputs)]
    simp only [putBy, Statistics.storedBy, hhandler]
    cases step with
    | addOrMergeEvent => exact absurd rfl hstores
    | putEvent => exact absurd rfl hputs
    | _ => rfl

theorem putBy_of_ne (statistics : Statistics) {op : Statistics.Op} (hop : op ≠ .handler) :
    putBy statistics op = [] := by
  cases op with
  | handler => exact absurd rfl hop
  | _ => rfl

theorem step_waiting {statistics after : Statistics} {op : Statistics.Op}
    (hplan : ∀ handler, statistics.handler = some handler →
      orderly handler.todo = true ∧ paired handler.todo = true)
    (hstep : statistics.step op = some after) :
    (putBy statistics op ++ handled after = handled statistics ++ statistics.storedBy op)
      ∧ ∀ handler, after.handler = some handler →
        orderly handler.todo = true ∧ paired handler.todo = true := by
  by_cases hop : op = .handler
  · subst hop
    unfold Statistics.step at hstep
    split at hstep
    · cases hstep
    · exact handlerStep_waiting hplan hstep
  · rw [putBy_of_ne statistics hop, statistics.storedBy_of_ne hop, List.nil_append, List.append_nil]
    rcases (Statistics.moved_of_step hstep).handler_cases hop with hsame | ⟨hidle, hbegun⟩
    · refine ⟨?_, fun handler hnext => hplan handler (hsame.symm.trans hnext)⟩
      rw [handled, handled, hsame]
    · refine ⟨?_, fun handler hnext => ⟨(hbegun handler hnext).1.orderly, (hbegun handler hnext).2⟩⟩
      rw [handled_none hidle]
      cases hhandler : after.handler with
      | none => exact handled_none hhandler
      | some handler => exact handled_of_head hhandler (hbegun handler hhandler).1.unstored

/-! ### The steps of a run -/

theorem nodup_storedBy (statistics : Statistics) (op : Statistics.Op) :
    (statistics.storedBy op).Nodup := by
  unfold Statistics.storedBy
  repeat' split
  all_goals simp

theorem Accounted.run (h : startup.Accounted) {op : Statistics.Op}
    (hstep : startup.runStep op = some next) : next.Accounted := by
  unfold runStep at hstep
  split at hstep
  · obtain ⟨after, hafter, rfl⟩ := Option.map_eq_some_iff.mp hstep
    obtain ⟨heq, hplan⟩ := step_waiting h.handler hafter
    refine ⟨?_, hplan⟩
    -- what is stored joins what is waiting, in front of the history
    have hmoved : (startup.puts ++ putBy startup.statistics op
        ++ (handled after ++ startup.phase.pending))
          = startup.puts ++ (handled startup.statistics ++ (startup.statistics.storedBy op
              ++ startup.phase.pending)) := by
      rw [List.append_assoc, ← List.append_assoc (putBy _ _), heq, List.append_assoc]
    have hjoined : (startup.puts ++ (handled startup.statistics ++ (startup.statistics.storedBy op
        ++ startup.phase.pending))).Perm
          (startup.puts ++ startup.waiting ++ startup.statistics.storedBy op) := by
      rw [waiting, List.append_assoc, List.append_assoc]
      exact (List.perm_append_comm.append_left _).append_left _
    change (startup.puts ++ putBy startup.statistics op
      ++ (handled after ++ startup.phase.pending)).Perm _
    rw [hmoved]
    exact hjoined.trans (h.perm.append_right _)
  · cases hstep

/-- An operation of `Init` that leaves the handler alone, outside `InitHistory`. -/
theorem Accounted.congr (h : startup.Accounted) (hhandler : next.statistics.handler
      = startup.statistics.handler) (hputs : next.puts = startup.puts)
    (hknown : next.known = startup.known)
    (hpending : next.phase.pending = startup.phase.pending) : next.Accounted := by
  refine ⟨?_, fun handler hnext => h.handler handler (hhandler.symm.trans hnext)⟩
  rw [waiting, handled, hhandler, hputs, hknown, hpending]
  exact h.perm

theorem newGameSession_handler (statistics : Statistics) (uuid : Str) :
    (statistics.newGameSession uuid).handler = statistics.handler := by
  simp only [Statistics.newGameSession, Statistics.saveSession_handler]
  split <;> rfl

theorem loadConfig_handler (statistics : Statistics) :
    (loadConfig statistics).handler = statistics.handler := by
  unfold loadConfig
  split <;> rfl

theorem initReportThread_handler (statistics : Statistics) :
    statistics.initReportThread.handler = statistics.handler := by
  unfold Statistics.initReportThread
  repeat' split
  all_goals rfl

theorem Accounted.initStep (h : startup.Accounted) {input : InitInput}
    (hstep : startup.initStep input = some next) : next.Accounted := by
  unfold Startup.initStep at hstep
  split at hstep
  · rename_i hphase
    obtain rfl := Option.some.inj hstep
    exact h.congr (newGameSession_handler _ _) rfl rfl (by rw [hphase]; rfl)
  · rename_i listeners hphase
    obtain rfl := Option.some.inj hstep
    refine h.congr rfl rfl rfl ?_
    rw [hphase]
    dsimp only
    split <;> rfl
  · rename_i hphase
    obtain rfl := Option.some.inj hstep
    exact h.congr rfl rfl rfl (by rw [hphase]; rfl)
  · rename_i hphase
    obtain rfl := Option.some.inj hstep
    exact h.congr (loadConfig_handler _) rfl rfl (by rw [hphase]; rfl)
  · rename_i hphase
    obtain rfl := Option.some.inj hstep
    refine ⟨?_, h.handler⟩
    have hbefore := h.perm
    rw [waiting, hphase] at hbefore
    change (startup.puts ++ (handled startup.statistics ++ [])).Perm _ at hbefore
    rw [List.append_nil] at hbefore
    change (startup.puts ++ (handled startup.statistics
      ++ unexpired startup.statistics input.clock)).Perm _
    rw [← List.append_assoc]
    exact hbefore.append_right _
  · rename_i pending hphase
    obtain ⟨queue, _, rfl⟩ := Option.map_eq_some_iff.mp hstep
    refine ⟨?_, h.handler⟩
    have hbefore := h.perm
    rw [waiting, hphase] at hbefore
    change (startup.puts ++ pending ++ (handled startup.statistics ++ [])).Perm startup.known
    rw [List.append_nil, List.append_assoc]
    exact (List.perm_append_comm.append_left _).trans hbefore
  · rename_i hphase
    obtain rfl := Option.some.inj hstep
    exact h.congr (initReportThread_handler _) rfl rfl (by rw [hphase]; rfl)
  · rename_i hphase
    obtain rfl := Option.some.inj hstep
    exact h.congr rfl rfl rfl (by rw [hphase]; rfl)
  · cases hstep

theorem Accounted.step (h : startup.Accounted) (hstep : startup.step op = some next) :
    next.Accounted := by
  unfold Startup.step at hstep
  split at hstep
  · cases hstep
  · cases op with
    | init input => exact h.initStep hstep
    | run op => exact h.run hstep

theorem accounted_of_reaches (hreach : system.Reachable startup) : startup.Accounted := by
  refine hreach.invariant Accounted ?_ fun _ _ _ h _ hstep => h.step hstep
  rintro _ ⟨storage, deviceId, rfl⟩
  exact ⟨List.Perm.refl _, fun handler hhandler => by cases hhandler⟩

/-! ### What becomes known -/

/-- What a step adds to what is known. -/
def learnt (startup : Startup) : Op → List DurEvent
  | .init input =>
      match startup.phase with
      | .configured => unexpired startup.statistics input.clock
      | _ => []
  | .run op => startup.statistics.storedBy op

theorem known_step (hstep : startup.step op = some next) :
    next.known = startup.known ++ startup.learnt op := by
  unfold step at hstep
  split at hstep
  · cases hstep
  · cases op with
    | init input =>
        simp only [initStep] at hstep
        split at hstep
        case h_6 pending hphase =>
          obtain ⟨queue, _, rfl⟩ := Option.map_eq_some_iff.mp hstep
          simp only [learnt, hphase, List.append_nil]
        case h_9 => cases hstep
        all_goals
          rename_i hphase
          obtain rfl := Option.some.inj hstep
          simp only [learnt, hphase, List.append_nil]
    | run op =>
        simp only [runStep] at hstep
        split at hstep
        · obtain ⟨after, _, rfl⟩ := Option.map_eq_some_iff.mp hstep
          rfl
        · cases hstep

theorem fresh_eq (startup : Startup) (op : Op) :
    startup.fresh op = (startup.learnt op).all (· ∉ startup.known) := by
  cases op with
  | run op => rfl
  | init input =>
      simp only [fresh, learnt]
      split <;> rfl

theorem nodup_learnt (startup : Startup) (op : Op) : (startup.learnt op).Nodup := by
  cases op with
  | run op => exact nodup_storedBy _ _
  | init input =>
      simp only [learnt]
      split
      · exact startup.statistics.persistence.nodup_getEvents.filter _
      · exact List.nodup_nil

/-- Nothing becomes known twice with a step that meets the condition, and only then. -/
theorem nodup_known_iff (hstep : startup.step op = some next) :
    next.known.Nodup ↔ startup.known.Nodup ∧ startup.fresh op = true := by
  rw [known_step hstep, fresh_eq, List.nodup_append, List.all_eq_true]
  constructor
  · rintro ⟨hknown, _, hapart⟩
    exact ⟨hknown, fun event hevent => decide_eq_true fun hold =>
      hapart event hold event hevent rfl⟩
  · rintro ⟨hknown, hnew⟩
    refine ⟨hknown, nodup_learnt startup op, fun event hold other hother => ?_⟩
    rintro rfl
    exact of_decide_eq_true (hnew event hother) hold

theorem known_sublist {ops : List Op} {last : Startup}
    (hrun : ops.foldlM system.step startup = some last) : startup.known.Sublist last.known := by
  induction ops generalizing startup with
  | nil =>
      obtain rfl := Option.some.inj hrun
      exact List.Sublist.refl _
  | cons op ops ih =>
      rw [List.foldlM_cons] at hrun
      obtain ⟨next, hnext, hrest⟩ := Option.bind_eq_some_iff.mp hrun
      have hgrown := known_step hnext
      exact (hgrown ▸ List.sublist_append_left _ _).trans (ih hrest)

theorem alongSteps_fresh_iff {ops : List Op} {last : Startup} (hnodup : startup.known.Nodup)
    (hrun : ops.foldlM system.step startup = some last) :
    system.AlongSteps (fun startup op => startup.fresh op = true) startup ops
      ↔ last.known.Nodup := by
  induction ops generalizing startup with
  | nil =>
      obtain rfl := Option.some.inj hrun
      exact iff_of_true trivial hnodup
  | cons op ops ih =>
      rw [List.foldlM_cons] at hrun
      obtain ⟨next, hnext, hrest⟩ := Option.bind_eq_some_iff.mp hrun
      have hiff := nodup_known_iff hnext
      constructor
      · intro halong
        obtain ⟨hfresh, hlater⟩ := halong next hnext
        exact (ih (hiff.mpr ⟨hnodup, hfresh⟩) hrest).mp hlater
      · intro hlast after hafter
        obtain rfl := Option.some.inj (hnext.symm.trans hafter)
        have hknown := hlast.sublist (known_sublist hrest)
        exact ⟨(hiff.mp hknown).2, (ih hknown hrest).mpr hlast⟩

/-- **Nothing is put in the queue twice** along every run in which nothing becomes known twice; and
when nothing is left waiting at its end, only then. -/
theorem puts_nodup (storage : DurPersistence) (deviceId : Str) {ops : List Op} {last : Startup}
    (hrun : ops.foldlM system.step (start storage deviceId) = some last) :
    (system.AlongSteps (fun startup op => startup.fresh op = true) (start storage deviceId) ops →
        last.puts.Nodup)
      ∧ (last.waiting = [] → last.puts.Nodup →
        system.AlongSteps (fun startup op => startup.fresh op = true) (start storage deviceId)
          ops) := by
  have hreach : system.Reachable last :=
    System.Reaches.foldlM (fun _ _ _ => trivial) (.init ⟨storage, deviceId, rfl⟩) hrun
  have hperm := (accounted_of_reaches hreach).perm
  rw [alongSteps_fresh_iff List.nodup_nil hrun, ← hperm.nodup_iff]
  constructor
  · exact fun hboth => (List.nodup_append.mp hboth).1
  · intro hnothing hputs
    rw [hnothing, List.append_nil]
    exact hputs

/-- So many operations of `Init`, at this time. -/
def initOps (count : Nat) : List Op :=
  List.replicate count (.init ⟨[117], fun _ => 300000⟩)

/-- A user logs in. -/
def loginOps : List Op :=
  .run (.onNewUser (some ⟨[97], true⟩) 300000) :: List.replicate 6 (.run .handler)

def emptyStart : Startup := start ⟨Table.empty, Table.empty, Table.empty⟩ []

/-- A storage in which an earlier launch has left a login. -/
def leftStart : Startup :=
  start ⟨Table.empty.insert fun id => ⟨id, .userLogin, true, [98], [], [], [], [116], 200000, 0⟩,
    Table.empty, Table.empty⟩ []

theorem puts_nodup_login_after_init : ∃ startup : Startup,
    (initOps 11 ++ loginOps).foldlM system.step leftStart = some startup
      ∧ startup.puts.map (·.userId) = [[98], [97]] ∧ startup.puts.Nodup := by
  have hrun : (((initOps 11 ++ loginOps).foldlM system.step leftStart).any
      fun startup : Startup => startup.puts.map (·.userId) = [[98], [97]]) = true := by
    decide +kernel
  have hfresh : ((system.guarded (fun startup op => startup.fresh op = true)
      (initOps 11 ++ loginOps) leftStart).isSome) = true := by decide +kernel
  obtain ⟨startup, hlast, hputs⟩ := (Option.any_eq_true _ _).mp hrun
  obtain ⟨same, hguarded⟩ := Option.isSome_iff_exists.mp hfresh
  exact ⟨startup, hlast, of_decide_eq_true hputs,
    (puts_nodup _ _ hlast).1 (System.alongSteps_of_guarded hguarded)⟩

/-- **A user who logs in before the history is read is reported twice.** -/
theorem login_put_twice : ∃ startup, system.Reachable startup
    ∧ startup.phase = .initialized ∧ ¬ startup.puts.Nodup := by
  have hrun : ((system.guarded (fun _ _ => True) (initOps 6 ++ loginOps ++ initOps 5)
      emptyStart).any fun startup : Startup => startup.phase = .initialized
        ∧ ¬ startup.puts.Nodup) = true := by decide +kernel
  obtain ⟨startup, hguarded, hseen⟩ := (Option.any_eq_true _ _).mp hrun
  obtain ⟨hphase, htwice⟩ := of_decide_eq_true hseen
  exact ⟨startup, System.Reaches.guarded (.init ⟨_, _, rfl⟩) hguarded, hphase, htwice⟩

end Startup

end TapSdk.Duration
