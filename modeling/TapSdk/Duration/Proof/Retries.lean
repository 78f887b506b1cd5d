import TapSdk.Duration.Proof.Clock

/-!
# The inner loop of the reporter

An iteration that finds nothing to send goes on to the condition of the loop, which reads
`report_success`: the garbage it was born with, or the failure of the iteration before. This module
keeps an account of the iterations, and says which runs have none that does nothing and is followed
by another one for the same batch.
-/

namespace TapSdk.Duration

open Library

namespace Statistics

variable {statistics next : Statistics}

/-- All events are heartbeats, and the app is in the background or there is none. -/
def nothingToSend (foreground : Bool) (events : List DurEvent) : Bool :=
  events.all (fun event => event.action = .heatBeat) && (!foreground || events.isEmpty)

theorem reports_eq_nil_iff (statistics : Statistics) (now : UInt64) (events : List DurEvent)
    (hasHeatBeats : Bool) :
    (statistics.buildReports now events hasHeatBeats).2.1 = []
      ↔ (∀ event ∈ events, event.action = .heatBeat)
        ∧ (hasHeatBeats = true ∨ statistics.foreground = false ∨ events = []) := by
  induction events generalizing hasHeatBeats with
  | nil => simp [buildReports]
  | cons first rest ih =>
      simp only [buildReports]
      by_cases hfirst : first.action = .heatBeat
      · rw [if_neg (not_not_intro hfirst)]
        by_cases hskipped : (hasHeatBeats || !statistics.foreground) = true
        · rw [if_pos hskipped]
          have hreason : hasHeatBeats = true ∨ statistics.foreground = false := by
            simpa using hskipped
          rw [ih]
          simp only [List.forall_mem_cons, hfirst, true_and]
          tauto
        · rw [if_neg hskipped]
          simp only [Bool.or_eq_true, Bool.not_eq_true', not_or] at hskipped
          simp [hskipped.1, hskipped.2]
      · rw [if_pos hfirst]
        simp [hfirst]

theorem buildReports_eq_nil_iff (statistics : Statistics) (now : UInt64) (events : List DurEvent) :
    (statistics.buildReports now events false).2.1 = []
      ↔ nothingToSend statistics.foreground events = true := by
  rw [reports_eq_nil_iff]
  simp [nothingToSend]

/-- Only its own steps move the reporter, unless its thread is started. -/
theorem Moved.reportThread {op : Op} (h : statistics.Moved op next) :
    (∃ input, op = .reporter input ∧ statistics.ReporterMove input next)
      ∨ (∀ input, op ≠ .reporter input)
        ∧ (next.reportThread = statistics.reportThread ∨ next.reportThread = some .loop) := by
  cases h with
  | still hquiet =>
      refine Or.inr ⟨?_, Or.inl rfl⟩
      rintro input rfl
      cases hquiet
  | begun _ hbegun =>
      refine Or.inr ⟨?_, Or.inl hbegun.frame.2.2.2.2⟩
      rintro input rfl
      cases hbegun
  | sameUser _ _ =>
      exact Or.inr
        ⟨nofun, Or.inl (sameReporting_saveSession statistics.setSessionUser).reportThread⟩
  | performed _ hperform => exact Or.inr ⟨nofun, Or.inl (perform_frame hperform).2⟩
  | beat _ _ => exact Or.inr ⟨nofun, Or.inl (sameReporting_saveSession _).reportThread⟩
  | tick _ _ _ => exact Or.inr ⟨nofun, Or.inl rfl⟩
  | reporter hmove => exact Or.inl ⟨_, rfl, hmove⟩
  | @refreshConfig config => exact Or.inr ⟨nofun, statistics.refreshConfig_thread config⟩

/-- The condition of the inner loop. -/
theorem leaves_iff {input : ReporterInput} {events : List DurEvent} {reportSuccess : Bool}
    (hthread : statistics.reportThread = some (.checking events reportSuccess))
    (h : statistics.step (.reporter input) = some next) :
    next.reportThread = some .loop ↔ reportSuccess = true ∨ statistics.running = false := by
  unfold step at h
  split at h
  · cases h
  · simp only [reporterStep, hthread] at h
    obtain rfl := Option.some.inj h
    cases reportSuccess <;> cases hrunning : statistics.running <;> simp [setReporter]

end Statistics

/-- The statistics with an account of the current batch. -/
structure Watched where
  statistics : Statistics
  -- What was in `report_success` when the batch was taken.
  initial : Bool
  -- The iteration is the first one of its batch.
  first : Bool
  -- The iteration has gone through the batch and had nothing to send.
  idle : Bool
  -- The iteration has performed its POST.
  posted : Bool

namespace Watched

variable {watched after : Watched} {op : Statistics.Op}

def recordReporter (watched : Watched) (input : Statistics.ReporterInput) (next : Statistics) :
    Watched :=
  match watched.statistics.reportThread with
  | some .waiting => ⟨next, input.uninitialized, true, false, false⟩
  | some (.building events _) => { watched with
      statistics := next
      idle := Statistics.nothingToSend watched.statistics.foreground events }
  | some (.posting ..) => { watched with statistics := next, posted := true }
  | some (.checking ..) => ⟨next, watched.initial, false, false, false⟩
  | _ => { watched with statistics := next }

def record (watched : Watched) (next : Statistics) : Statistics.Op → Watched
  | .reporter input => watched.recordReporter input next
  | _ => { watched with statistics := next }

def step (watched : Watched) (op : Statistics.Op) : Option Watched :=
  (watched.statistics.step op).map fun next => watched.record next op

def start (statistics : Statistics) : Watched := ⟨statistics, false, false, false, false⟩

def system : System Watched Statistics.Op where
  init watched := ∃ statistics, Statistics.system.init statistics ∧ watched = start statistics
  step := step

/-- An iteration that comes to its end has performed a POST, or it is the last one for the batch. -/
def PostsOrLeaves (watched : Watched) (op : Statistics.Op) : Prop :=
  ∀ input events reportSuccess next, op = .reporter input →
    watched.statistics.reportThread = some (.checking events reportSuccess) →
    watched.statistics.step op = some next →
    watched.posted = true ∨ next.reportThread = some .loop

/-- When an iteration that had nothing to send comes to its end, it is the first one and
`report_success` happened to be true, or the statistics have been stopped. -/
def idleLeaves (watched : Watched) : Statistics.Op → Bool
  | .reporter _ =>
      match watched.statistics.reportThread with
      | some (.checking ..) =>
          !watched.idle || (watched.first && watched.initial) || !watched.statistics.running
      | _ => true
  | _ => true

theorem idleLeaves_iff : watched.idleLeaves op = true
    ↔ ∀ input events reportSuccess, op = .reporter input →
      watched.statistics.reportThread = some (.checking events reportSuccess) →
      watched.idle = true →
      (watched.first && watched.initial) = true ∨ watched.statistics.running = false := by
  constructor
  · rintro h input events reportSuccess rfl hthread hidle
    simp only [idleLeaves, hthread, hidle, Bool.not_true, Bool.false_or, Bool.or_eq_true,
      Bool.not_eq_true'] at h
    exact h
  · intro h
    unfold idleLeaves
    split
    · rename_i input
      split
      · rename_i events reportSuccess hthread
        cases hidle : watched.idle with
        | false => rfl
        | true => simpa using h input events reportSuccess rfl hthread hidle
      · rfl
    · rfl

/-- What the account says at this place of the loop. -/
def AccountedAt (watched : Watched) : Option Reporter → Prop
  | some (.building _ reportSuccess) =>
      watched.posted = false ∧ reportSuccess = (watched.first && watched.initial)
  | some (.posting ..) => watched.idle = false
  | some (.answered ..) | some (.beating ..) => watched.idle = false ∧ watched.posted = true
  | some (.checking _ reportSuccess) =>
      watched.idle = false ∧ watched.posted = true
        ∨ watched.idle = true ∧ watched.posted = false
          ∧ reportSuccess = (watched.first && watched.initial)
  | none | some .loop | some .waiting | some .exited => True

def Accounted (watched : Watched) : Prop := watched.AccountedAt watched.statistics.reportThread

theorem Accounted.reporter (h : watched.Accounted) {input : Statistics.ReporterInput}
    {next : Statistics} (hmove : watched.statistics.ReporterMove input next) :
    (watched.recordReporter input next).Accounted := by
  unfold Accounted at h
  cases hmove with
  | goOn hthread _ | leave hthread _ =>
      simp only [recordReporter, hthread]
      trivial
  | take hthread _ =>
      simp only [recordReporter, hthread]
      exact ⟨rfl, rfl⟩
  | @skip events _ reportSuccess _ hthread hbuild =>
      rw [hthread] at h
      have hidle :=
        (watched.statistics.buildReports_eq_nil_iff input.now events).mp (by rw [hbuild])
      simp only [recordReporter, hthread]
      exact Or.inr ⟨hidle, h.1, h.2⟩
  | @post events _ reports reportSuccess _ hthread hbuild hsome =>
      have hbusy : Statistics.nothingToSend watched.statistics.foreground events = false := by
        rw [← Bool.not_eq_true, ← watched.statistics.buildReports_eq_nil_iff input.now, hbuild]
        exact hsome
      simp only [recordReporter, hthread]
      exact hbusy
  | answer hthread =>
      rw [hthread] at h
      simp only [recordReporter, hthread]
      exact ⟨h, rfl⟩
  | @delivered _ _ hasHeatBeats hthread =>
      rw [hthread] at h
      simp only [recordReporter, hthread]
      cases hasHeatBeats with
      | true => exact h
      | false => exact Or.inl h
  | discarded hthread _ =>
      simp only [recordReporter, hthread]
      trivial
  | failed hthread _ | beaten hthread _ _ | overtaken hthread _ _ =>
      rw [hthread] at h
      simp only [recordReporter, hthread]
      exact Or.inl h
  | retry hthread _ =>
      simp only [recordReporter, hthread]
      exact ⟨rfl, rfl⟩
  | done hthread _ =>
      simp only [recordReporter, hthread]
      trivial

theorem Accounted.step (h : watched.Accounted) (hstep : watched.step op = some after) :
    after.Accounted := by
  obtain ⟨next, hnext, rfl⟩ := Option.map_eq_some_iff.mp hstep
  rcases (Statistics.moved_of_step hnext).reportThread with ⟨input, rfl, hmove⟩ | ⟨hnot, hthread⟩
  · exact h.reporter hmove
  · have hrecord : watched.record next op = { watched with statistics := next } := by
      cases op with
      | reporter input => exact absurd rfl (hnot input)
      | _ => rfl
    rw [hrecord]
    rcases hthread with hsame | hloop
    · unfold Accounted at h ⊢
      rw [← hsame] at h
      exact h
    · unfold Accounted
      rw [hloop]
      trivial

/-- At the end of an iteration the two conditions say the same. -/
theorem Accounted.postsOrLeaves_iff (h : watched.Accounted) (hstep : watched.step op = some after) :
    watched.PostsOrLeaves op ↔ watched.idleLeaves op = true := by
  obtain ⟨next, hnext, _⟩ := Option.map_eq_some_iff.mp hstep
  rw [idleLeaves_iff]
  unfold Accounted at h
  constructor
  · rintro hposts input events reportSuccess rfl hthread hidle
    rw [hthread] at h
    rcases h with ⟨hbusy, _⟩ | ⟨_, hposted, hvalue⟩
    · rw [hidle] at hbusy
      cases hbusy
    · rcases hposts input events reportSuccess next rfl hthread hnext with hpost | hleaves
      · rw [hposted] at hpost
        cases hpost
      · refine ((Statistics.leaves_iff hthread hnext).mp hleaves).imp_left fun hsuccess => ?_
        rw [← hvalue]
        exact hsuccess
  · rintro hidles input events reportSuccess after rfl hthread hafter
    rw [hthread] at h
    rcases h with ⟨_, hposted⟩ | ⟨hidle, _, hvalue⟩
    · exact Or.inl hposted
    · refine Or.inr ((Statistics.leaves_iff hthread hafter).mpr ?_)
      refine (hidles input events reportSuccess rfl hthread hidle).imp_left fun hfirst => ?_
      rw [hvalue]
      exact hfirst

/-- **When the inner loop does not spin.** -/
theorem posts_or_leaves_iff {watched : Watched} (hinit : system.init watched)
    (ops : List Statistics.Op) :
    system.AlongSteps PostsOrLeaves watched ops
      ↔ system.AlongSteps (fun watched op => watched.idleLeaves op = true) watched ops := by
  refine System.alongSteps_congr (fun _ _ _ _ h hstep => Accounted.step h hstep)
    (fun _ _ _ h hstep => Accounted.postsOrLeaves_iff h hstep) ?_
  obtain ⟨statistics, ⟨storage, deviceId, uuid, now, hstart⟩, rfl⟩ := hinit
  obtain ⟨_, _, hthread, _⟩ := Statistics.init_spec hstart
  unfold Accounted start
  rw [hthread]
  split <;> trivial

/-- A new device, after `Init`. -/
def firstLaunch : Option Watched :=
  ((Statistics.construct ⟨Table.empty, Table.empty, Table.empty⟩ []).init [117] 0).map start

theorem init_firstLaunch (h : firstLaunch = some watched) : system.init watched := by
  obtain ⟨statistics, hstart, rfl⟩ := Option.map_eq_some_iff.mp h
  exact ⟨statistics, ⟨_, _, _, _, hstart⟩, rfl⟩

/-- A game starts and is reported, and a heartbeat is taken. -/
def beatTaken : List Statistics.Op :=
  [.gameStart [103] [112] 1] ++ List.replicate 4 .handler
    ++ List.replicate 7 (.reporter ⟨false, 2, .success⟩) ++ [.onlineHeatBeat 3]
    ++ [.reporter ⟨false, 4, .success⟩]

theorem posts_or_leaves_in_foreground : ∃ watched, firstLaunch = some watched
    ∧ system.AlongSteps PostsOrLeaves watched
      (beatTaken ++ List.replicate 5 (.reporter ⟨false, 5, .success⟩)) := by
  have hrun : (firstLaunch.any fun watched => (system.guarded
      (fun watched op => watched.idleLeaves op = true)
      (beatTaken ++ List.replicate 5 (.reporter ⟨false, 5, .success⟩)) watched).isSome) = true := by
    decide +kernel
  obtain ⟨watched, hwatched, hguarded⟩ := (Option.any_eq_true _ _).mp hrun
  obtain ⟨last, hlast⟩ := Option.isSome_iff_exists.mp hguarded
  exact ⟨watched, hwatched, (posts_or_leaves_iff (init_firstLaunch hwatched) _).mpr
    (System.alongSteps_of_guarded hlast)⟩

/-- At the condition of the inner loop, without a POST, and about to begin again. -/
def spinning (watched : Watched) : Bool :=
  match watched.statistics.reportThread with
  | some (.checking ..) => !watched.posted
      && (watched.statistics.step (.reporter ⟨false, 6, .success⟩)).any fun next : Statistics =>
        next.reportThread ≠ some .loop
  | _ => false

/-- The app goes to the background before the reporter goes through its batch. -/
def beatThenBackground : List Statistics.Op :=
  beatTaken ++ [.onBackground 5, .reporter ⟨false, 6, .success⟩]

/-- **In the background, with a heartbeat taken, the loop spins.** -/
theorem spins_in_background : ∃ watched, firstLaunch = some watched
    ∧ ¬ system.AlongSteps PostsOrLeaves watched
      (beatThenBackground ++ [.reporter ⟨false, 6, .success⟩]) := by
  have hrun : (firstLaunch.any fun watched =>
      (beatThenBackground.foldlM system.step watched).any spinning) = true := by decide +kernel
  obtain ⟨watched, hwatched, hspins⟩ := (Option.any_eq_true _ _).mp hrun
  obtain ⟨last, hlast, hspinning⟩ := (Option.any_eq_true _ _).mp hspins
  refine ⟨watched, hwatched, fun halong => ?_⟩
  unfold spinning at hspinning
  split at hspinning
  · rename_i events reportSuccess hthread
    obtain ⟨hposted, hany⟩ := Bool.and_eq_true_iff.mp hspinning
    obtain ⟨next, hnext, hgoes⟩ := (Option.any_eq_true _ _).mp hany
    have hstep : system.step last (.reporter ⟨false, 6, .success⟩)
        = some (last.record next (.reporter ⟨false, 6, .success⟩)) := by
      change last.step _ = _
      rw [step, hnext]
      rfl
    have hposts := halong.allowed hlast hstep
    rcases hposts _ events reportSuccess next rfl hthread hnext with hpost | hleaves
    · rw [hpost] at hposted
      cases hposted
    · exact of_decide_eq_true hgoes hleaves
  · cases hspinning

end Watched

end TapSdk.Duration
