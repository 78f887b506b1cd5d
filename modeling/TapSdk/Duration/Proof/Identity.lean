import TapSdk.Duration.Handlers
import TapSdk.Duration.Proof.Sessions

/-!
# The three copies of the identity

Who plays what, in which session, is kept three times: in the members of `DurationStatistics`, in
`local_session`, and in the newest row of the session table. Every handler brings the copies back
together. A launch takes the user over from the row into the members only, and opens a session
without a user; the user is lost to the launch after that, unless there was none.
-/

namespace TapSdk.Duration

open Library

structure Identity where
  userId : Str
  tapUser : Bool
  gameId : Str
  gamePkg : Str
  session : Str
  deriving DecidableEq

def GameSession.identity (session : GameSession) : Identity where
  userId := session.userId
  tapUser := session.tapUser
  gameId := session.gameId
  gamePkg := session.gamePkg
  session := session.session

def Statistics.identity (statistics : Statistics) : Identity where
  userId := statistics.userId
  tapUser := statistics.tapUser
  gameId := statistics.gameId
  gamePkg := statistics.gamePkg
  session := statistics.gameSession

structure Copies where
  live : Identity
  session : Identity
  row : Identity

/-- What a step of a handler copies. -/
def HandlerStep.copy (copies : Copies) : HandlerStep → Copies
  | .startSession => { copies with session := { copies.session with
      gameId := copies.live.gameId, gamePkg := copies.live.gamePkg } }
  | .userSession => { copies with session := { copies.session with
      userId := copies.live.userId, tapUser := copies.live.tapUser } }
  | .updateSession => { copies with row := copies.session }
  | .touchSession | .addOrMergeEvent | .putEvent => copies

namespace Statistics

variable {statistics next : Statistics} {copies : Copies} {event after : DurEvent}

/-- The copies that a state has. The session of the process has its row, which is the newest. -/
structure Holds (statistics : Statistics) (copies : Copies) : Prop where
  live : statistics.identity = copies.live
  session : statistics.localSession.identity = copies.session
  id : statistics.localSession.id ≠ 0
  row : ∃ row, statistics.persistence.sessions.latest = some (statistics.localSession.id, row)
    ∧ row.identity = copies.row

/-! ### One step of a handler -/

theorem Holds.saveSession (h : statistics.Holds copies) :
    statistics.saveSession.Holds { copies with row := copies.session } := by
  obtain ⟨row, hlatest, _⟩ := h.row
  rw [saveSession_of_id h.id]
  exact ⟨h.live, h.session, h.id, statistics.localSession, Table.latest_update hlatest, h.session⟩

theorem Holds.perform {step : HandlerStep} (h : statistics.Holds copies)
    (hperform : statistics.perform event step = some (after, next)) :
    next.Holds (step.copy copies) := by
  cases step with
  | startSession =>
      obtain ⟨rfl, rfl⟩ := Prod.mk.inj (Option.some.inj hperform)
      refine ⟨h.live, ?_, h.id, h.row⟩
      simp only [HandlerStep.copy, ← h.live, ← h.session]
      rfl
  | touchSession =>
      obtain ⟨rfl, rfl⟩ := Prod.mk.inj (Option.some.inj hperform)
      exact ⟨h.live, h.session, h.id, h.row⟩
  | userSession =>
      obtain ⟨rfl, rfl⟩ := Prod.mk.inj (Option.some.inj hperform)
      refine ⟨h.live, ?_, h.id, h.row⟩
      simp only [HandlerStep.copy, ← h.live, ← h.session]
      rfl
  | updateSession =>
      obtain ⟨rfl, rfl⟩ := Prod.mk.inj (Option.some.inj hperform)
      exact h.saveSession
  | addOrMergeEvent =>
      obtain ⟨rfl, rfl⟩ := Prod.mk.inj (Option.some.inj hperform)
      obtain ⟨row, hlatest, hrow⟩ := h.row
      refine ⟨h.live, h.session, h.id, row, ?_, hrow⟩
      have hsame := addOrMergeEvent_sessions statistics.persistence event
      exact (congrArg Table.latest hsame).trans hlatest
  | putEvent =>
      obtain ⟨queue, _, hpair⟩ := Option.map_eq_some_iff.mp hperform
      obtain ⟨rfl, rfl⟩ := Prod.mk.inj hpair
      exact ⟨h.live, h.session, h.id, h.row⟩

theorem Holds.performAll {todo : List HandlerStep} (h : statistics.Holds copies)
    (hperform : statistics.performAll event todo = some (after, next)) :
    next.Holds (todo.foldl HandlerStep.copy copies) := by
  induction todo generalizing statistics copies event with
  | nil =>
      obtain ⟨rfl, rfl⟩ := Prod.mk.inj (Option.some.inj hperform)
      exact h
  | cons step todo ih =>
      simp only [Statistics.performAll] at hperform
      split at hperform
      · rename_i hstep
        exact ih (h.perform hstep) hperform
      · cases hperform

theorem Holds.runHandler {handler : Handler} (h : statistics.Holds copies)
    (hhandler : statistics.handler = some handler) (hrun : statistics.runHandler = some next) :
    next.Holds (handler.todo.foldl HandlerStep.copy copies) := by
  simp only [Statistics.runHandler, hhandler] at hrun
  obtain ⟨⟨after, last⟩, hperform, rfl⟩ := Option.map_eq_some_iff.mp hrun
  have hlast := h.performAll hperform
  exact ⟨hlast.live, hlast.session, hlast.id, hlast.row⟩

/-! ### One call -/

/-- All copies are the same, and no handler is at work. -/
structure Mirrored (statistics : Statistics) : Prop where
  idle : statistics.handler = none
  holds : statistics.Holds ⟨statistics.identity, statistics.identity, statistics.identity⟩

theorem mirrored_of_holds {identity : Identity} (hidle : statistics.handler = none)
    (h : statistics.Holds ⟨identity, identity, identity⟩) : statistics.Mirrored := by
  obtain rfl : statistics.identity = identity := h.live
  exact ⟨hidle, h⟩

theorem runHandler_idle (h : statistics.runHandler = some next) : next.handler = none := by
  unfold runHandler at h
  split at h
  · rename_i hnone
    rw [← Option.some.inj h]
    exact hnone
  · obtain ⟨pair, _, rfl⟩ := Option.map_eq_some_iff.mp h
    rfl

/-- The member variables have changed, and the steps of the handler are to come. -/
theorem Mirrored.runHandler {begun : Statistics} {handler : Handler} (h : statistics.Mirrored)
    (hrun : begun.runHandler = some next) (hhandler : begun.handler = some handler)
    (hsession : begun.localSession = statistics.localSession)
    (hrows : begun.persistence = statistics.persistence)
    (hcopies : handler.todo.foldl HandlerStep.copy
      ⟨begun.identity, statistics.identity, statistics.identity⟩
        = ⟨begun.identity, begun.identity, begun.identity⟩) : next.Mirrored := by
  have hbegun : begun.Holds ⟨begun.identity, statistics.identity, statistics.identity⟩ := by
    refine ⟨rfl, ?_, ?_, ?_⟩
    · rw [hsession]
      exact h.holds.session
    · rw [hsession]
      exact h.holds.id
    · rw [hsession, hrows]
      exact h.holds.row
  have hlast := hbegun.runHandler hhandler hrun
  rw [hcopies] at hlast
  exact mirrored_of_holds (runHandler_idle hrun) hlast

theorem Mirrored.onWindow {foreground : Bool} {now : UInt64} (h : statistics.Mirrored)
    (hrun : (statistics.onWindow foreground now).runHandler = some next) : next.Mirrored := by
  unfold Statistics.onWindow at hrun
  split at hrun
  · simp only [Statistics.runHandler, h.idle] at hrun
    exact Option.some.inj hrun ▸ h
  · exact h.runHandler hrun rfl rfl rfl rfl

theorem Mirrored.onNewUser {user : Option User} {now : UInt64} (h : statistics.Mirrored)
    (hrun : (statistics.onNewUser user now).runHandler = some next) : next.Mirrored := by
  unfold Statistics.onNewUser at hrun
  split at hrun
  · split at hrun
    · exact h.runHandler hrun rfl rfl rfl rfl
    · -- the same user again
      have hset : statistics.setSessionUser.Holds
          ⟨statistics.identity, statistics.identity, statistics.identity⟩ := by
        refine ⟨rfl, ?_, h.holds.id, h.holds.row⟩
        have hsession : statistics.localSession.identity = statistics.identity := h.holds.session
        exact congrArg (fun identity : Identity => { identity with
          userId := statistics.userId, tapUser := statistics.tapUser }) hsession
      have hsaved := hset.saveSession
      have hidle : statistics.setSessionUser.saveSession.handler = none := by
        rw [saveSession_of_id hset.id]
        exact h.idle
      simp only [Statistics.runHandler, hidle] at hrun
      exact Option.some.inj hrun ▸ mirrored_of_holds hidle hsaved
  · exact h.runHandler hrun rfl rfl rfl rfl

theorem Mirrored.call {call : Call} (h : statistics.Mirrored)
    (hcall : statistics.call call = some next) : next.Mirrored := by
  cases call with
  | gameStart gameId gamePkg now =>
      have hrun : (statistics.gameStart gameId gamePkg now).runHandler = some next := hcall
      exact h.runHandler hrun rfl rfl rfl rfl
  | onForeground now => exact h.onWindow hcall
  | onBackground now => exact h.onWindow hcall
  | onNewUser user now => exact h.onNewUser hcall

/-! ### The steps of a call -/

theorem perform_handler (handler : Option Handler) (step : HandlerStep) :
    ({ statistics with handler := handler } : Statistics).perform event step
      = (statistics.perform event step).map fun (after, next) =>
        (after, { next with handler := handler }) := by
  cases step with
  | startSession | touchSession | userSession | updateSession | addOrMergeEvent => rfl
  | putEvent =>
      simp only [perform, Option.map_map]
      rfl

theorem performAll_handler (handler : Option Handler) (todo : List HandlerStep) :
    ({ statistics with handler := handler } : Statistics).performAll event todo
      = (statistics.performAll event todo).map fun (after, next) =>
        (after, { next with handler := handler }) := by
  induction todo generalizing statistics event with
  | nil => rfl
  | cons step todo ih =>
      simp only [Statistics.performAll, perform_handler]
      cases statistics.perform event step with
      | none => rfl
      | some pair => exact ih

/-- A step of a handler, and then the rest of it. -/
theorem runHandler_of_handlerStep {moved : Statistics}
    (hstep : statistics.handlerStep = some moved) : statistics.runHandler = moved.runHandler := by
  unfold handlerStep at hstep
  split at hstep
  · rename_i event step todo hhandler
    obtain ⟨⟨between, after⟩, hperform, rfl⟩ := Option.map_eq_some_iff.mp hstep
    simp only [Statistics.runHandler, hhandler, Statistics.performAll, hperform]
    cases todo with
    | nil => rfl
    | cons other todo =>
        simp only [reduceCtorEq, if_false, performAll_handler, Option.map_map]
        rfl
  · cases hstep

theorem perform_gameId {step : HandlerStep}
    (h : statistics.perform event step = some (after, next)) :
    next.gameId = statistics.gameId := by
  cases step with
  | startSession | touchSession | userSession | updateSession | addOrMergeEvent =>
      obtain ⟨rfl, rfl⟩ := Prod.mk.inj (Option.some.inj h)
      rfl
  | putEvent =>
      obtain ⟨queue, _, hpair⟩ := Option.map_eq_some_iff.mp h
      obtain ⟨rfl, rfl⟩ := Prod.mk.inj hpair
      rfl

theorem performAll_gameId {todo : List HandlerStep}
    (h : statistics.performAll event todo = some (after, next)) :
    next.gameId = statistics.gameId := by
  induction todo generalizing statistics event with
  | nil =>
      obtain ⟨rfl, rfl⟩ := Prod.mk.inj (Option.some.inj h)
      rfl
  | cons step todo ih =>
      simp only [Statistics.performAll] at h
      split at h
      · rename_i hstep
        exact (ih h).trans (perform_gameId hstep)
      · cases h

theorem runHandler_gameId (h : statistics.runHandler = some next) :
    next.gameId = statistics.gameId := by
  unfold runHandler at h
  split at h
  · rw [← Option.some.inj h]
  · obtain ⟨⟨after, last⟩, hperform, rfl⟩ := Option.map_eq_some_iff.mp h
    have hgame := performAll_gameId hperform
    exact hgame

/-- The game after a call. -/
def Call.game (before : Str) : Call → Str
  | .gameStart gameId _ _ => gameId
  | .onForeground _ | .onBackground _ | .onNewUser _ _ => before

theorem call_gameId {call : Call} (h : statistics.call call = some next) :
    next.gameId = call.game statistics.gameId := by
  cases call with
  | gameStart gameId gamePkg now =>
      rw [Statistics.call] at h
      exact runHandler_gameId h
  | onForeground now =>
      rw [Statistics.call] at h
      rw [runHandler_gameId h, onForeground, onWindow]
      split <;> rfl
  | onBackground now =>
      rw [Statistics.call] at h
      rw [runHandler_gameId h, onBackground, onWindow]
      split <;> rfl
  | onNewUser user now =>
      rw [Statistics.call] at h
      rw [runHandler_gameId h]
      unfold onNewUser
      split
      · split <;> rfl
      · rfl

/-! ### One launch -/

/-- A session without a user and a game. -/
def opened (uuid : Str) : Identity := ⟨[], false, [], [], uuid⟩

/-- The user of the newest session, in a new one. -/
def restored (storage : DurPersistence) (uuid : Str) : Identity :=
  match storage.getLatestSession with
  | none => opened uuid
  | some session => { opened uuid with userId := session.userId, tapUser := session.tapUser }

theorem identity_openSession (storage : DurPersistence) (deviceId uuid : Str) :
    ((construct storage deviceId).endSession.openSession uuid).identity
      = restored storage uuid := by
  rw [(unopened_endSession storage deviceId).openSession]
  cases hlatest : storage.getLatestSession with
  | none => simp only [endSession, construct, restored, hlatest, identity, opened]
  | some session => simp only [endSession, construct, restored, hlatest, identity, opened]

theorem holds_init {storage : DurPersistence} {deviceId uuid : Str} {now : UInt64}
    (h : (construct storage deviceId).init uuid now = some next) :
    next.handler = none ∧ next.Holds ⟨restored storage uuid, opened uuid, opened uuid⟩ := by
  obtain ⟨configured, hhistory, rfl⟩ := Option.map_eq_some_iff.mp h
  obtain ⟨config, queue, thread, terminated, heq, _, _⟩ := finishInit_cases hhistory
  have hunopened := unopened_endSession storage deviceId
  have hopened := hunopened.openSession uuid
  have hidentity := identity_openSession storage deviceId uuid
  rw [heq, newGameSession_eq]
  refine ⟨?_, hidentity, ?_, ?_, ?_⟩
  · rw [hopened]
    exact hunopened.handler
  · rw [hopened]
    rfl
  · rw [hopened]
    exact Nat.succ_ne_zero _
  · rw [hopened]
    exact ⟨_, Table.latest_insert, rfl⟩

theorem restored_eq_opened_iff {storage : DurPersistence} {uuid : Str} :
    restored storage uuid = opened uuid ↔ ∀ session, storage.getLatestSession = some session →
      session.userId = [] ∧ session.tapUser = false := by
  cases hlatest : storage.getLatestSession with
  | none => simp [restored, hlatest]
  | some session => simp [restored, hlatest, opened]

/-- The identity in `local_session` and in the newest row of the table is the live one, and a launch
from here has its user. -/
structure Mirrors (statistics : Statistics) : Prop where
  session : statistics.localSession.identity = statistics.identity
  row : ∃ row, statistics.persistence.getLatestSession = some row
    ∧ row.identity = statistics.identity
  restored : ∀ deviceId uuid now launched,
    (construct statistics.persistence deviceId).init uuid now = some launched →
      launched.userId = statistics.userId ∧ launched.tapUser = statistics.tapUser

theorem Mirrored.mirrors (h : statistics.Mirrored) : statistics.Mirrors := by
  obtain ⟨row, hlatest, hrow⟩ := h.holds.row
  have hsession : statistics.persistence.getLatestSession
      = some { row with id := statistics.localSession.id } := by
    rw [DurPersistence.getLatestSession, hlatest]
    rfl
  refine ⟨h.holds.session, ⟨_, hsession, hrow⟩, fun deviceId uuid now launched hinit => ?_⟩
  have hlive : launched.identity = Statistics.restored statistics.persistence uuid :=
    (holds_init hinit).2.live
  simp only [Statistics.restored, hsession] at hlive
  constructor
  · exact (congrArg Identity.userId hlive).trans (congrArg Identity.userId hrow)
  · exact (congrArg Identity.tapUser hlive).trans (congrArg Identity.tapUser hrow)

end Statistics

namespace Life

def Mirrors : Life → Prop
  | .off _ => True
  | .running statistics => statistics.Mirrors

def Mirrored : Life → Prop
  | .off _ => True
  | .running statistics => statistics.Mirrored

/-- A launch finds no session, or one whose user has logged out. -/
def LoggedOut (life : Life) : Op → Prop
  | .launch .. => ∀ session, life.storage.getLatestSession = some session →
      session.userId = [] ∧ session.tapUser = false
  | .call _ => True

variable {life next : Life} {op : Op}

theorem Mirrored.step (h : life.Mirrored) (hstep : life.step op = some next)
    (hallowed : life.LoggedOut op) : next.Mirrored := by
  cases op with
  | launch deviceId uuid now =>
      obtain ⟨statistics, hinit, rfl⟩ := Option.map_eq_some_iff.mp hstep
      obtain ⟨hidle, hholds⟩ := Statistics.holds_init hinit
      rw [Statistics.restored_eq_opened_iff.mpr hallowed] at hholds
      exact Statistics.mirrored_of_holds hidle hholds
  | call call =>
      cases life with
      | off storage => cases hstep
      | running statistics =>
          obtain ⟨after, hcall, rfl⟩ := Option.map_eq_some_iff.mp hstep
          exact Statistics.Mirrored.call h hcall

theorem loggedOut_of_mirrors (hstep : life.step op = some next) (h : next.Mirrors) :
    life.LoggedOut op := by
  cases op with
  | launch deviceId uuid now =>
      obtain ⟨statistics, hinit, rfl⟩ := Option.map_eq_some_iff.mp hstep
      have hholds := (Statistics.holds_init hinit).2
      have hsame : Statistics.restored life.storage uuid = Statistics.opened uuid := by
        calc Statistics.restored life.storage uuid
            = statistics.identity := hholds.live.symm
          _ = statistics.localSession.identity := (Statistics.Mirrors.session h).symm
          _ = Statistics.opened uuid := hholds.session
      exact Statistics.restored_eq_opened_iff.mp hsame
  | call call => trivial

/-- **The session record mirrors the live identity exactly along the runs whose launches find no
user.** From any storage, and for every sequence of launches and handlers, all states have the
property if and only if no launch takes a user over from the newest session. -/
theorem identity_mirrored_iff (storage : DurPersistence) (ops : List Op) :
    system.Along Mirrors (.off storage) ops ↔ system.AlongSteps LoggedOut (.off storage) ops := by
  have hproperty : ∀ life : Life, life.Mirrored → life.Mirrors := by
    rintro (storage | statistics) h
    · trivial
    · exact Statistics.Mirrored.mirrors h
  refine @System.along_iff_alongSteps _ _ system Mirrored Mirrors LoggedOut hproperty ?_ ?_
    (.off storage) trivial ops
  · exact fun life op next h hstep hallowed => h.step hstep hallowed
  · exact fun life op next _ hstep h => loggedOut_of_mirrors hstep h

/-- A player logs in, and the program is started twice more. -/
def loginThenLaunches : List Op :=
  [.launch [100] [1] 0, .call (.onNewUser (some ⟨[117], true⟩) 5), .launch [100] [2] 6,
    .launch [100] [3] 7]

def fresh : Life := .off ⟨Table.empty, Table.empty, Table.empty⟩

def liveUser (life : Life) : Option Str :=
  match life with
  | .off _ => none
  | .running statistics => some statistics.userId

def sessionUser (life : Life) : Option Str :=
  match life with
  | .off _ => none
  | .running statistics => some statistics.localSession.userId

/-- **The second launch after the login has no user**, though the first still had. -/
theorem identity_lost_at_launch :
    ¬ system.Along Mirrors fresh loginThenLaunches
      ∧ ((loginThenLaunches.take 3).foldlM step fresh).map (fun life : Life =>
          (life.liveUser, life.sessionUser)) = some (some [117], some [])
      ∧ (loginThenLaunches.foldlM step fresh).map liveUser = some (some []) := by
  have hthird : ((loginThenLaunches.take 3).foldlM step fresh).map (fun life : Life =>
      (life.liveUser, life.sessionUser)) = some (some [117], some []) := by decide +kernel
  have hlast : (loginThenLaunches.foldlM step fresh).map liveUser = some (some []) := by
    decide +kernel
  refine ⟨fun halong => ?_, hthird, hlast⟩
  obtain ⟨life, hrun, husers⟩ := Option.map_eq_some_iff.mp hthird
  have hmirrors : life.Mirrors := @System.Along.reached _ _ system Mirrors fresh life
    (loginThenLaunches.take 3) (loginThenLaunches.drop 3) halong hrun
  cases life with
  | off storage => cases husers
  | running statistics =>
      obtain ⟨hlive, hsession⟩ := Prod.mk.inj husers
      have hsame := congrArg Identity.userId (Statistics.Mirrors.session hmirrors)
      have husers : some statistics.localSession.userId = some statistics.userId :=
        congrArg some hsame
      have hnone : some ([] : Str) = some [117] := hsession.symm.trans (husers.trans hlive)
      cases hnone

end Life

end TapSdk.Duration
