import TapSdk.Duration.Proof.Clock

/-!
# The end of a session after a crash

`NewGameSession` builds the end of a session from its row. A handler writes the event row and the
session row one after the other, some of them in the order that leaves the session row behind, and
the user that a launch takes over from the last session is not written into the new one. Along the
runs that stay clear of this, the end has the game and the user of the last event of its session,
and is not earlier.
-/

namespace TapSdk.Duration

open Library

def DurEvent.Fits (event : DurEvent) (session : GameSession) : Prop :=
  event.gameId = session.gameId ∧ event.gamePkg = session.gamePkg
    ∧ event.userId = session.userId ∧ event.timestamp ≤ session.lastBeats

/-- The last event that was stored for the session. -/
def lastOf (stored : List DurEvent) (session : Str) : Option DurEvent :=
  stored.reverse.find? fun event => event.session = session

/-- The process must not end here: the event is stored and the session row has still the old game or
user, or the session row has already the new user and the event is not stored. -/
def Handler.exposed (handler : Handler) : Bool :=
  match handler.event.action with
  | .gameStart | .userLogin => .addOrMergeEvent ∉ handler.todo
  | .userLogout => handler.todo.head? = some .addOrMergeEvent
  | _ => false

namespace Device

/-- A game starts, or goes to the front or the back, only while `local_session` has the user that
the events get; a local heartbeat is not overtaken and does not save the user of a logout early; and
the process does not end while a handler is exposed. -/
def covered (device : Device) (op : Op) : Bool :=
  match device.process, op with
  | .running statistics, .run (.gameStart _ _ _) =>
      statistics.userId = statistics.localSession.userId
  | .running statistics, .run (.onForeground _) | .running statistics, .run (.onBackground _) =>
      statistics.gameId ≠ [] → statistics.userId = statistics.localSession.userId
  | .running statistics, .run (.localHeatBeat now) =>
      statistics.foreground → statistics.gameId ≠ [] → device.clock ≤ now
        ∧ statistics.handler.all fun handler => ¬ (handler.event.action = .userLogout
          ∧ handler.todo = [.updateSession, .addOrMergeEvent, .putEvent])
  | .running statistics, .crash _ => statistics.handler.all fun handler => !handler.exposed
  | _, _ => true

end Device

/-! ### What the handlers do -/

/-- The steps of the handler of an event. -/
def plan : EventAction → List HandlerStep
  | .gameStart => [.addOrMergeEvent, .putEvent, .startSession, .updateSession]
  | .gameForeground | .gameBackground =>
      [.touchSession, .updateSession, .addOrMergeEvent, .putEvent]
  | .userLogin => [.touchSession, .updateSession, .addOrMergeEvent, .putEvent, .userSession,
      .updateSession]
  | .userLogout => [.touchSession, .userSession, .updateSession, .addOrMergeEvent, .putEvent]
  | .nullEvent | .gameEnd | .heatBeat => []

/-- What the order of the steps in a plan comes down to, at each of its steps. -/
structure Planned (action : EventAction) (step : HandlerStep) (rest : List HandlerStep) : Prop where
  head : step ≠ .updateSession → rest.head? ≠ some .addOrMergeEvent
  start : step = .startSession → .addOrMergeEvent ∉ rest
  user : step = .userSession → .addOrMergeEvent ∈ rest →
    .userSession ∉ rest ∧ action = .userLogout
  logout : step = .updateSession → .addOrMergeEvent ∈ rest → action = .userLogout →
    .userSession ∉ rest ∧ rest.head? = some .addOrMergeEvent
  update : step = .updateSession → .addOrMergeEvent ∉ rest → rest = []
  store : step = .addOrMergeEvent → .addOrMergeEvent ∉ rest ∧ rest.head? = some .putEvent
  last : rest = [] → (step = .putEvent ∧ action ≠ .gameStart ∧ action ≠ .userLogin)
    ∨ step = .updateSession
  times : .addOrMergeEvent ∉ rest ∨ rest.head? = some .addOrMergeEvent →
    step = .updateSession → .touchSession ∉ rest ∧ .startSession ∉ rest
      ∧ (action ≠ .userLogin → .userSession ∉ rest)

theorem planned_of_suffix {action : EventAction} {step : HandlerStep} {rest : List HandlerStep}
    (h : step :: rest <:+ plan action) : Planned action step rest := by
  cases action <;>
    simp only [plan, List.suffix_cons_iff, List.cons.injEq, List.suffix_nil, reduceCtorEq,
      or_false] at h
  all_goals constructor <;> grind

/-! ### The last event and the session -/

variable {stored : List DurEvent} {session : Str} {last : Option DurEvent} {row : GameSession}

theorem lastOf_concat (stored : List DurEvent) (event : DurEvent) (session : Str) :
    lastOf (stored ++ [event]) session
      = if event.session = session then some event else lastOf stored session := by
  simp only [lastOf, List.reverse_append, List.reverse_singleton, List.singleton_append,
    List.find?_cons]
  split <;> simp_all

theorem session_of_lastOf {event : DurEvent} (h : lastOf stored session = some event) :
    event ∈ stored ∧ event.session = session := by
  refine ⟨List.mem_reverse.mp (List.mem_of_find?_eq_some h), ?_⟩
  have hfound : decide (event.session = session) = true := by
    simpa using List.find?_some h
  exact of_decide_eq_true hfound

def Agrees (last : Option DurEvent) (session : GameSession) : Prop :=
  ∀ event, last = some event → event.Fits session

theorem Agrees.beats {session : GameSession} {now : UInt64} (h : Agrees last session)
    (hnow : ∀ event, last = some event → event.timestamp ≤ now) :
    Agrees last { session with lastBeats := now } := by
  intro event hevent
  obtain ⟨hgame, hpkg, huser, _⟩ := h event hevent
  exact ⟨hgame, hpkg, huser, hnow event hevent⟩

namespace Statistics

variable {statistics next : Statistics}

/-- No handler is at work. -/
structure IdleFits (last : Option DurEvent) (statistics : Statistics)
    (row : GameSession) : Prop where
  saved : Agrees last row
  session : Agrees last statistics.localSession
  game : statistics.localSession.gameId = statistics.gameId
    ∧ statistics.localSession.gamePkg = statistics.gamePkg
  -- The user that was taken over from the last session is not in this one until a handler puts it.
  user : statistics.localSession.userId = statistics.userId ∨ last = none

structure HandlerFits (last : Option DurEvent) (statistics : Statistics) (row : GameSession)
    (handler : Handler) : Prop where
  planned : handler.todo <:+ plan handler.event.action
  event : handler.event.gameId = statistics.gameId ∧ handler.event.gamePkg = statistics.gamePkg
    ∧ handler.event.userId = statistics.userId
  -- What is done is in `local_session`.
  game : .startSession ∉ handler.todo → statistics.localSession.gameId = statistics.gameId
    ∧ statistics.localSession.gamePkg = statistics.gamePkg
  user : .userSession ∉ handler.todo → statistics.localSession.userId = statistics.userId
  time : .touchSession ∉ handler.todo → .startSession ∉ handler.todo →
    handler.event.timestamp ≤ statistics.localSession.lastBeats
  -- Before the event is stored, and after.
  older : .addOrMergeEvent ∈ handler.todo → ∀ event, last = some event →
    event.timestamp ≤ handler.event.timestamp
  before : .addOrMergeEvent ∈ handler.todo →
    (.userSession ∉ handler.todo → handler.event.action ≠ .userLogout) →
    Agrees last statistics.localSession
  stored : .addOrMergeEvent ∉ handler.todo → last = some handler.event
  saved : handler.exposed = false → Agrees last row
  next : handler.event.action ≠ .gameStart → handler.event.action ≠ .userLogin →
    handler.todo.head? = some .addOrMergeEvent → handler.event.Fits row

variable {event : DurEvent} {step : HandlerStep} {rest : List HandlerStep}

/-- Once everything is in `local_session`, it fits the event. -/
theorem HandlerFits.fits {handler : Handler} (h : HandlerFits last statistics row handler)
    (htouch : .touchSession ∉ handler.todo) (hstart : .startSession ∉ handler.todo)
    (huser : .userSession ∉ handler.todo) : handler.event.Fits statistics.localSession := by
  obtain ⟨hgame, hpkg, huser'⟩ := h.event
  obtain ⟨hgame', hpkg'⟩ := h.game hstart
  exact ⟨hgame.trans hgame'.symm, hpkg.trans hpkg'.symm, huser'.trans (h.user huser).symm,
    h.time htouch hstart⟩

/-- A handler that is not exposed after a step that stores nothing was not exposed before it. -/
theorem exposed_tail (hplanned : Planned event.action step rest) (hupdate : step ≠ .updateSession)
    (hstore : step ≠ .addOrMergeEvent) (h : Handler.exposed ⟨event, rest⟩ = false) :
    Handler.exposed ⟨event, step :: rest⟩ = false := by
  have hhead := hplanned.head hupdate
  unfold Handler.exposed at h ⊢
  grind

structure LiveFits (last : Option DurEvent) (statistics : Statistics)
    (row : GameSession) : Prop where
  idle : statistics.handler = none → IdleFits last statistics row
  busy : ∀ handler, statistics.handler = some handler → HandlerFits last statistics row handler

theorem liveFits_of_idle (hidle : statistics.handler = none)
    (h : IdleFits last statistics row) : LiveFits last statistics row := by
  refine ⟨fun _ => h, fun handler hhandler => ?_⟩
  rw [hidle] at hhandler
  cases hhandler

theorem liveFits_of_busy {handler : Handler} (hhandler : statistics.handler = some handler)
    (h : HandlerFits last statistics row handler) : LiveFits last statistics row := by
  refine ⟨fun hidle => ?_, fun handler' hhandler' => ?_⟩
  · rw [hhandler] at hidle
    cases hidle
  · obtain rfl := Option.some.inj (hhandler.symm.trans hhandler')
    exact h

theorem liveFits_of_remaining (hhandler : statistics.handler = remaining event rest)
    (hrest : rest ≠ []) (h : HandlerFits last statistics row ⟨event, rest⟩) :
    LiveFits last statistics row := by
  rw [remaining, if_neg hrest] at hhandler
  exact liveFits_of_busy hhandler h

/-! ### The steps of a handler -/

section Perform

variable (h : HandlerFits last statistics row ⟨event, step :: rest⟩)

include h

theorem HandlerFits.planned_tail : rest <:+ plan event.action ∧ Planned event.action step rest :=
  ⟨(List.suffix_cons step rest).trans h.planned, planned_of_suffix h.planned⟩

/-- What is left after a step that neither stores the event nor saves the session. -/
theorem HandlerFits.tail (hupdate : step ≠ .updateSession) (hstore : step ≠ .addOrMergeEvent)
    (hsame : next.gameId = statistics.gameId ∧ next.gamePkg = statistics.gamePkg
      ∧ next.userId = statistics.userId)
    (hgame : .startSession ∉ rest → next.localSession.gameId = next.gameId
      ∧ next.localSession.gamePkg = next.gamePkg)
    (huser : .userSession ∉ rest → next.localSession.userId = next.userId)
    (htime : .touchSession ∉ rest → .startSession ∉ rest →
      event.timestamp ≤ next.localSession.lastBeats)
    (hbefore : .addOrMergeEvent ∈ rest → (.userSession ∉ rest → event.action ≠ .userLogout) →
      Agrees last next.localSession) :
    HandlerFits last next row ⟨event, rest⟩ := by
  obtain ⟨hsuffix, hplanned⟩ := h.planned_tail
  obtain ⟨hgameId, hgamePkg, huserId⟩ := hsame
  refine ⟨hsuffix, ?_, hgame, huser, htime, ?_, hbefore, ?_, ?_, ?_⟩
  · rw [hgameId, hgamePkg, huserId]
    exact h.event
  · exact fun hmem => h.older (List.mem_cons_of_mem _ hmem)
  · exact fun hnot => h.stored (by simpa [hstore.symm] using hnot)
  · exact fun hopen => h.saved (exposed_tail hplanned hupdate hstore hopen)
  · exact fun _ _ hhead => absurd hhead (hplanned.head hupdate)

theorem HandlerFits.rest_ne_nil (hupdate : step ≠ .updateSession) (hput : step ≠ .putEvent) :
    rest ≠ [] := by
  intro hdone
  rcases h.planned_tail.2.last hdone with ⟨hlast, _⟩ | hlast
  · exact hput hlast
  · exact hupdate hlast

/-- The time of the event goes into `local_session`. -/
theorem HandlerFits.touch (hstep : step = .touchSession)
    (hnext : next = { statistics with
      localSession := { statistics.localSession with
        lastBeats := event.timestamp, lastTimestamp := event.timestamp }
      handler := remaining event rest }) : LiveFits last next row := by
  subst hstep hnext
  refine liveFits_of_remaining rfl (h.rest_ne_nil (by decide) (by decide))
    (h.tail (by decide) (by decide) ⟨rfl, rfl, rfl⟩ ?_ ?_ (fun _ _ => UInt64.le_refl _) ?_)
  · exact fun hstart => h.game (by simpa using hstart)
  · exact fun huser => h.user (by simpa using huser)
  · intro hmem huser other hother
    have hall := List.mem_cons_of_mem HandlerStep.touchSession hmem
    obtain ⟨hgame, hpkg, huser', _⟩ := h.before hall
      (fun hnot => huser fun hin => hnot (List.mem_cons_of_mem _ hin)) other hother
    exact ⟨hgame, hpkg, huser', h.older hall other hother⟩

/-- The game and the time of the start go into `local_session`. -/
theorem HandlerFits.start (hstep : step = .startSession)
    (hnext : next = { statistics with
      localSession := { statistics.localSession with
        gameId := statistics.gameId, gamePkg := statistics.gamePkg, gameStart := event.timestamp
        lastBeats := event.timestamp, lastTimestamp := event.timestamp }
      handler := remaining event rest }) : LiveFits last next row := by
  subst hstep hnext
  refine liveFits_of_remaining rfl (h.rest_ne_nil (by decide) (by decide))
    (h.tail (by decide) (by decide) ⟨rfl, rfl, rfl⟩ (fun _ => ⟨rfl, rfl⟩) ?_
      (fun _ _ => UInt64.le_refl _) ?_)
  · exact fun huser => h.user (by simpa using huser)
  · exact fun hmem => absurd hmem (h.planned_tail.2.start rfl)

/-- The user goes into `local_session`. -/
theorem HandlerFits.setUser (hstep : step = .userSession)
    (hnext : next = { statistics.setSessionUser with handler := remaining event rest }) :
    LiveFits last next row := by
  subst hstep hnext
  refine liveFits_of_remaining rfl (h.rest_ne_nil (by decide) (by decide))
    (h.tail (by decide) (by decide) ⟨rfl, rfl, rfl⟩ ?_ (fun _ => rfl) ?_ ?_)
  · exact fun hstart => h.game (by simpa using hstart)
  · exact fun htouch hstart => h.time (by simpa using htouch) (by simpa using hstart)
  · intro hmem huser
    obtain ⟨hgone, hlogout⟩ := h.planned_tail.2.user rfl hmem
    exact absurd hlogout (huser hgone)

/-- The event goes into the queue. -/
theorem HandlerFits.put (hstep : step = .putEvent) {queue : BlockingQueue DurEvent}
    (hnext : next = { statistics with
      reportQueue := queue, handler := remaining event rest }) : LiveFits last next row := by
  subst hstep hnext
  by_cases hrest : rest = []
  · subst hrest
    rcases h.planned_tail.2.last rfl with ⟨_, hstart, hlogin⟩ | hupdate
    · have hopen : Handler.exposed ⟨event, [.putEvent]⟩ = false := by
        unfold Handler.exposed
        grind
      have hlast := h.stored (by simp)
      have hfits := h.fits (by simp) (by simp) (by simp)
      refine liveFits_of_idle rfl ⟨h.saved hopen, ?_, h.game (by simp), Or.inl (h.user (by simp))⟩
      intro other hother
      obtain rfl := Option.some.inj (hlast.symm.trans hother)
      exact hfits
    · cases hupdate
  · refine liveFits_of_remaining rfl hrest
      (h.tail (by decide) (by decide) ⟨rfl, rfl, rfl⟩ ?_ ?_ ?_ ?_)
    · exact fun hstart => h.game (by simpa using hstart)
    · exact fun huser => h.user (by simpa using huser)
    · exact fun htouch hstart => h.time (by simpa using htouch) (by simpa using hstart)
    · exact fun hmem huser => h.before (List.mem_cons_of_mem _ hmem)
        fun hnot => huser fun hin => hnot (List.mem_cons_of_mem _ hin)

/-- The session is saved by the handler. -/
theorem HandlerFits.update (hstep : step = .updateSession)
    (hsession : next.localSession = statistics.localSession)
    (hsame : next.gameId = statistics.gameId ∧ next.gamePkg = statistics.gamePkg
      ∧ next.userId = statistics.userId)
    (hnext : next.handler = remaining event rest) :
    LiveFits last next statistics.localSession := by
  subst hstep
  obtain ⟨hsuffix, hplanned⟩ := h.planned_tail
  obtain ⟨hgameId, hgamePkg, huserId⟩ := hsame
  have hgame : .startSession ∉ rest → next.localSession.gameId = next.gameId
      ∧ next.localSession.gamePkg = next.gamePkg := by
    intro hstart
    rw [hsession, hgameId, hgamePkg]
    exact h.game (by simpa using hstart)
  have huser : .userSession ∉ rest → next.localSession.userId = next.userId := by
    intro hgone
    rw [hsession, huserId]
    exact h.user (by simpa using hgone)
  by_cases hrest : rest = []
  · -- the event was stored before, and everything is in the session
    subst hrest
    have hlast := h.stored (by simp)
    have hagrees : Agrees last statistics.localSession := by
      intro other hother
      obtain rfl := Option.some.inj (hlast.symm.trans hother)
      exact h.fits (by simp) (by simp) (by simp)
    refine liveFits_of_idle hnext ⟨hagrees, ?_, hgame (by simp), Or.inl (huser (by simp))⟩
    rw [hsession]
    exact hagrees
  · have hstores : .addOrMergeEvent ∈ rest := by
      by_contra hnot
      exact hrest (hplanned.update rfl hnot)
    refine liveFits_of_remaining hnext hrest ⟨hsuffix, ?_, hgame, huser, ?_, ?_, ?_, ?_, ?_, ?_⟩
    · rw [hgameId, hgamePkg, huserId]
      exact h.event
    · intro htouch hstart
      rw [hsession]
      exact h.time (by simpa using htouch) (by simpa using hstart)
    · exact fun hmem => h.older (List.mem_cons_of_mem _ hmem)
    · intro hmem hlogout
      rw [hsession]
      exact h.before (List.mem_cons_of_mem _ hmem)
        fun hnot => hlogout fun hin => hnot (List.mem_cons_of_mem _ hin)
    · exact fun hnot => absurd hstores hnot
    · intro hopen
      refine h.before (List.mem_cons_of_mem _ hstores) fun _ hlogout => ?_
      have hhead := (hplanned.logout rfl hstores hlogout).2
      have hexposed : Handler.exposed ⟨event, rest⟩ = true := by
        have haction : event.action = .userLogout := hlogout
        simp only [Handler.exposed, haction, hhead, decide_true]
      rw [hopen] at hexposed
      cases hexposed
    · intro _ hlogin hhead
      obtain ⟨htouch, hstart, hgone⟩ := hplanned.times (Or.inr hhead) rfl
      exact h.fits (by simpa using htouch) (by simpa using hstart) (by simpa using hgone hlogin)

/-- The event is stored. -/
theorem HandlerFits.store (hstep : step = .addOrMergeEvent) {after : DurEvent}
    (hafter : ∃ id, after = { event with id := id })
    (hsession : next.localSession = statistics.localSession)
    (hsame : next.gameId = statistics.gameId ∧ next.gamePkg = statistics.gamePkg
      ∧ next.userId = statistics.userId)
    (hnext : next.handler = remaining after rest) : LiveFits (some after) next row := by
  subst hstep
  obtain ⟨id, rfl⟩ := hafter
  obtain ⟨hsuffix, hplanned⟩ := h.planned_tail
  obtain ⟨hgameId, hgamePkg, huserId⟩ := hsame
  obtain ⟨honce, hput⟩ := hplanned.store rfl
  have hrest : rest ≠ [] := by
    rintro rfl
    cases hput
  refine liveFits_of_remaining hnext hrest ⟨hsuffix, ?_, ?_, ?_, ?_, ?_, ?_, fun _ => rfl, ?_, ?_⟩
  · rw [hgameId, hgamePkg, huserId]
    exact h.event
  · intro hstart
    rw [hsession, hgameId, hgamePkg]
    exact h.game (by simpa using hstart)
  · intro hgone
    rw [hsession, huserId]
    exact h.user (by simpa using hgone)
  · intro htouch hstart
    rw [hsession]
    exact h.time (by simpa using htouch) (by simpa using hstart)
  · exact fun hmem => absurd hmem honce
  · exact fun hmem => absurd hmem honce
  · intro hopen other hother
    obtain rfl := Option.some.inj hother
    have hplain : event.action ≠ .gameStart ∧ event.action ≠ .userLogin := by
      refine ⟨fun haction => ?_, fun haction => ?_⟩ <;>
        simp [Handler.exposed, haction, honce] at hopen
    exact h.next hplain.1 hplain.2 rfl
  · intro _ _ hhead
    rw [hput] at hhead
    cases hhead

end Perform

/-! ### The other steps -/

/-- Where a handler is that is not exposed. -/
theorem todo_of_not_exposed {handler : Handler} (h : handler.todo <:+ plan handler.event.action)
    (hopen : handler.exposed = false) :
    (.addOrMergeEvent ∈ handler.todo
        ∧ (.userSession ∉ handler.todo → handler.event.action ≠ .userLogout))
      ∨ (handler.event.action = .userLogout
        ∧ handler.todo = [.updateSession, .addOrMergeEvent, .putEvent])
      ∨ (.addOrMergeEvent ∉ handler.todo ∧ .touchSession ∉ handler.todo
        ∧ .startSession ∉ handler.todo ∧ .userSession ∉ handler.todo) := by
  obtain ⟨event, todo⟩ := handler
  dsimp only at h ⊢
  cases haction : event.action <;> rw [haction] at h <;>
    simp only [plan, List.suffix_cons_iff, List.suffix_nil] at h <;>
    simp only [Handler.exposed, haction] at hopen <;>
    grind

/-- A handler that stores its event next has everything in `local_session`, unless it is a login. -/
theorem todo_of_store {handler : Handler} (h : handler.todo <:+ plan handler.event.action)
    (hlogin : handler.event.action ≠ .userLogin) (hstart : handler.event.action ≠ .gameStart)
    (hhead : handler.todo.head? = some .addOrMergeEvent) : .touchSession ∉ handler.todo
      ∧ .startSession ∉ handler.todo ∧ .userSession ∉ handler.todo := by
  obtain ⟨event, todo⟩ := handler
  dsimp only at h hhead ⊢
  cases haction : event.action <;> rw [haction] at h <;>
    simp only [plan, List.suffix_cons_iff, List.suffix_nil] at h <;>
    grind

/-- The local heartbeat saves the session with the time it has read. -/
theorem LiveFits.beat (h : LiveFits last statistics row) {now : UInt64}
    (hlast : ∀ event, last = some event → event.timestamp ≤ now)
    (hevent : ∀ handler, statistics.handler = some handler → handler.event.timestamp ≤ now)
    (hlogout : ∀ handler, statistics.handler = some handler → ¬ (handler.event.action = .userLogout
      ∧ handler.todo = [.updateSession, .addOrMergeEvent, .putEvent]))
    (hsession : next.localSession = { statistics.localSession with lastBeats := now })
    (hsame : next.gameId = statistics.gameId ∧ next.gamePkg = statistics.gamePkg
      ∧ next.userId = statistics.userId)
    (hhandler : next.handler = statistics.handler) : LiveFits last next next.localSession := by
  obtain ⟨hgameId, hgamePkg, huserId⟩ := hsame
  refine ⟨fun hidle => ?_, fun handler hbusy => ?_⟩
  · have hbefore := h.idle (hhandler.symm.trans hidle)
    have hagrees : Agrees last next.localSession := hsession ▸ hbefore.session.beats hlast
    refine ⟨hagrees, hagrees, ?_, ?_⟩
    · rw [hsession, hgameId, hgamePkg]
      exact hbefore.game
    · rw [hsession, huserId]
      exact hbefore.user
  · have hbusy' := hhandler.symm.trans hbusy
    have hbefore := h.busy handler hbusy'
    -- once everything is in the session, the new time fits too
    have hfits : .touchSession ∉ handler.todo → .startSession ∉ handler.todo →
        .userSession ∉ handler.todo → handler.event.Fits next.localSession := by
      intro htouch hstart hgone
      obtain ⟨hgame, hpkg, huser, _⟩ := hbefore.fits htouch hstart hgone
      rw [hsession]
      exact ⟨hgame, hpkg, huser, hevent handler hbusy'⟩
    refine ⟨hbefore.planned, ?_, ?_, ?_, ?_, hbefore.older, ?_, hbefore.stored, ?_, ?_⟩
    · rw [hgameId, hgamePkg, huserId]
      exact hbefore.event
    · rw [hsession, hgameId, hgamePkg]
      exact hbefore.game
    · rw [hsession, huserId]
      exact hbefore.user
    · intro _ _
      rw [hsession]
      exact hevent handler hbusy'
    · exact fun hmem huser => hsession ▸ (hbefore.before hmem huser).beats hlast
    · intro hopen
      rcases todo_of_not_exposed hbefore.planned hopen with ⟨hmem, huser⟩ | hearly
        | ⟨hstored, htouch, hstart, hgone⟩
      · exact hsession ▸ (hbefore.before hmem huser).beats hlast
      · exact absurd hearly (hlogout handler hbusy')
      · intro other hother
        obtain rfl := Option.some.inj ((hbefore.stored hstored).symm.trans hother)
        exact hfits htouch hstart hgone
    · intro hstart hlogin hhead
      obtain ⟨htouch, hstart', hgone⟩ := todo_of_store hbefore.planned hlogin hstart hhead
      exact hfits htouch hstart' hgone

/-- A step that changes neither the session nor the handler. -/
theorem LiveFits.congr (h : LiveFits last statistics row)
    (hsession : next.localSession = statistics.localSession)
    (hsame : next.gameId = statistics.gameId ∧ next.gamePkg = statistics.gamePkg
      ∧ next.userId = statistics.userId)
    (hhandler : next.handler = statistics.handler) : LiveFits last next row := by
  obtain ⟨hgameId, hgamePkg, huserId⟩ := hsame
  refine ⟨fun hidle => ?_, fun handler hbusy => ?_⟩
  · obtain ⟨hsaved, hsession', hgame, huser⟩ := h.idle (hhandler.symm.trans hidle)
    refine ⟨hsaved, ?_, ?_, ?_⟩
    · rwa [hsession]
    · rwa [hsession, hgameId, hgamePkg]
    · rwa [hsession, huserId]
  · have hbefore := h.busy handler (hhandler.symm.trans hbusy)
    refine ⟨hbefore.planned, ?_, ?_, ?_, ?_, hbefore.older, ?_, hbefore.stored, hbefore.saved,
      hbefore.next⟩
    · rw [hgameId, hgamePkg, huserId]
      exact hbefore.event
    · rw [hsession, hgameId, hgamePkg]
      exact hbefore.game
    · rw [hsession, huserId]
      exact hbefore.user
    · rw [hsession]
      exact hbefore.time
    · rw [hsession]
      exact hbefore.before

/-- A handler starts. -/
theorem IdleFits.begun {op : Op} (h : IdleFits last statistics row)
    (hbegun : statistics.Begun op next)
    (huser : ∀ now gameId gamePkg, op = .gameStart gameId gamePkg now ∨ op = .onForeground now
      ∨ op = .onBackground now → statistics.localSession.userId = statistics.userId)
    (hclock : ∀ now, op.reading = some now → ∀ event, last = some event → event.timestamp ≤ now) :
    LiveFits last next row := by
  cases hbegun with
  | @gameStart gameId gamePkg now =>
      refine liveFits_of_busy rfl ⟨List.suffix_refl _, ⟨rfl, rfl, rfl⟩, ?_, ?_, ?_,
        fun _ => hclock now rfl, fun _ _ => h.session, ?_, fun _ => h.saved, ?_⟩
      · exact fun hgone => absurd (by simp) hgone
      · exact fun _ => huser now gameId gamePkg (Or.inl rfl)
      · exact fun _ hgone => absurd (by simp) hgone
      · exact fun hgone => absurd (by simp) hgone
      · exact fun hstart => absurd rfl hstart
  | @onForeground now hgame | @onBackground now hgame =>
      rw [onWindow, if_neg hgame]
      refine liveFits_of_busy rfl ⟨List.suffix_refl _, ⟨rfl, rfl, rfl⟩,
        fun _ => h.game, ?_, ?_, fun _ => hclock now rfl, fun _ _ => h.session, ?_,
        fun _ => h.saved, ?_⟩
      · exact fun _ => huser now [] [] (by simp)
      · exact fun hgone => absurd (by simp) hgone
      · exact fun hgone => absurd (by simp) hgone
      · exact fun _ _ hhead => by simp at hhead
  | @login user now hother =>
      simp only [onNewUser, if_pos hother]
      refine liveFits_of_busy rfl ⟨List.suffix_refl _, ⟨rfl, rfl, rfl⟩,
        fun _ => h.game, ?_, ?_, fun _ => hclock now rfl, fun _ _ => h.session, ?_,
        fun _ => h.saved, ?_⟩
      · exact fun hgone => absurd (by simp) hgone
      · exact fun hgone => absurd (by simp) hgone
      · exact fun hgone => absurd (by simp) hgone
      · exact fun _ _ hhead => by simp at hhead
  | @logout now =>
      refine liveFits_of_busy rfl ⟨List.suffix_refl _, ⟨rfl, rfl, rfl⟩,
        fun _ => h.game, ?_, ?_, fun _ => hclock now rfl, fun _ _ => h.session, ?_,
        fun _ => h.saved, ?_⟩
      · exact fun hgone => absurd (by simp) hgone
      · exact fun hgone => absurd (by simp) hgone
      · exact fun hgone => absurd (by simp) hgone
      · exact fun _ _ hhead => by simp at hhead

/-! ### One step -/

def HasFits (stored : List DurEvent) (statistics : Statistics) : Prop :=
  ∃ row, statistics.persistence.sessions.find statistics.localSession.id = some row
    ∧ LiveFits (lastOf stored statistics.gameSession) statistics row

theorem HasFits.congr (h : statistics.HasFits stored)
    (hsessions : next.persistence.sessions = statistics.persistence.sessions)
    (hsession : next.localSession = statistics.localSession)
    (hgameSession : next.gameSession = statistics.gameSession)
    (hsame : next.gameId = statistics.gameId ∧ next.gamePkg = statistics.gamePkg
      ∧ next.userId = statistics.userId)
    (hhandler : next.handler = statistics.handler) : next.HasFits stored := by
  obtain ⟨row, hrow, hfits⟩ := h
  refine ⟨row, by rw [hsessions, hsession, hrow], ?_⟩
  rw [hgameSession]
  exact hfits.congr hsession hsame hhandler

/-- The session is saved as it is after the step. -/
theorem HasFits.saved {touched : Statistics} (h : statistics.HasFits stored)
    (hid : touched.localSession.id = statistics.localSession.id)
    (hne : statistics.localSession.id ≠ 0)
    (hsessions : touched.persistence.sessions = statistics.persistence.sessions)
    (hgameSession : touched.gameSession = statistics.gameSession)
    (hfits : LiveFits (lastOf stored statistics.gameSession) touched touched.localSession) :
    touched.saveSession.HasFits stored := by
  obtain ⟨row, hrow, _⟩ := h
  rw [saveSession_of_id (hid ▸ hne)]
  refine ⟨touched.localSession, Table.find_update_self (by rw [hsessions, hid, hrow]), ?_⟩
  rw [← hgameSession] at hfits
  exact hfits.congr rfl ⟨rfl, rfl, rfl⟩ rfl

theorem HasFits.performed {after : DurEvent} {changed : Statistics}
    (h : statistics.HasFits stored) (hid : statistics.localSession.id ≠ 0)
    (hown : statistics.OwnHandler) (hhandler : statistics.handler = some ⟨event, step :: rest⟩)
    (hperform : statistics.perform event step = some (after, changed)) :
    HasFits (stored ++ statistics.storedBy .handler)
      { changed with handler := remaining after rest } := by
  obtain ⟨row, hrow, hfits⟩ := h
  have hbusy := hfits.busy _ hhandler
  cases step with
  | startSession =>
      obtain ⟨rfl, rfl⟩ := Prod.mk.inj (Option.some.inj hperform)
      simp only [storedBy, hhandler, List.append_nil]
      exact ⟨row, hrow, hbusy.start rfl rfl⟩
  | touchSession =>
      obtain ⟨rfl, rfl⟩ := Prod.mk.inj (Option.some.inj hperform)
      simp only [storedBy, hhandler, List.append_nil]
      exact ⟨row, hrow, hbusy.touch rfl rfl⟩
  | userSession =>
      obtain ⟨rfl, rfl⟩ := Prod.mk.inj (Option.some.inj hperform)
      simp only [storedBy, hhandler, List.append_nil]
      exact ⟨row, hrow, hbusy.setUser rfl rfl⟩
  | putEvent =>
      obtain ⟨queue, _, hpair⟩ := Option.map_eq_some_iff.mp hperform
      obtain ⟨rfl, rfl⟩ := Prod.mk.inj hpair
      simp only [storedBy, hhandler, List.append_nil]
      exact ⟨row, hrow, hbusy.put rfl rfl⟩
  | updateSession =>
      obtain ⟨rfl, rfl⟩ := Prod.mk.inj (Option.some.inj hperform)
      simp only [storedBy, hhandler, List.append_nil]
      rw [saveSession_of_id hid]
      exact ⟨_, Table.find_update_self hrow, hbusy.update rfl rfl ⟨rfl, rfl, rfl⟩ rfl⟩
  | addOrMergeEvent =>
      obtain ⟨rfl, rfl⟩ := perform_addOrMergeEvent hperform
      obtain ⟨id, heq⟩ := exists_id_addOrMergeEvent statistics.persistence event
      have hsession : (statistics.persistence.addOrMergeEvent event).1.session
          = statistics.gameSession := by
        rw [heq]
        exact (hown _ hhandler).1
      simp only [storedBy, hhandler]
      refine ⟨row, by simp only [addOrMergeEvent_sessions, hrow], ?_⟩
      rw [lastOf_concat, if_pos hsession]
      exact hbusy.store rfl ⟨id, heq⟩ rfl ⟨rfl, rfl, rfl⟩ rfl

theorem HasFits.reporter {input : ReporterInput} (h : statistics.HasFits stored)
    (hid : statistics.localSession.id ≠ 0) (hmove : statistics.ReporterMove input next) :
    next.HasFits stored := by
  cases hmove with
  | @beaten events now hthread hfree hlater =>
      -- the reporter saves the session, in which the game, the user and the beats are as they were
      obtain ⟨row, hrow, hfits⟩ := h
      obtain ⟨hsaved, hsession, hgame, huser⟩ := hfits.idle hfree
      have hsaved' : HasFits stored (saveSession { statistics with
          localSession := { statistics.localSession with lastTimestamp := now } }) := by
        refine HasFits.saved ⟨row, hrow, hfits⟩ rfl hid rfl rfl (liveFits_of_idle hfree ?_)
        exact ⟨hsession, hsession, hgame, huser⟩
      exact hsaved'.congr rfl rfl rfl ⟨rfl, rfl, rfl⟩ rfl
  | _ => exact h.congr rfl rfl rfl ⟨rfl, rfl, rfl⟩ rfl

/-- **One step of a process with an open session.** -/
theorem HasFits.moved {op : Op} (h : statistics.HasFits stored)
    (hid : statistics.localSession.id ≠ 0) (hown : statistics.OwnHandler)
    (hmoved : statistics.Moved op next)
    (huser : ∀ now gameId gamePkg, op = .gameStart gameId gamePkg now
      ∨ (statistics.gameId ≠ [] ∧ (op = .onForeground now ∨ op = .onBackground now)) →
      statistics.localSession.userId = statistics.userId)
    (hclock : ∀ now, op.reading = some now → op.readsLocked = true →
      ∀ event, lastOf stored statistics.gameSession = some event → event.timestamp ≤ now)
    (hbeat : ∀ now, op = .localHeatBeat now → statistics.foreground = true →
      statistics.gameId ≠ [] →
      (∀ event, lastOf stored statistics.gameSession = some event → event.timestamp ≤ now)
        ∧ (∀ handler, statistics.handler = some handler → handler.event.timestamp ≤ now)
        ∧ ∀ handler, statistics.handler = some handler →
          ¬ (handler.event.action = .userLogout
            ∧ handler.todo = [.updateSession, .addOrMergeEvent, .putEvent])) :
    next.HasFits (stored ++ statistics.storedBy op) := by
  cases hmoved with
  | still hquiet =>
      have hnothing : statistics.storedBy op = [] := by
        cases op <;> first | rfl | cases hquiet
      rw [hnothing, List.append_nil]
      exact h
  | begun hidle hbegun =>
      have hnothing : statistics.storedBy op = [] := by cases hbegun <;> rfl
      rw [hnothing, List.append_nil]
      obtain ⟨hpersistence, hlocal, hgameSession, _, _⟩ := hbegun.frame
      obtain ⟨_, _, _, _, _, _, _, hlocked, _⟩ := hbegun.event
      obtain ⟨row, hrow, hfits⟩ := h
      refine ⟨row, by rw [hpersistence, hlocal, hrow], ?_⟩
      rw [hgameSession]
      refine (hfits.idle hidle).begun hbegun ?_ fun now hreading => hclock now hreading hlocked
      intro now gameId gamePkg hop
      refine huser now gameId gamePkg (hop.imp_right fun hwindow => ⟨?_, hwindow⟩)
      cases hbegun with
      | onForeground hgame | onBackground hgame => exact hgame
      | _ => simp at hwindow
  | sameUser hidle hsame =>
      simp only [storedBy, List.append_nil]
      obtain ⟨row, hrow, hfits⟩ := h
      obtain ⟨hsaved, hsession, hgame, huser'⟩ := hfits.idle hidle
      have hagrees : Agrees (lastOf stored statistics.gameSession)
          statistics.setSessionUser.localSession := by
        intro other hother
        obtain ⟨hgame', hpkg', huserId, htime⟩ := hsession other hother
        rcases huser' with hequal | hnone
        · exact ⟨hgame', hpkg', huserId.trans hequal, htime⟩
        · rw [hnone] at hother
          cases hother
      refine HasFits.saved ⟨row, hrow, hfits⟩ rfl hid rfl rfl (liveFits_of_idle hidle ?_)
      exact ⟨hagrees, hagrees, hgame, Or.inl rfl⟩
  | performed hhandler hperform => exact h.performed hid hown hhandler hperform
  | @beat now hforeground hgame =>
      simp only [storedBy, List.append_nil]
      obtain ⟨hlast, hevent, hlogout⟩ := hbeat now rfl hforeground hgame
      obtain ⟨row, hrow, hfits⟩ := h
      exact HasFits.saved ⟨row, hrow, hfits⟩ rfl hid rfl rfl
        (hfits.beat hlast hevent hlogout rfl ⟨rfl, rfl, rfl⟩ rfl)
  | tick _ _ _ =>
      simp only [storedBy, List.append_nil]
      exact h.congr rfl rfl rfl ⟨rfl, rfl, rfl⟩ rfl
  | reporter hmove =>
      simp only [storedBy, List.append_nil]
      exact h.reporter hid hmove
  | @refreshConfig config =>
      simp only [storedBy, List.append_nil]
      have hspec := statistics.refreshConfig_spec config
      exact h.congr hspec.sessions hspec.localSession hspec.gameSession hspec.identity hspec.handler

end Statistics

/-! ### The device -/

/-- The end of a session has the game and the user of this event and is not earlier. -/
structure DurEvent.Matches (ending last : DurEvent) : Prop where
  gameId : ending.gameId = last.gameId
  gamePkg : ending.gamePkg = last.gamePkg
  userId : ending.userId = last.userId
  timestamp : last.timestamp ≤ ending.timestamp

instance (ending last : DurEvent) : Decidable (ending.Matches last) :=
  decidable_of_iff (ending.gameId = last.gameId ∧ ending.gamePkg = last.gamePkg
      ∧ ending.userId = last.userId ∧ last.timestamp ≤ ending.timestamp)
    ⟨fun ⟨hgame, hpkg, huser, htime⟩ => ⟨hgame, hpkg, huser, htime⟩,
      fun ⟨hgame, hpkg, huser, htime⟩ => ⟨hgame, hpkg, huser, htime⟩⟩

namespace Device

variable {device next : Device} {op : Op}

/-- The last event of a live session is not ahead of the clock. -/
def LastTimed (device : Device) : Prop :=
  ∀ statistics event, device.process.live = some statistics →
    lastOf device.stored statistics.gameSession = some event → event.timestamp ≤ device.clock

structure EndSound (device : Device) : Prop where
  closed : device.process.live = none → ∀ row,
    device.storage.sessions.find device.storage.sessions.sequence = some row →
    Agrees (lastOf device.stored row.session) row
  opened : ∀ statistics, device.process = .opened statistics → statistics.handler = none
  live : ∀ statistics, device.process.live = some statistics → statistics.HasFits device.stored
  timed : device.LastTimed

theorem lastOf_eq_none {uuid : Str} (h : device.Sound) (hnew : uuid ∉ device.uuids) :
    lastOf device.stored uuid = none := by
  rcases hlast : lastOf device.stored uuid with _ | event
  · rfl
  · obtain ⟨hevent, hsession⟩ := session_of_lastOf hlast
    exact absurd (hsession ▸ h.stored event hevent) hnew

/-- The end that a launch stores is taken from the row. -/
theorem ending_of_row (storage : DurPersistence) (deviceId : Str) (row : GameSession) :
    (storage.addOrMergeEvent ((Statistics.construct storage deviceId).endEvent row)).1.Ends
        row.session
      ∧ ∃ id, (storage.addOrMergeEvent ((Statistics.construct storage deviceId).endEvent row)).1
        = { (Statistics.construct storage deviceId).endEvent row with id := id } := by
  obtain ⟨id, heq⟩ := Statistics.exists_id_addOrMergeEvent storage
    ((Statistics.construct storage deviceId).endEvent row)
  exact ⟨by rw [heq]; exact ⟨rfl, rfl⟩, id, heq⟩

theorem EndSound.launch (hsound : device.Sound) {storage : DurPersistence}
    (deviceId : Str) (hprocess : device.process = .off storage) :
    (device.launch storage deviceId).EndSound := by
  have hstorage := storage_of_off hprocess
  have hsessions := hsound.sessions
  rw [hstorage] at hsessions
  refine ⟨?_, ?_, ?_, ?_⟩
  · intro _ row hrow
    rcases device.launch_cases storage deviceId with ⟨hnone, _, hafter⟩
      | ⟨id, found, hlatest, hstored, hafter⟩
    · rw [hafter] at hrow
      rw [Table.latest_of_find_sequence hrow] at hnone
      cases hnone
    · -- the last event is the end itself
      obtain ⟨rfl, hnewest⟩ := hsessions.of_latest hlatest
      rw [hafter, Statistics.addOrMergeEvent_sessions, hnewest] at hrow
      obtain rfl := Option.some.inj hrow
      obtain ⟨hends, newId, heq⟩ := ending_of_row storage deviceId
        { found with id := storage.sessions.sequence }
      rw [hstored, lastOf_concat, if_pos hends.2]
      intro event hevent
      rw [← Option.some.inj hevent, heq]
      exact ⟨rfl, rfl, rfl, UInt64.le_refl _⟩
  · exact fun statistics hopened => by cases hopened
  · exact fun statistics hlive => by cases hlive
  · exact fun statistics event hlive => by cases hlive

theorem EndSound.openSession (hsound : device.Sound) {statistics : Statistics} {uuid : Str}
    (hprocess : device.process = .ended statistics) (hnew : uuid ∉ device.uuids) :
    ({ device with process := .opened (statistics.openSession uuid)
                   uuids := uuid :: device.uuids } : Device).EndSound := by
  have hunopened := hsound.ended statistics hprocess
  have hlast := lastOf_eq_none hsound hnew
  rw [hunopened.openSession]
  refine ⟨fun hlive => (by cases hlive), ?_, ?_, ?_⟩
  · rintro _ ⟨⟩
    exact hunopened.handler
  · intro after hafter
    obtain rfl := Option.some.inj hafter
    refine ⟨_, Table.find_insert_self, ?_⟩
    simp only [hlast]
    refine Statistics.liveFits_of_idle hunopened.handler ⟨?_, ?_, ?_, Or.inr rfl⟩
    · exact fun event hevent => by cases hevent
    · exact fun event hevent => by cases hevent
    · exact ⟨hunopened.game.1.symm, hunopened.game.2.symm⟩
  · intro after event hafter hevent
    obtain rfl := Option.some.inj hafter
    simp only [hlast] at hevent
    cases hevent

theorem EndSound.finishInit (h : device.EndSound) {statistics configured : Statistics}
    {now : UInt64} (hprocess : device.process = .opened statistics) (hclock : device.clock ≤ now)
    (hhistory : statistics.initHistory now = some configured) :
    ({ device with process := .running configured.initReportThread.initRequest
                   clock := now } : Device).EndSound := by
  have hlive := live_of_opened hprocess
  obtain ⟨config, queue, thread, terminated, heq, _, _⟩ := Statistics.finishInit_cases hhistory
  rw [heq]
  refine ⟨fun hlive => (by cases hlive), fun other hother => (by cases hother), ?_, ?_⟩
  · intro after hafter
    obtain rfl := Option.some.inj hafter
    exact (h.live statistics hlive).congr rfl rfl rfl ⟨rfl, rfl, rfl⟩ rfl
  · intro after event hafter hevent
    obtain rfl := Option.some.inj hafter
    exact UInt64.le_trans (h.timed statistics event hlive hevent) hclock

theorem LastTimed.run (h : device.LastTimed) (hsound : device.Sound) (htimed : device.Timed)
    {statistics after : Statistics} {op : Statistics.Op}
    (hprocess : device.process = .running statistics) (hmoved : statistics.Moved op after) :
    (device.run statistics op after).LastTimed := by
  have hlive := live_of_running hprocess
  obtain ⟨hregistered, hown⟩ := hsound.live statistics hlive
  have hkeeps := hmoved.keepsSession hregistered.id_ne_zero
  have hclock : device.clock ≤ (device.run statistics op after).clock :=
    device.clock_le_read op.reading
  intro other event hother hevent
  obtain rfl := Option.some.inj hother
  rw [hkeeps.gameSession] at hevent
  refine UInt64.le_trans ?_ hclock
  rcases hmoved.rows with ⟨handled, todo, rfl, hhandler, _⟩ | ⟨hnothing, _⟩
  · simp only [Device.run, Statistics.storedBy, hhandler, lastOf_concat] at hevent
    split at hevent
    · obtain ⟨id, heq⟩ := Statistics.exists_id_addOrMergeEvent statistics.persistence handled
      obtain rfl := Option.some.inj hevent
      rw [heq]
      exact htimed.handler statistics _ hlive hhandler
    · exact h statistics event hlive hevent
  · simp only [Device.run, hnothing, List.append_nil] at hevent
    exact h statistics event hlive hevent

theorem EndSound.run (h : device.EndSound) (hsound : device.Sound) (htimed : device.Timed)
    {statistics after : Statistics} {op : Statistics.Op}
    (hprocess : device.process = .running statistics) (hadmits : device.admits op = true)
    (hcovered : device.covered (.run op) = true) (hmoved : statistics.Moved op after) :
    (device.run statistics op after).EndSound := by
  have hlive := live_of_running hprocess
  obtain ⟨hregistered, hown⟩ := hsound.live statistics hlive
  refine ⟨fun hlive => (by cases hlive), fun other hother => (by cases hother), ?_,
    h.timed.run hsound htimed hprocess hmoved⟩
  intro other hother
  obtain rfl := Option.some.inj hother
  refine (h.live statistics hlive).moved hregistered.id_ne_zero hown hmoved ?_ ?_ ?_
  · intro now gameId gamePkg hop
    rcases hop with rfl | ⟨hgame, rfl | rfl⟩
    · simp only [covered, hprocess, decide_eq_true_eq] at hcovered
      exact hcovered.symm
    all_goals
      simp only [covered, hprocess, decide_eq_true_eq] at hcovered
      exact (hcovered hgame).symm
  · intro now hreading hlocked event hevent
    exact UInt64.le_trans (h.timed statistics event hlive hevent)
      (clock_le_of_admits hadmits hlocked hreading)
  · rintro now rfl hforeground hgame
    simp only [covered, hprocess, decide_eq_true_eq] at hcovered
    obtain ⟨hclock, hlogout⟩ := hcovered hforeground hgame
    refine ⟨?_, ?_, ?_⟩
    · exact fun event hevent => UInt64.le_trans (h.timed statistics event hlive hevent) hclock
    · exact fun handler hhandler =>
        UInt64.le_trans (htimed.handler statistics handler hlive hhandler) hclock
    · intro handler hhandler
      rw [hhandler, Option.all_some, decide_eq_true_eq] at hlogout
      exact hlogout

/-- A row that is saved while no handler is exposed. -/
theorem EndSound.saved (h : device.EndSound) {statistics : Statistics}
    (hlive : device.process.live = some statistics)
    (hopen : ∀ handler, statistics.handler = some handler → handler.exposed = false) :
    ∃ row, statistics.persistence.sessions.find statistics.localSession.id = some row
      ∧ Agrees (lastOf device.stored statistics.gameSession) row := by
  obtain ⟨row, hrow, hfits⟩ := h.live statistics hlive
  refine ⟨row, hrow, ?_⟩
  rcases hhandler : statistics.handler with _ | handler
  · exact (hfits.idle hhandler).saved
  · exact (hfits.busy handler hhandler).saved (hopen handler hhandler)

theorem EndSound.crash (h : device.EndSound) (hsound : device.Sound) {statistics : Statistics}
    {deleted : Nat} (hcovered : device.covered (.crash deleted) = true)
    (hprocess : device.process.statistics = some statistics) :
    ({ device with process := .off (statistics.left deleted) } : Device).EndSound := by
  refine ⟨?_, ?_, ?_, ?_⟩
  · intro _ row hrow
    rw [Device.storage, Process.storage, Statistics.left_sessions] at hrow
    rcases hcase : device.process.live with _ | running
    · have hclosed := h.closed hcase row
      rw [storage_of_statistics hprocess] at hclosed
      exact hclosed hrow
    · have hstatistics : running = statistics := by
        rcases hended : device.process with _ | _ | _ | _ <;>
          rw [hended] at hcase hprocess <;> cases hcase <;> cases hprocess <;> rfl
      subst hstatistics
      have hopen : ∀ handler, running.handler = some handler → handler.exposed = false := by
        intro handler hhandler
        rcases hended : device.process with _ | _ | opened | _
        · rw [hended] at hcase
          cases hcase
        · rw [hended] at hcase
          cases hcase
        · rw [hended] at hcase
          obtain rfl := Option.some.inj hcase
          rw [h.opened opened hended] at hhandler
          cases hhandler
        · rw [hended] at hcase
          obtain rfl := Option.some.inj hcase
          simpa only [covered, hended, hhandler, Option.all_some, Bool.not_eq_true'] using hcovered
      obtain ⟨saved, hsaved, hagrees⟩ := h.saved hcase hopen
      obtain ⟨hregistered, _⟩ := hsound.live running hcase
      obtain ⟨own, hown, hsession⟩ := hregistered.row
      rw [hregistered.id, hrow] at hown hsaved
      obtain rfl := Option.some.inj hown
      obtain rfl := Option.some.inj hsaved
      rw [hsession]
      exact hagrees
  · exact fun other hother => by cases hother
  · exact fun other hother => by cases hother
  · exact fun other event hother => by cases hother

theorem EndSound.step (h : device.EndSound) (hsound : device.Sound) (htimed : device.Timed)
    (hcovered : device.covered op = true) (hmoved : device.Moved op next) : next.EndSound := by
  cases hmoved with
  | launch hprocess => exact EndSound.launch hsound _ hprocess
  | openSession hprocess hnew => exact EndSound.openSession hsound hprocess hnew
  | finishInit hprocess hclock hhistory => exact h.finishInit hprocess hclock hhistory
  | run hprocess hadmits hmoved => exact h.run hsound htimed hprocess hadmits hcovered hmoved
  | crash hprocess => exact h.crash hsound hcovered hprocess

theorem endSound_start : start.EndSound := by
  refine ⟨?_, ?_, ?_, ?_⟩
  · exact fun _ row hrow => by cases hrow
  · exact fun statistics hprocess => by cases hprocess
  · exact fun statistics hlive => by cases hlive
  · exact fun statistics event hlive => by cases hlive

/-- **The end of a session matches its last event along covered runs.** A launch that finds a
session ends it, with the game and the user of the last event that was stored for it, and not
before. -/
theorem end_event_matches {deviceId : Str}
    (hreach : system.Reaches (fun device op => device.covered op = true) device)
    (hstep : device.step (.launch deviceId) = some next) {session : GameSession}
    (hsession : device.storage.getLatestSession = some session) :
    ∃ ending, next.stored = device.stored ++ [ending] ∧ ending.Ends session.session
      ∧ ∀ last, lastOf device.stored session.session = some last → ending.Matches last := by
  have hall : device.Sound ∧ device.Timed ∧ device.EndSound := by
    refine hreach.invariant (fun device => device.Sound ∧ device.Timed ∧ device.EndSound) ?_ ?_
    · rintro _ rfl
      exact ⟨sound_start, timed_of_not_live rfl, endSound_start⟩
    · rintro state label after ⟨hsound, htimed, hends⟩ hcovered hstep
      have hmoved := moved_of_step hstep
      exact ⟨hsound.step hmoved, htimed.step hsound hmoved,
        hends.step hsound htimed hcovered hmoved⟩
  obtain ⟨hsound, _, hends⟩ := hall
  obtain ⟨storage, hprocess, rfl⟩ : ∃ storage, device.process = .off storage
      ∧ next = device.launch storage deviceId := by
    cases moved_of_step hstep with
    | launch hprocess => exact ⟨_, hprocess, rfl⟩
  have hstorage := storage_of_off hprocess
  have hsessions := hsound.sessions
  have hclosed := hends.closed (by rw [hprocess]; rfl)
  rw [hstorage] at hsession hsessions hclosed
  rcases device.launch_cases storage deviceId with ⟨hnone, _, _⟩ | ⟨id, row, hlatest, hstored, _⟩
  · rw [DurPersistence.getLatestSession, hnone] at hsession
    cases hsession
  · rw [DurPersistence.getLatestSession, hlatest] at hsession
    obtain rfl := Option.some.inj hsession
    obtain ⟨rfl, hnewest⟩ := hsessions.of_latest hlatest
    obtain ⟨hends, newId, heq⟩ := ending_of_row storage deviceId
      { row with id := storage.sessions.sequence }
    refine ⟨_, hstored, hends, fun last hlast => ?_⟩
    obtain ⟨hgame, hpkg, huser, htime⟩ := hclosed row hnewest last hlast
    rw [heq]
    exact ⟨hgame.symm, hpkg.symm, huser.symm, htime⟩

/-- A game that goes to the back; the process ends when that event is stored and not yet queued. -/
def endedInBackground : List Op :=
  launchOps [117] 300000 ++ gameOps 301000 ++ .run (.onBackground 302000)
    :: (List.replicate 3 (.run .handler) ++ [.crash 0])

theorem end_event_matches_endedInBackground : ∃ device next : Device, ∃ ending last,
    next.stored = device.stored ++ [ending] ∧ lastOf device.stored ending.session = some last
      ∧ last.action = .gameBackground ∧ ending.Matches last := by
  have hrun : ((system.guarded (fun device op => device.covered op = true)
      endedInBackground start).any fun device => (device.step (.launch [])).isSome
        ∧ (device.storage.getLatestSession.any fun session =>
          (lastOf device.stored session.session).any fun last => last.action = .gameBackground))
      = true := by decide +kernel
  obtain ⟨device, hguarded, hseen⟩ := (Option.any_eq_true _ _).mp hrun
  obtain ⟨hstep, hany⟩ := of_decide_eq_true hseen
  obtain ⟨next, hnext⟩ := Option.isSome_iff_exists.mp hstep
  obtain ⟨session, hsession, hfound⟩ := (Option.any_eq_true _ _).mp hany
  obtain ⟨last, hlast, haction⟩ := (Option.any_eq_true _ _).mp hfound
  obtain ⟨ending, hstored, hends, hmatches⟩ := end_event_matches
    (System.Reaches.guarded (.init rfl) hguarded) hnext hsession
  exact ⟨device, next, ending, last, hstored, by rw [hends.2, hlast], of_decide_eq_true haction,
    hmatches last hlast⟩

/-- The process ends between `AddOrMergeEvent` and `UpdateSession` of `GameStart`. -/
def endedAtStart : List Op :=
  launchOps [117] 300000 ++ [.run (.gameStart [103] [112] 301000), .run .handler, .crash 0]

/-- **The end of the session has no game and no time.** -/
theorem end_event_without_game : ∃ device next : Device, ∃ ending last,
    system.Reachable device ∧ device.step (.launch []) = some next
      ∧ next.stored = device.stored ++ [ending] ∧ ending.action = .gameEnd
      ∧ lastOf device.stored ending.session = some last ∧ last.gameId = [103]
      ∧ ending.gameId = [] ∧ ending.timestamp < last.timestamp := by
  have hrun : ((endedAtStart.foldlM step start).any fun device =>
      (device.step (.launch [])).any fun next => next.stored.getLast?.any fun ending =>
        next.stored = device.stored ++ [ending] ∧ ending.action = .gameEnd
          ∧ (lastOf device.stored ending.session).any fun last => last.gameId = [103]
            ∧ ending.gameId = [] ∧ ending.timestamp < last.timestamp) = true := by decide +kernel
  obtain ⟨device, hlast, hlaunch⟩ := (Option.any_eq_true _ _).mp hrun
  obtain ⟨next, hnext, hending⟩ := (Option.any_eq_true _ _).mp hlaunch
  obtain ⟨ending, _, hseen⟩ := (Option.any_eq_true _ _).mp hending
  obtain ⟨hstored, haction, hany⟩ := of_decide_eq_true hseen
  obtain ⟨last, hfound, hdiffers⟩ := (Option.any_eq_true _ _).mp hany
  obtain ⟨hgame, hempty, hearlier⟩ := of_decide_eq_true hdiffers
  exact ⟨device, next, ending, last, reachable_of_run hlast, hnext, hstored, haction, hfound, hgame,
    hempty, hearlier⟩

end Device

end TapSdk.Duration
