import TapSdk.Duration.Proof.Clock

/-!
# Events and their game

The window listeners assert that there is a game and the heartbeats test for one. `OnNewUser` does
neither, and `NewGameSession` ends whatever session it finds, also one in which no game was started.
-/

namespace TapSdk.Duration

open Library

namespace Statistics

variable {statistics next : Statistics} {op : Op}

/-- The game that the event of a new handler gets. -/
theorem Begun.gameId (h : statistics.Begun op next) {handler : Handler}
    (hhandler : next.handler = some handler) :
    handler.event.gameId = match op with
      | .gameStart gameId _ _ => gameId
      | _ => statistics.gameId := by
  cases h with
  | gameStart =>
      obtain rfl := Option.some.inj hhandler
      rfl
  | onForeground hgame | onBackground hgame =>
      rw [onWindow, if_neg hgame] at hhandler
      obtain rfl := Option.some.inj hhandler
      rfl
  | login hother =>
      simp only [onNewUser, if_pos hother] at hhandler
      obtain rfl := Option.some.inj hhandler
      rfl
  | logout =>
      obtain rfl := Option.some.inj hhandler
      rfl

end Statistics

def DurEvent.NamesGame (event : DurEvent) : Prop := event.gameId ≠ []

instance (event : DurEvent) : Decidable event.NamesGame := inferInstanceAs (Decidable (_ ≠ _))

namespace Device

variable {device next : Device} {op : Op}

/-- Every event of the table and of the queue names a game, and so did every event that was ever
stored. -/
structure EventsNameGame (device : Device) : Prop where
  rows : ∀ id event, device.storage.events.find id = some event → event.NamesGame
  queue : ∀ statistics, device.process.live = some statistics →
    ∀ event ∈ statistics.reportQueue.queue, event.NamesGame
  stored : ∀ event ∈ device.stored, event.NamesGame

/-- A game that is set has an id. -/
def Op.identified : Op → Bool
  | .run (.gameStart gameId _ _) => gameId ≠ []
  | _ => true

/-- The user changes only after a game has been set, and a launch finds no session, or one with a
game. -/
def gamed (device : Device) (op : Op) : Bool :=
  match device.process, op with
  | .running statistics, .run (.onNewUser user _) =>
      statistics.gameId ≠ [] ∨ user.any fun user => user.userId = statistics.userId
  | .off storage, .launch _ => storage.sessions.latest.all fun (_, row) => row.gameId ≠ []
  | _, _ => true

theorem makes_namesGame (hidentified : op.identified = true) (hgamed : device.gamed op = true) :
    device.Makes DurEvent.NamesGame op := by
  refine ⟨?_, ?_, ?_, ?_⟩
  · rintro deviceId storage id row rfl hprocess hlatest
    simp only [gamed, hprocess, hlatest, Option.all_some, decide_eq_true_eq] at hgamed
    exact hgamed
  · rintro statistics move after handler rfl hprocess _ hbegun hhandler
    rw [DurEvent.NamesGame, hbegun.gameId hhandler]
    cases hbegun with
    | gameStart => exact of_decide_eq_true hidentified
    | onForeground hgame | onBackground hgame => exact hgame
    | login hother =>
        simp only [gamed, hprocess, Option.any_some, decide_eq_true_eq] at hgamed
        exact hgamed.resolve_right fun hsame => hother hsame.symm
    | logout =>
        simp only [gamed, hprocess, Option.any_none, decide_eq_true_eq] at hgamed
        exact hgamed.resolve_right Bool.false_ne_true
  · exact fun statistics now _ _ _ hgame => hgame
  · exact fun statistics input events success _ _ _ _ event _ _ hevent => hevent

/-- **Every event names a game** along the runs in which a game is set before the user changes, and
every launch finds a session with a game, if it finds one. -/
theorem events_name_game (hreach : system.Reaches
    (fun device op => op.identified = true ∧ device.gamed op = true) device) :
    device.EventsNameGame := by
  have hall : device.Sound ∧ device.Holding DurEvent.NamesGame := by
    refine hreach.invariant (fun device => device.Sound ∧ device.Holding DurEvent.NamesGame) ?_ ?_
    · rintro _ rfl
      exact ⟨sound_start, holding_start⟩
    · rintro state label after ⟨hsound, hholding⟩ ⟨hidentified, hgamed⟩ hstep
      have hmoved := moved_of_step hstep
      exact ⟨hsound.step hmoved, hholding.step hsound (fun _ _ hevent => hevent)
        (makes_namesGame hidentified hgamed) hmoved⟩
  obtain ⟨hsound, hholding⟩ := hall
  refine ⟨fun id event hrow => ?_, fun statistics hlive => ?_, hholding.stored⟩
  · exact hholding.stored event (hsound.rows id event hrow).2
  · exact (hholding.carries statistics hlive).queue

def newUserOps (user : Option Statistics.User) (now : UInt64) (steps : Nat) : List Op :=
  .run (.onNewUser user now) :: List.replicate steps (.run .handler)

/-- A game, a login, a crash, and a launch. -/
def gameThenUser : List Op :=
  launchOps [117] 300000 ++ gameOps 301000 ++ newUserOps (some ⟨[106], true⟩) 302000 6
    ++ [.crash 0, .launch []]

theorem events_name_game_gameThenUser : ∃ device : Device, device.EventsNameGame
    ∧ device.stored.map (·.action) = [.gameStart, .userLogin, .gameEnd] := by
  have hrun : ((system.guarded (fun device op => op.identified = true ∧ device.gamed op = true)
      gameThenUser start).any fun device => device.stored.map (·.action)
        = [.gameStart, .userLogin, .gameEnd]) = true := by decide +kernel
  obtain ⟨device, hlast, hseen⟩ := (Option.any_eq_true _ _).mp hrun
  exact ⟨device, events_name_game (System.Reaches.guarded (.init rfl) hlast),
    of_decide_eq_true hseen⟩

/-- The user is set before the game. -/
def userThenGame : List Op :=
  launchOps [117] 300000 ++ newUserOps (some ⟨[106], true⟩) 301000 6 ++ gameOps 302000

/-- A user and no game, and the next launch. -/
def userAndNoGame : List Op :=
  launchOps [117] 300000 ++ newUserOps (some ⟨[106], true⟩) 301000 6 ++ [.crash 0, .launch []]

/-- **A login before the game is stored and queued without one**, and so is the end of a session in
which no game was set. -/
theorem login_before_game_nameless :
    (∃ device : Device, system.Reaches (fun _ op => op.identified = true) device
      ∧ ¬ device.EventsNameGame
      ∧ ∃ event ∈ device.stored, event.action = .userLogin ∧ ¬ event.NamesGame)
    ∧ ∃ device : Device, system.Reaches (fun _ op => op.identified = true) device
      ∧ ∃ event ∈ device.stored, event.action = .gameEnd ∧ ¬ event.NamesGame := by
  have hfirst : ((system.guarded (fun _ op => op.identified = true) userThenGame start).any
      fun device => device.stored.any fun event =>
        event.action = .userLogin ∧ ¬ event.NamesGame) = true := by decide +kernel
  have hsecond : ((system.guarded (fun _ op => op.identified = true) userAndNoGame start).any
      fun device => device.stored.any fun event =>
        event.action = .gameEnd ∧ ¬ event.NamesGame) = true := by decide +kernel
  obtain ⟨device, hlast, hseen⟩ := (Option.any_eq_true _ _).mp hfirst
  obtain ⟨later, hlater, hended⟩ := (Option.any_eq_true _ _).mp hsecond
  obtain ⟨event, hevent, hlogin⟩ := List.any_eq_true.mp hseen
  obtain ⟨other, hother, hend⟩ := List.any_eq_true.mp hended
  have hnameless := of_decide_eq_true hlogin
  refine ⟨⟨device, System.Reaches.guarded (.init rfl) hlast, ?_, event, hevent, hnameless⟩,
    later, System.Reaches.guarded (.init rfl) hlater, other, hother, of_decide_eq_true hend⟩
  exact fun hnames => hnameless.2 (hnames.stored event hevent)

end Device

end TapSdk.Duration
