import TapSdk.Duration.Proof.Identity
import TapSdk.Sdk.Api
import TapSdk.Tracker.Proof.SelfDeadlock

/-!
# Calls that return

The assertions behind the C interface throw, and nothing between them and the caller catches. Three
calls do not come back with a result: one that tells a window event to the duration statistics
before it has a game, one that adds to a message whose flush was refused, and a flush that runs into
its own lock or its own erased entry.
-/

namespace TapSdk.Sdk

open Library Tracker

variable {ext : Externals}

def Outcome.Returns (outcome : Outcome) : Prop := ∃ result, outcome = .returned result

namespace Api

variable {api next : Api} {op : Op}

/-! ### What a step does -/

/-- The state after a step, by the function that makes it. -/
inductive Moved (ext : Externals) (api : Api) : Op → Api → Prop where
  | idle {call : Call} : Moved ext api (.call call) api
  | init (config : Option TapsdkConfig) (files : InitFiles) :
      Moved ext api (.call (.init config files)) (api.init ext config files).2
  | gameSet (game : Option TapsdkGame) :
      Moved ext api (.call (.gameSet game)) (api.gameSet game).2
  | userSet (user : Option TapsdkUser) :
      Moved ext api (.call (.userSet user)) (api.userSet user).2
  | created (config : Option Nat) (message : Bool) (env : CreateEnv) :
      Moved ext api (.call (.trackerCreate config message env))
        (api.trackerCreate config message env).2
  | added {call : Call} {add : TrackMsgCacheProto → TrackMsgContent → TrackMsgCacheProto}
      {message : Option Nat} {key value : Option Str} {outcome : Outcome} {next : Api}
      (hadd : api.msgAdd add message key value = some (outcome, next)) :
      Moved ext api (.call call) next
  | flushed {handle : Nat} {track : TrackMessage} (env : FlushEnv)
      (htrack : api.messages handle = some track) :
      Moved ext api (.call (.trackerFlush (some handle) env))
        (api.flushMessage ext handle track env).2
  | edited (address : Nat) (strings : TapsdkTrackerConfig) :
      Moved ext api (.edit address strings)
        (api.setConfig address { strings with hash := (api.configs address).hash })
  | checked (order : List UInt64) (clock : Nat → UInt32) :
      Moved ext api (.check order clock)
        (api.setManager (api.manager.checkAndUploadTrackers ext order clock))
  | completed {position : Nat} {success : Bool} {env : CompletionEnv} {manager : Manager}
      (hcomplete : api.manager.complete ext position success env = some manager) :
      Moved ext api (.complete position success env) { api with manager := manager }
  | exited : Moved ext api .exit (start api.accepted)

theorem moved_of_trackerFlush {message : Option Nat} {env : FlushEnv} {outcome : Outcome}
    (h : api.trackerFlush ext message env = some (outcome, next)) :
    Moved ext api (.call (.trackerFlush message env)) next := by
  unfold trackerFlush at h
  split at h
  · obtain ⟨_, rfl⟩ := Prod.mk.inj (Option.some.inj h)
    exact .idle
  · split at h
    · obtain ⟨_, rfl⟩ := Prod.mk.inj (Option.some.inj h)
      exact .idle
    · obtain ⟨track, htrack, heq⟩ := Option.map_eq_some_iff.mp h
      obtain rfl : (api.flushMessage ext _ track env).2 = next := congrArg Prod.snd heq
      exact .flushed env htrack

/-- **One step**, call by call. -/
theorem moved_of_step (h : api.step ext op = some next) : Moved ext api op next := by
  cases op with
  | call call =>
      obtain ⟨⟨outcome, after⟩, hcall, rfl⟩ := Option.map_eq_some_iff.mp h
      cases call with
      | init config files =>
          obtain ⟨_, rfl⟩ := Prod.mk.inj (Option.some.inj hcall)
          exact .init config files
      | gameSet game =>
          obtain ⟨_, rfl⟩ := Prod.mk.inj (Option.some.inj hcall)
          exact .gameSet game
      | userSet user =>
          obtain ⟨_, rfl⟩ := Prod.mk.inj (Option.some.inj hcall)
          exact .userSet user
      | windowOnForeground | windowOnBackground =>
          obtain ⟨_, rfl⟩ := Prod.mk.inj (Option.some.inj hcall)
          exact .idle
      | trackerCreate config message env =>
          obtain ⟨_, rfl⟩ := Prod.mk.inj (Option.some.inj hcall)
          exact .created config message env
      | trackerMsgAddParam message key value =>
          rw [Api.call, trackerMsgAddParam] at hcall
          exact .added hcall
      | trackerMsgAddContent message key value =>
          rw [Api.call, trackerMsgAddContent] at hcall
          exact .added hcall
      | trackerFlush message env => exact moved_of_trackerFlush hcall
  | edit address strings =>
      obtain rfl := Option.some.inj h
      exact .edited address strings
  | check order clock =>
      obtain rfl := Option.some.inj h
      exact .checked order clock
  | complete position success env =>
      obtain ⟨manager, hcomplete, rfl⟩ := Option.map_eq_some_iff.mp h
      exact .completed hcomplete
  | exit =>
      obtain rfl := Option.some.inj h
      exact .exited

/-! ### What a step does to the manager -/

/-- What becomes of the manager in a step. -/
inductive ManagerMoved (ext : Externals) (before : Manager) : Op → Manager → Prop where
  | same {op : Op} : ManagerMoved ext before op before
  | flushed {handle : Option Nat} {env : FlushEnv} (message : TrackMessageImpl) :
      ManagerMoved ext before (.call (.trackerFlush handle env))
        (before.flushTracker ext message env).2
  | loaded {config : TapsdkConfig} {files : InitFiles} :
      ManagerMoved ext before (.call (.init (some config) files)) (loadTrackers ext config files)
  | checked {order : List UInt64} {clock : Nat → UInt32} :
      ManagerMoved ext before (.check order clock) (before.checkAndUploadTrackers ext order clock)
  | completed {position : Nat} {success : Bool} {env : CompletionEnv} {after : Manager}
      (hcomplete : before.complete ext position success env = some after) :
      ManagerMoved ext before (.complete position success env) after
  | restarted : ManagerMoved ext before .exit (Manager.empty (fun _ => none) 0)

theorem initSdk_manager (api : Api) (config : TapsdkConfig) (files : InitFiles) :
    (api.initSdk ext config files).2.manager = api.manager
      ∨ (api.initSdk ext config files).2.manager = loadTrackers ext config files := by
  unfold initSdk
  split
  · exact Or.inl rfl
  · cases config.enableTapTracker with
    | true => exact Or.inr rfl
    | false => exact Or.inl rfl

/-- A call of `tapsdk_init` with invalid input does nothing; any other calls `Init`. -/
theorem init_cases (api : Api) (config : Option TapsdkConfig) (files : InitFiles) :
    (api.init ext config files).2 = api
      ∨ ∃ given device inited, config = some given ∧ (api.init ext config files).2
        = { ({ api with currentDevice := Device.construct device }.initSdk ext given files).2 with
            sdkInited := inited } := by
  unfold init
  split
  · exact Or.inl rfl
  · rename_i given
    split
    · exact Or.inl rfl
    · rename_i device _
      split
      · exact Or.inl rfl
      · split
        · exact Or.inl rfl
        · refine Or.inr ⟨given, device, ?_⟩
          split
          · rename_i after heq
            exact ⟨true, rfl, by rw [heq]⟩
          · rename_i after heq
            exact ⟨after.sdkInited, rfl, by rw [heq]⟩

theorem managerMoved_init (api : Api) (config : Option TapsdkConfig) (files : InitFiles) :
    ManagerMoved ext api.manager (.call (.init config files))
      (api.init ext config files).2.manager := by
  obtain heq | ⟨given, device, inited, rfl, heq⟩ := @init_cases ext api config files
  · rw [heq]
    exact .same
  · have hmanager := @initSdk_manager ext { api with currentDevice := Device.construct device }
      given files
    rw [heq]
    dsimp only
    rcases hmanager with hsame | hloaded
    · rw [hsame]
      exact .same
    · rw [hloaded]
      exact .loaded

/-- The manager and its lock are the same. -/
structure SameLock (before after : Api) : Prop where
  manager : after.manager = before.manager
  locked : after.locked = before.locked

/-- The messages, the manager and the record are the same. -/
structure SameMessages (before after : Api) : Prop extends before.SameLock after where
  messages : after.messages = before.messages
  accepted : after.accepted = before.accepted

theorem sameMessages_setConfig (api : Api) (address : Nat) (config : TapsdkTrackerConfig) :
    api.SameMessages (api.setConfig address config) := ⟨⟨rfl, rfl⟩, rfl, rfl⟩

theorem sameMessages_setTrackerConfig (api : Api) (config : TrackerConfig) :
    api.SameMessages (api.setTrackerConfig config) := ⟨⟨rfl, rfl⟩, rfl, rfl⟩

theorem SameMessages.trans {before after last : Api} (h : before.SameMessages after)
    (h' : after.SameMessages last) : before.SameMessages last :=
  ⟨⟨h'.manager.trans h.manager, h'.locked.trans h.locked⟩, h'.messages.trans h.messages,
    h'.accepted.trans h.accepted⟩

theorem sameMessages_trackerConfig (api : Api) (address : Nat) :
    api.SameMessages (api.trackerConfig address).2 := by
  unfold trackerConfig
  dsimp only
  split
  · exact (api.sameMessages_setConfig address _).trans (sameMessages_setTrackerConfig _ _)
  · split
    · exact ⟨⟨rfl, rfl⟩, rfl, rfl⟩
    · exact api.sameMessages_setConfig address _

/-- Creating a message changes nothing but the messages and the configurations. -/
theorem trackerCreate_frame (api : Api) (config : Option Nat) (message : Bool) (env : CreateEnv) :
    api.SameLock (api.trackerCreate config message env).2
      ∧ (api.trackerCreate config message env).2.accepted = api.accepted := by
  unfold trackerCreate
  split
  · exact ⟨⟨rfl, rfl⟩, rfl⟩
  · split
    · have hsame := api.sameMessages_trackerConfig
      dsimp only
      split
      · exact ⟨(hsame _).toSameLock, (hsame _).accepted⟩
      · exact ⟨⟨(hsame _).manager, (hsame _).locked⟩, (hsame _).accepted⟩
    · exact ⟨⟨rfl, rfl⟩, rfl⟩

theorem sameLock_gameSet (api : Api) (game : Option TapsdkGame) :
    api.SameLock (api.gameSet game).2 := by
  unfold gameSet
  repeat' split
  all_goals exact ⟨rfl, rfl⟩

theorem sameLock_userSet (api : Api) (user : Option TapsdkUser) :
    api.SameLock (api.userSet user).2 := by
  unfold userSet
  repeat' split
  all_goals exact ⟨rfl, rfl⟩

theorem sameLock_msgAdd {add : TrackMsgCacheProto → TrackMsgContent → TrackMsgCacheProto}
    {message : Option Nat} {key value : Option Str} {outcome : Outcome}
    (h : api.msgAdd add message key value = some (outcome, next)) : api.SameLock next := by
  unfold msgAdd at h
  repeat' split at h
  all_goals cases h <;> exact ⟨rfl, rfl⟩

theorem managerMoved_flushMessage (api : Api) (handle : Nat) (track : TrackMessage)
    (env : FlushEnv) (message : Option Nat) :
    ManagerMoved ext api.manager (.call (.trackerFlush message env))
      (api.flushMessage ext handle track env).2.manager := by
  unfold flushMessage
  split
  · exact .same
  · split
    · exact .same
    · split
      · exact .same
      · dsimp only
        split
        · exact .flushed track.message
        · exact .flushed track.message

/-- The manager stays, or does one of its own steps, or is loaded anew. -/
theorem managerMoved_of_step (h : api.step ext op = some next) :
    ManagerMoved ext api.manager op next.manager := by
  cases moved_of_step h with
  | idle => exact .same
  | init config files => exact api.managerMoved_init config files
  | gameSet game =>
      rw [(api.sameLock_gameSet game).manager]
      exact .same
  | userSet user =>
      rw [(api.sameLock_userSet user).manager]
      exact .same
  | created config message env =>
      rw [(api.trackerCreate_frame config message env).1.manager]
      exact .same
  | added hadd =>
      rw [(sameLock_msgAdd hadd).manager]
      exact .same
  | flushed env htrack => exact api.managerMoved_flushMessage _ _ env _
  | edited address strings => exact .same
  | checked order clock => exact .checked
  | completed hcomplete => exact .completed hcomplete
  | exited => exact .restarted

/-! ### Slots -/

/-- The directory that a call of `tapsdk_init` lists holds the files of the program. -/
def Op.Listed : Op → Prop
  | .call (.init _ files) => Manager.ProgramNamed files.names
  | _ => True

theorem slots_step (h : api.manager.Slots) (hlisted : op.Listed)
    (hstep : api.step ext op = some next) : next.manager.Slots := by
  have hmoved := managerMoved_of_step hstep
  generalize next.manager = after at hmoved
  cases hmoved with
  | same => exact h
  | flushed message => exact h.flushTracker message _
  | loaded => exact (Manager.slots_empty _ _).syncLoad hlisted (fun _ _ _ _ => rfl) _
  | checked => exact @Manager.Slots.step ext _ _ h (.check _ _) trivial rfl
  | completed hcomplete => exact h.complete hcomplete
  | restarted => exact Manager.slots_empty _ _

/-! ### Locks that are released -/

/-- The upload of a cache gets as far as its request, and the client accepts its address. -/
structure Suspends (ext : Externals) (cache : OpenCache) (config : TrackerConfig)
    (clock : Nat → UInt32) : Prop where
  sendable : cache.Sendable ext config clock
  addressed : config.strings.addressed = true

theorem raisedBy_completesInline (hcompresses : ext.Compresses) :
    Manager.RaisedBy ext (Suspends ext) completesInline := by
  refine ⟨fun manager hash index clock => ?_, fun before after hinFlight hdead => ?_⟩
  · cases huploading : manager.uploading with
    | true => simp [Manager.uploadTrackerCacheAsync, huploading]
    | false =>
        cases hcache : manager.registered hash index with
        | none =>
            have hfind : (manager.trackersCache hash).find index = none := hcache
            simp [Manager.uploadTrackerCacheAsync, huploading, hfind]
        | some cache =>
            rw [Manager.uploadTrackerCacheAsync_of_registered huploading hcache]
            simp only [completesInline, List.any_append, List.any_cons, List.any_nil, Bool.or_false,
              Bool.or_eq_false_iff, Bool.not_eq_false', TrackerCache.request_isNone_iff hcompresses,
              Option.some.injEq, forall_eq', true_imp_iff]
            constructor
            · rintro ⟨⟨hdead, hsendable⟩, hothers, haddressed⟩
              exact ⟨⟨hdead, hothers⟩, hsendable, haddressed⟩
            · rintro ⟨⟨hdead, hothers⟩, hsendable, haddressed⟩
              exact ⟨⟨hdead, hsendable⟩, hothers, haddressed⟩
  · rw [completesInline, completesInline, hinFlight, hdead]

/-- Unless the lock is held for good, no upload has completed inside a call. -/
def LockFree (api : Api) : Prop := api.locked = false → completesInline api.manager = false

theorem lockFree_setManager (api : Api) (manager : Manager) :
    (api.setManager manager).LockFree := fun hfree => (Bool.or_eq_false_iff.mp hfree).2

theorem LockFree.congr (h : api.LockFree) (hsame : api.SameLock next) : next.LockFree := by
  unfold LockFree
  rw [hsame.manager, hsame.locked]
  exact h

theorem completesInline_complete {before after : Manager} {position : Nat} {success : Bool}
    {env : CompletionEnv} (h : completesInline before = false)
    (hcomplete : before.complete ext position success env = some after) :
    completesInline after = false := by
  obtain ⟨hdead, hinFlight⟩ := Manager.complete_frame hcomplete
  obtain ⟨hclean, hothers⟩ := Bool.or_eq_false_iff.mp h
  rw [completesInline, hdead, hinFlight, hclean, Bool.false_or]
  rw [List.any_eq_false] at hothers ⊢
  exact fun upload hmem => hothers upload (List.mem_of_mem_eraseIdx hmem)

theorem completesInline_loadTrackers (config : TapsdkConfig) (files : InitFiles) :
    completesInline (loadTrackers ext config files) = false := by
  obtain ⟨hdead, hinFlight⟩ := @Manager.syncLoadTrackersCache_frame ext files.names files.env
    (Manager.empty files.files _)
  rw [completesInline, loadTrackers, hdead, hinFlight]
  rfl

theorem LockFree.init (h : api.LockFree) (config : Option TapsdkConfig) (files : InitFiles) :
    (api.init ext config files).2.LockFree := by
  obtain heq | ⟨given, device, inited, rfl, heq⟩ := @init_cases ext api config files
  · rw [heq]
    exact h
  · rw [heq]
    unfold initSdk
    split
    · exact h
    · cases given.enableTapTracker with
      | true => exact fun _ => completesInline_loadTrackers given files
      | false => exact h

theorem LockFree.flushMessage (h : api.LockFree) (handle : Nat) (track : TrackMessage)
    (env : FlushEnv) : (api.flushMessage ext handle track env).2.LockFree := by
  have htried := api.lockFree_setManager (api.manager.flushTracker ext track.message env).2
  unfold Api.flushMessage
  split
  · exact h
  · split
    · exact h
    · split
      · exact h
      · dsimp only
        split
        · exact htried
        · exact htried

theorem LockFree.step (h : api.LockFree) (hstep : api.step ext op = some next) :
    next.LockFree := by
  cases moved_of_step hstep with
  | idle => exact h
  | init config files => exact h.init config files
  | gameSet game => exact h.congr (api.sameLock_gameSet game)
  | userSet user => exact h.congr (api.sameLock_userSet user)
  | created config message env => exact h.congr (api.trackerCreate_frame config message env).1
  | added hadd => exact h.congr (sameLock_msgAdd hadd)
  | flushed env htrack => exact h.flushMessage _ _ env
  | edited address strings => exact h
  | checked order clock => exact api.lockFree_setManager _
  | completed hcomplete => exact fun hfree => completesInline_complete (h hfree) hcomplete
  | exited => exact fun _ => rfl

/-! ### One call -/

/-- A flush of the message ends: its loop erases no entry that it advances from, and an upload that
it starts suspends. -/
def FlushEnds (ext : Externals) (manager : Manager) (message : TrackMessageImpl) (env : FlushEnv) :
    Prop :=
  (manager.uploading = true ∨ ∀ config, message.config = some config →
    manager.NoFullBefore ext message env (manager.trackersCache config.hash).entries)
  ∧ manager.Uploads ext (Suspends ext) (.flush message env)

/-- The state in which a call is safe: a window event finds a game, nothing is added to a message
that was flushed, and a flush ends. -/
def Safe (ext : Externals) (api : Api) : Call → Prop
  | .windowOnForeground | .windowOnBackground =>
      api.sdkInited = true → api.duration ≠ some []
  | .trackerMsgAddParam message key value | .trackerMsgAddContent message key value =>
      api.sdkInited = true → key ≠ none → value ≠ none → ∀ handle track,
        message = some handle → api.messages handle = some track → track.flushed = false
  | .trackerFlush message env =>
      api.sdkInited = true → api.trackerInited = true → ∀ handle track, message = some handle →
        api.messages handle = some track → api.locked = false
          ∧ (track.flushed = false → FlushEnds ext api.manager track.message env)
  | _ => True

theorem onWindow_returns_iff (api : Api) :
    api.onWindow.Returns ↔ (api.sdkInited = true → api.duration ≠ some []) := by
  unfold onWindow
  split
  · rename_i hinited
    exact iff_of_true ⟨_, rfl⟩ fun h => by rw [hinited] at h; cases h
  · rename_i hinited
    rw [Bool.not_eq_false] at hinited
    split
    · rename_i hduration
      exact iff_of_false (by rintro ⟨_, ⟨⟩⟩) fun h => h hinited hduration
    · rename_i hduration
      exact iff_of_true ⟨_, rfl⟩ fun _ => hduration

theorem msgAdd_returns_iff {add : TrackMsgCacheProto → TrackMsgContent → TrackMsgCacheProto}
    {message : Option Nat} {key value : Option Str} {outcome : Outcome}
    (h : api.msgAdd add message key value = some (outcome, next)) :
    outcome.Returns ↔ (api.sdkInited = true → key ≠ none → value ≠ none → ∀ handle track,
      message = some handle → api.messages handle = some track → track.flushed = false) := by
  unfold msgAdd at h
  split at h
  · rename_i hinited
    obtain ⟨rfl, rfl⟩ := Prod.mk.inj (Option.some.inj h)
    exact iff_of_true ⟨_, rfl⟩ fun hyes => by rw [hinited] at hyes; cases hyes
  · rename_i hinited
    rw [Bool.not_eq_false] at hinited
    split at h
    · rename_i handle key value
      split at h
      · cases h
      · rename_i track htrack
        split at h
        · rename_i hflushed
          obtain ⟨rfl, rfl⟩ := Prod.mk.inj (Option.some.inj h)
          refine iff_of_false (by rintro ⟨_, ⟨⟩⟩) fun hsafe => ?_
          have hclear := hsafe hinited (by simp) (by simp) handle track rfl htrack
          rw [hflushed] at hclear
          cases hclear
        · rename_i hflushed
          rw [Bool.not_eq_true] at hflushed
          obtain ⟨rfl, rfl⟩ := Prod.mk.inj (Option.some.inj h)
          refine iff_of_true ⟨_, rfl⟩ ?_
          rintro _ _ _ _ other ⟨⟩ hother
          obtain rfl := Option.some.inj (htrack.symm.trans hother)
          exact hflushed
    · rename_i hnull
      obtain ⟨rfl, rfl⟩ := Prod.mk.inj (Option.some.inj h)
      refine iff_of_true ⟨_, rfl⟩ fun _ hkey hvalue handle track hmessage _ => ?_
      obtain ⟨key, rfl⟩ := Option.ne_none_iff_exists'.mp hkey
      obtain ⟨value, rfl⟩ := Option.ne_none_iff_exists'.mp hvalue
      exact absurd rfl (hnull handle key value hmessage rfl)

theorem derails_eq_false_iff {manager : Manager} (h : manager.Slots) (message : TrackMessageImpl)
    (env : FlushEnv) : derails ext manager message env = false
      ↔ manager.uploading = true ∨ ∀ config, message.config = some config →
        manager.NoFullBefore ext message env (manager.trackersCache config.hash).entries := by
  cases hconfig : message.config with
  | none => simp [derails, hconfig]
  | some config =>
      have hadvances := @flushLoop_advances_iff ext config.hash message env _ manager
        (manager.ahead_entries config.hash) (h.paths_pairwise config.hash)
      simp only [derails, hconfig, Option.some.injEq, forall_eq', ← hadvances,
        List.any_eq_false, Bool.not_eq_true', Bool.not_eq_false]

theorem flushMessage_returns_iff (h : api.manager.Slots) (hlock : api.LockFree)
    (hcompresses : ext.Compresses) (handle : Nat) (track : TrackMessage) (env : FlushEnv) :
    (api.flushMessage ext handle track env).1.Returns ↔ (api.trackerInited = true →
      api.locked = false
        ∧ (track.flushed = false → FlushEnds ext api.manager track.message env)) := by
  have hlost : ∀ (lost : Bool) (result : TapsdkResult),
      (if lost then Outcome.lost else .returned result).Returns ↔ lost = false := by
    intro lost result
    cases lost with
    | true => exact iff_of_false (by rintro ⟨_, ⟨⟩⟩) fun heq => by cases heq
    | false => exact iff_of_true ⟨_, rfl⟩ rfl
  unfold flushMessage
  split
  · rename_i hinited
    exact iff_of_true ⟨_, rfl⟩ fun hyes => by rw [hinited] at hyes; cases hyes
  · rename_i hinited
    rw [Bool.not_eq_false] at hinited
    split
    · rename_i hdead
      refine iff_of_false (by rintro ⟨_, ⟨⟩⟩) fun hsafe => ?_
      rw [(hsafe hinited).1] at hdead
      cases hdead
    · rename_i hfree
      rw [Bool.not_eq_true] at hfree
      split
      · rename_i hflushed
        refine iff_of_true ⟨_, rfl⟩ fun _ => ⟨hfree, fun hfresh => ?_⟩
        rw [hflushed] at hfresh
        cases hfresh
      · rename_i hfresh
        rw [Bool.not_eq_true] at hfresh
        have hinline := raisedBy_completesInline hcompresses
        have hends : ((api.setManager (api.manager.flushTracker ext track.message env).2).locked
            || derails ext api.manager track.message env) = false
              ↔ FlushEnds ext api.manager track.message env := by
          rw [setManager, hfree, Bool.false_or, Bool.or_eq_false_iff,
            hinline.flush_iff h (hlock hfree), derails_eq_false_iff h, FlushEnds, and_comm]
        dsimp only
        split
        all_goals
          rw [hlost, hends]
          exact ⟨fun h _ => ⟨hfree, fun _ => h⟩, fun h => (h hinited).2 hfresh⟩

/-- **One call** returns a result exactly when it is safe. -/
theorem call_returns_iff (h : api.manager.Slots) (hlock : api.LockFree)
    (hcompresses : ext.Compresses) {call : Call} {outcome : Outcome}
    (hcall : api.call ext call = some (outcome, next)) :
    outcome.Returns ↔ api.Safe ext call := by
  cases call with
  | init config files =>
      obtain ⟨rfl, rfl⟩ := Prod.mk.inj (Option.some.inj hcall)
      exact iff_of_true ⟨_, rfl⟩ trivial
  | gameSet game =>
      obtain ⟨rfl, rfl⟩ := Prod.mk.inj (Option.some.inj hcall)
      exact iff_of_true ⟨_, rfl⟩ trivial
  | userSet user =>
      obtain ⟨rfl, rfl⟩ := Prod.mk.inj (Option.some.inj hcall)
      exact iff_of_true ⟨_, rfl⟩ trivial
  | windowOnForeground | windowOnBackground =>
      obtain ⟨rfl, rfl⟩ := Prod.mk.inj (Option.some.inj hcall)
      exact api.onWindow_returns_iff
  | trackerCreate config message env =>
      obtain ⟨rfl, rfl⟩ := Prod.mk.inj (Option.some.inj hcall)
      exact iff_of_true ⟨_, rfl⟩ trivial
  | trackerMsgAddParam message key value =>
      rw [Api.call, trackerMsgAddParam] at hcall
      exact msgAdd_returns_iff hcall
  | trackerMsgAddContent message key value =>
      rw [Api.call, trackerMsgAddContent] at hcall
      exact msgAdd_returns_iff hcall
  | trackerFlush message env =>
      simp only [Api.call, trackerFlush] at hcall
      split at hcall
      · rename_i hinited
        obtain ⟨rfl, rfl⟩ := Prod.mk.inj (Option.some.inj hcall)
        exact iff_of_true ⟨_, rfl⟩ fun hyes => by rw [hinited] at hyes; cases hyes
      · rename_i hinited
        rw [Bool.not_eq_false] at hinited
        split at hcall
        · obtain ⟨rfl, rfl⟩ := Prod.mk.inj (Option.some.inj hcall)
          refine iff_of_true ⟨_, rfl⟩ ?_
          rintro _ _ _ _ ⟨⟩
        · rename_i handle
          obtain ⟨track, htrack, heq⟩ := Option.map_eq_some_iff.mp hcall
          have hiff := @flushMessage_returns_iff ext api h hlock hcompresses handle track env
          rw [heq] at hiff
          rw [hiff]
          constructor
          · rintro hsafe _ htracker _ other ⟨⟩ hother
            obtain rfl := Option.some.inj (htrack.symm.trans hother)
            exact hsafe htracker
          · exact fun hsafe htracker => hsafe hinited htracker handle track rfl htrack

/-! ### The duration statistics behind a call -/

/-- What a call tells the listeners of the duration statistics, at the time `now`. -/
def notified (api : Api) (now : UInt64) : Call → Option Duration.Statistics.Call
  | .gameSet (some game) =>
      if api.sdkInited ∧ game.clientId ≠ none ∧ game.identify ≠ none then
        some (.gameStart (toString game.clientId) (toString game.identify) now)
      else none
  | .userSet user =>
      if api.sdkInited ∧ user.all fun user => user.userId ≠ none then
        some (.onNewUser (user.map fun user => ⟨toString user.userId, user.containTapInfo⟩) now)
      else none
  | .windowOnForeground => if api.sdkInited then some (.onForeground now) else none
  | .windowOnBackground => if api.sdkInited then some (.onBackground now) else none
  | _ => none

/-- The game id of the interface is the one of the duration statistics, listener by listener. -/
theorem duration_call {statistics after : Duration.Statistics} {now : UInt64} {call : Call}
    {notification : Duration.Statistics.Call} {outcome : Outcome}
    (hgame : api.duration = some statistics.gameId)
    (hnotified : api.notified now call = some notification)
    (hlistener : statistics.call notification = some after)
    (hcall : api.call ext call = some (outcome, next)) :
    next.duration = some after.gameId := by
  rw [Duration.Statistics.call_gameId hlistener]
  unfold notified at hnotified
  split at hnotified
  · split at hnotified
    · rename_i hset
      obtain ⟨rfl, rfl⟩ := Prod.mk.inj (Option.some.inj hcall)
      obtain rfl := Option.some.inj hnotified
      rw [gameSet, if_neg (by simp [hset.1]), if_neg hset.2.1, if_neg hset.2.2]
      simp only [setCurrentGame, hgame, Option.map_some]
      rfl
    · cases hnotified
  · split at hnotified
    · obtain ⟨rfl, rfl⟩ := Prod.mk.inj (Option.some.inj hcall)
      obtain rfl := Option.some.inj hnotified
      unfold userSet
      repeat' split
      all_goals exact hgame
    · cases hnotified
  · split at hnotified
    · obtain ⟨rfl, rfl⟩ := Prod.mk.inj (Option.some.inj hcall)
      obtain rfl := Option.some.inj hnotified
      exact hgame
    · cases hnotified
  · split at hnotified
    · obtain ⟨rfl, rfl⟩ := Prod.mk.inj (Option.some.inj hcall)
      obtain rfl := Option.some.inj hnotified
      exact hgame
    · cases hnotified
  · cases hnotified

/-! ### Whole runs -/

/-- The step is not a call, or it is one that returns a result. -/
def Returns (ext : Externals) (api : Api) (op : Op) : Prop :=
  ∀ call outcome next, op = .call call → api.call ext call = some (outcome, next) →
    outcome.Returns

def SafeStep (ext : Externals) (api : Api) (op : Op) : Prop :=
  ∀ call, op = .call call → api.Safe ext call

theorem returns_iff_safeStep (h : api.manager.Slots) (hlock : api.LockFree)
    (hcompresses : ext.Compresses) (hstep : api.step ext op = some next) :
    api.Returns ext op ↔ api.SafeStep ext op := by
  constructor
  · rintro hreturns call rfl
    obtain ⟨⟨outcome, after⟩, hcall, rfl⟩ := Option.map_eq_some_iff.mp hstep
    exact (call_returns_iff h hlock hcompresses hcall).mp (hreturns call outcome after rfl hcall)
  · rintro hsafe call outcome after rfl hcall
    exact (call_returns_iff h hlock hcompresses hcall).mpr (hsafe call rfl)

/-- **Every call returns exactly along the runs whose calls are safe.** From the start of a process,
for every sequence of calls, of writes of the caller and of what happens in the background. -/
theorem calls_return_iff (hcompresses : ext.Compresses) (ops : List Op)
    (hlisted : ∀ op ∈ ops, op.Listed) :
    (system ext).AlongSteps (Returns ext) (start []) ops
      ↔ (system ext).AlongSteps (SafeStep ext) (start []) ops := by
  refine @System.alongSteps_congr _ _ (system ext) (Returns ext) (SafeStep ext)
    (fun api => api.manager.Slots ∧ api.LockFree) ops ?_ ?_ (start [])
    ⟨Manager.slots_empty _ _, fun _ => rfl⟩
  · exact fun api op next hop h hstep => ⟨slots_step h.1 (hlisted op hop) hstep, h.2.step hstep⟩
  · exact fun api op next h hstep => returns_iff_safeStep h.1 h.2 hcompresses hstep

/-! ### Orders of calls -/

def localDevice : TapsdkDevice := ⟨0, some [100], none⟩

/-- Every module, over an empty directory. -/
def initCall : Call :=
  .init (some ⟨true, true, 0, none, 0, some localDevice⟩)
    ⟨fun _ => none, [], ⟨fun _ => InitEnv.ideal, fun _ => 0⟩⟩

def someGame : TapsdkGame := ⟨some [103], some [112], none⟩

def gameThenWindow : List Op :=
  [.call initCall, .call (.gameSet (some someGame)), .call .windowOnForeground]

theorem initCall_listed : (Op.call initCall).Listed :=
  ⟨List.nodup_nil, fun _ hname => by cases hname⟩

theorem calls_return_gameThenWindow :
    (system wireFormat).AlongSteps (Returns wireFormat) (start []) gameThenWindow := by
  refine (calls_return_iff wireFormat_compresses gameThenWindow ?_).mpr ?_
  · intro op hop
    simp only [gameThenWindow, List.mem_cons, List.not_mem_nil, or_false] at hop
    rcases hop with rfl | rfl | rfl
    · exact initCall_listed
    · trivial
    · trivial
  · intro first hfirst
    obtain rfl := Option.some.inj hfirst
    refine ⟨by rintro _ ⟨⟩; trivial, fun second hsecond => ?_⟩
    obtain rfl := Option.some.inj hsecond
    refine ⟨by rintro _ ⟨⟩; trivial, fun third hthird => ⟨?_, trivial⟩⟩
    rintro _ ⟨⟩ _
    decide +kernel

/-- A push that cannot be committed. -/
def refusing : FlushEnv :=
  { FlushEnv.ideal with push := fun _ => { PushEnv.ideal with commit := false } }

/-- A message is created, and no cache takes it. -/
def refusedMessage : List Op :=
  [.call initCall, .call (.trackerCreate (some 0) true ⟨5, [1]⟩),
    .call (.trackerFlush (some 0) refusing)]

def outcomeAfter (ops : List Op) (call : Call) : Option Outcome :=
  (ops.foldlM (step wireFormat) (start [])).bind fun api : Api =>
    (api.call wireFormat call).map (·.1)

/-- A configuration whose endpoint has a space in it. -/
def spacedConfig : TapsdkTrackerConfig :=
  ⟨some (ascii "t"), some (ascii "a b"), some [], some [], some (ascii "p"), some (ascii "l"), 0⟩

/-- The timer starts an upload to that endpoint, and another message is created. -/
def spacedUpload : List Op :=
  [.call initCall, .edit 0 spacedConfig, .call (.trackerCreate (some 0) true ⟨5, [1]⟩),
    .call (.trackerFlush (some 0) FlushEnv.ideal),
    .check [(createConfig spacedConfig).hash] fun _ => 9,
    .call (.trackerCreate (some 0) true ⟨5, [1]⟩)]

/-- **A window event before the first game, and a parameter after a refused flush, throw** across
the interface; and a flush after an upload whose address is not accepted does not return. -/
theorem call_throws :
    outcomeAfter [.call initCall] .windowOnForeground = some .thrown
      ∧ outcomeAfter refusedMessage (.trackerMsgAddParam (some 0) (some [107]) (some [118]))
        = some .thrown
      ∧ outcomeAfter spacedUpload (.trackerFlush (some 1) FlushEnv.ideal) = some .lost
      ∧ ¬ (system wireFormat).AlongSteps (Returns wireFormat) (start [])
        [.call initCall, .call .windowOnForeground] := by
  refine ⟨by decide +kernel, by decide +kernel, by decide +kernel, fun hreturns => ?_⟩
  obtain ⟨_, hsecond⟩ := hreturns _ rfl
  obtain ⟨hthrown, _⟩ := hsecond _ rfl
  obtain ⟨result, heq⟩ := hthrown .windowOnForeground _ _ rfl rfl
  have hnot : ((start []).init wireFormat (some ⟨true, true, 0, none, 0, some localDevice⟩)
      ⟨fun _ => none, [], ⟨fun _ => InitEnv.ideal, fun _ => 0⟩⟩).2.onWindow = .thrown := by
    decide +kernel
  cases hnot.symm.trans heq

end Api

end TapSdk.Sdk
