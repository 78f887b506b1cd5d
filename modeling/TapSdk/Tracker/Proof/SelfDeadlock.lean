import TapSdk.Tracker.Proof.FlushLoop

/-!
# Uploads that end before they suspend

The call that starts an upload holds `tracker_lock`, and the completion callback takes it again. The
two meet on one thread when the coroutine ends without having posted anything: when none of the
records that `record_count` counts can be decoded, or when LZ4 cannot compress what they make.
-/

namespace TapSdk.Tracker

open Library

variable {ext : Externals}

namespace OpenCache

/-- An upload of the cache gets as far as its request. -/
structure Sendable (ext : Externals) (cache : OpenCache) (config : TrackerConfig)
    (clock : Nat → UInt32) : Prop where
  decodes : cache.load ext clock ≠ []
  compresses : (cache.serializeToUpload ext config clock).length ≤ lz4MaxInputSize

end OpenCache

theorem TrackerCache.request_isNone_iff (hcompresses : ext.Compresses) (cache : TrackerCache)
    (disk : FileData) (clock : Nat → UInt32) :
    (cache.request ext disk clock).isNone = false
      ↔ (cache.opened disk).Sendable ext cache.config clock := by
  have hiff : (cache.opened disk).Sendable ext cache.config clock
      ↔ (cache.opened disk).load ext clock ≠ []
        ∧ ((cache.opened disk).serializeToUpload ext cache.config clock).length ≤ lz4MaxInputSize :=
    ⟨fun h => ⟨h.decodes, h.compresses⟩, fun h => ⟨h.1, h.2⟩⟩
  rw [hiff, TrackerCache.request, OpenCache.serializeToUpload, OpenCache.logGroup]
  cases hload : (cache.opened disk).load ext clock with
  | nil => simp
  | cons first rest =>
      let group : LogGroup := ⟨(first :: rest).map (·.toLog), cache.config.strings.topic⟩
      have hgroup : ext.group group ≠ [] := hcompresses.group_ne_nil group (by simp [group])
      have hlz4 := hcompresses.lz4_ne_nil_iff (ext.group group) hgroup
      simp only [ne_eq, reduceCtorEq, not_false_eq_true, true_and]
      rw [← hlz4]
      by_cases hempty : ext.lz4Compress (ext.group group) = []
      · simp [group] at hgroup hempty ⊢
        simp [hgroup, hempty]
      · simp [group] at hgroup hempty ⊢
        simp [hgroup, hempty]

namespace Manager

variable {manager : Manager} {hash : UInt64} {index : Nat} {cache : TrackerCache}
  {message : TrackMessageImpl} {env : FlushEnv}

def Full (manager : Manager) (entry : Nat × TrackerCache) : Prop :=
  manager.getCount entry.2 ≥ manager.trackerGroupSize.toNat

def pushedTo (ext : Externals) (manager : Manager) (message : TrackMessageImpl) (env : FlushEnv)
    (entry : Nat × TrackerCache) : OpenCache :=
  ((entry.2.opened (manager.disk entry.2)).push ext (env.push entry.1) message).2

/-- Up to the cache that takes the message, the first full one is `good`, and if there is none and
the message brings the count to 32, the cache that takes it is `good` then. -/
def FlushUploads (ext : Externals) (good : OpenCache → TrackerConfig → (Nat → UInt32) → Prop)
    (manager : Manager) (message : TrackMessageImpl) (env : FlushEnv)
    (entries : List (Nat × TrackerCache)) : Prop :=
  Scan (fun entry => ¬ manager.Full entry ∧ ¬ manager.Accepts ext message env entry)
    (fun entry => if manager.getCount entry.2 ≥ manager.trackerGroupSize.toNat then
        good (entry.2.opened (manager.disk entry.2)) entry.2.config env.clock
      else manager.Accepts ext message env entry →
        (manager.pushedTo ext message env entry).getCount.toNat ≥ uploadTrackerCount →
        good (manager.pushedTo ext message env entry) entry.2.config env.clock) entries

/-- The caches whose uploads the step starts are `good`. -/
def Uploads (ext : Externals) (good : OpenCache → TrackerConfig → (Nat → UInt32) → Prop)
    (manager : Manager) : ManagerOp → Prop
  | .flush message env => manager.uploading = false →
      ∀ config, message.config = some config →
        manager.FlushUploads ext good message env (manager.trackersCache config.hash).entries
  | .check order clock => manager.uploading = false →
      ∀ hash index cache, manager.chooseUpload (manager.walk order) none = some (hash, index) →
        hash ≠ 0 → manager.registered hash index = some cache →
        good (cache.opened (manager.disk cache)) cache.config clock
  | .complete .. | .restart .. => True

/-- The uploads that the step starts get as far as their request. -/
def UploadsSend (ext : Externals) (manager : Manager) (op : ManagerOp) : Prop :=
  manager.Uploads ext (OpenCache.Sendable ext) op

/-- A flag that only the start of an upload raises, and only if the cache is not `good`. -/
structure RaisedBy (ext : Externals) (good : OpenCache → TrackerConfig → (Nat → UInt32) → Prop)
    (flag : Manager → Bool) : Prop where
  upload : ∀ (manager : Manager) (hash : UInt64) (index : Nat) (clock : Nat → UInt32),
    flag (manager.uploadTrackerCacheAsync ext hash index clock) = false
      ↔ flag manager = false ∧ (manager.uploading = false →
        ∀ cache, manager.registered hash index = some cache →
          good (cache.opened (manager.disk cache)) cache.config clock)
  frame : ∀ before after : Manager, after.inFlight = before.inFlight →
    after.selfDeadlock = before.selfDeadlock → flag after = flag before

/-! ### One step -/

theorem raisedBy_selfDeadlock (hcompresses : ext.Compresses) :
    RaisedBy ext (OpenCache.Sendable ext) Manager.selfDeadlock := by
  refine ⟨fun manager hash index clock => ?_, fun _ _ _ hsame => hsame⟩
  cases huploading : manager.uploading with
  | true => simp [uploadTrackerCacheAsync, huploading]
  | false =>
      cases hcache : manager.registered hash index with
      | none =>
          have hfind : (manager.trackersCache hash).find index = none := hcache
          simp [uploadTrackerCacheAsync, huploading, hfind]
      | some cache =>
          rw [uploadTrackerCacheAsync_of_registered huploading hcache, Bool.or_eq_false_iff,
            TrackerCache.request_isNone_iff hcompresses]
          simp

theorem pushInto_frame (manager : Manager) (hash : UInt64) (index : Nat) (cache : TrackerCache)
    (push : PushEnv) (message : TrackMessageImpl) :
    (manager.pushInto ext hash index cache push message).2.inFlight = manager.inFlight
      ∧ (manager.pushInto ext hash index cache push message).2.selfDeadlock
        = manager.selfDeadlock := by
  simp only [pushInto, putBack]
  repeat' split
  all_goals exact ⟨rfl, rfl⟩

theorem pushInto_opened (hcache : manager.registered hash index = some cache) :
    ∃ changed, (manager.pushInto ext hash index cache (env.push index) message).2.registered hash
        index = some changed
      ∧ changed.config = cache.config
      ∧ changed.opened ((manager.pushInto ext hash index cache (env.push index) message).2.disk
          changed) = manager.pushedTo ext message env (index, cache) := by
  refine ⟨_, pushInto_self hcache (env.push index) message, rfl, ?_⟩
  let pushed := manager.pushedTo ext message env (index, cache)
  let changed : TrackerCache := { cache with diskCache := pushed.object }
  have hpath : pushed.object.path = cache.diskCache.path := OpenCache.push_path _ _ _
  have hfile : (manager.setFile cache.diskCache.path (some pushed.disk)).files pushed.object.path
      = some pushed.disk := by
    rw [hpath]
    exact setFile_files_self
  have hdisk : ((manager.setFile cache.diskCache.path (some pushed.disk)).setCaches hash
      ((manager.trackersCache hash).modify index changed)).disk changed = pushed.disk := by
    rw [Manager.disk, setCaches_files, hfile, Option.getD_some]
  rw [pushInto_eq hcache]
  exact congrArg (OpenCache.mk pushed.object) hdisk

theorem pushInto_flushUploads {good : OpenCache → TrackerConfig → (Nat → UInt32) → Prop}
    (hcache : manager.registered hash index = some cache) {rest : List (Nat × TrackerCache)}
    (hpaths : ∀ other ∈ rest, other.2.diskCache.path ≠ cache.diskCache.path) (push : PushEnv) :
    (manager.pushInto ext hash index cache push message).2.FlushUploads ext good message env rest
      ↔ manager.FlushUploads ext good message env rest := by
  have hsize := @pushInto_trackerGroupSize ext hash message manager index cache hcache push
  apply scan_congr
  · intro other hother
    have hdisk := @pushInto_disk_of_ne ext hash message manager index cache hcache other.2
      (hpaths other hother) push
    rw [Full, Full, Accepts, Accepts, getCount, getCount, hdisk, hsize]
  · intro other hother
    have hdisk := @pushInto_disk_of_ne ext hash message manager index cache hcache other.2
      (hpaths other hother) push
    rw [Accepts, Accepts, getCount, getCount, pushedTo, pushedTo, hdisk, hsize]

theorem uploading_upload (hcache : manager.registered hash index = some cache)
    (clock : Nat → UInt32) :
    (manager.uploadTrackerCacheAsync ext hash index clock).uploading = true := by
  cases huploading : manager.uploading with
  | true => simp only [uploadTrackerCacheAsync, huploading, if_true]
  | false => rw [uploadTrackerCacheAsync_of_registered huploading hcache]

/-! ### One call -/

namespace RaisedBy

variable {good : OpenCache → TrackerConfig → (Nat → UInt32) → Prop} {flag : Manager → Bool}

theorem upload_of_true (h : RaisedBy ext good flag) (hflag : flag manager = true) (hash : UInt64)
    (index : Nat) (clock : Nat → UInt32) :
    flag (manager.uploadTrackerCacheAsync ext hash index clock) = true := by
  by_contra hlow
  rw [Bool.not_eq_true, h.upload, hflag] at hlow
  cases hlow.1

theorem pushInto (h : RaisedBy ext good flag) (manager : Manager) (hash : UInt64) (index : Nat)
    (cache : TrackerCache) (push : PushEnv) (message : TrackMessageImpl) :
    flag (manager.pushInto ext hash index cache push message).2 = flag manager :=
  have hframe := manager.pushInto_frame hash index cache push message
  h.frame _ _ hframe.1 hframe.2

/-- The upload that a push starts when it brings the count to 32. -/
theorem pushed_iff (h : RaisedBy ext good flag)
    (hcache : manager.registered hash index = some cache) (hlow : flag manager = false) :
    let next := (manager.pushInto ext hash index cache (env.push index) message).2
    flag (if (((next.trackersCache hash).find index).map next.getCount).getD 0 ≥ uploadTrackerCount
      then (⟨some index, next.uploadTrackerCacheAsync ext hash index env.clock, []⟩ : FlushWalk)
      else ⟨some index, next, []⟩).manager = false
      ↔ (manager.uploading = false →
        (manager.pushedTo ext message env (index, cache)).getCount.toNat ≥ uploadTrackerCount →
        good (manager.pushedTo ext message env (index, cache)) cache.config env.clock) := by
  intro next
  obtain ⟨changed, hchanged, hconfig, hopened⟩ :=
    @pushInto_opened ext manager hash index cache message env hcache
  have hlow' : flag next = false := (h.pushInto ..).trans hlow
  have huploading : next.uploading = manager.uploading := pushInto_uploading hcache (env.push index)
  have hfind : (next.trackersCache hash).find index = some changed := hchanged
  have hcount : next.getCount changed
      = (manager.pushedTo ext message env (index, cache)).getCount.toNat := by
    rw [Manager.getCount, TrackerCache.getCount, hopened]
  simp only [hfind, Option.map_some, Option.getD_some, hcount]
  by_cases hmany : (manager.pushedTo ext message env (index, cache)).getCount.toNat
      ≥ uploadTrackerCount
  · simp only [hmany, if_true, true_imp_iff]
    rw [h.upload]
    have hchanged' : next.registered hash index = some changed := hchanged
    have hopened' : changed.opened (next.disk changed)
        = manager.pushedTo ext message env (index, cache) := hopened
    simp only [hlow', huploading, hchanged', Option.some.injEq, forall_eq', true_and, hopened',
      hconfig]
  · simp only [hmany, if_false, false_imp_iff, hlow', implies_true]

theorem flushLoop_of_true (h : RaisedBy ext good flag) {entries : List (Nat × TrackerCache)}
    (hahead : manager.Ahead hash entries) (hflag : flag manager = true) :
    flag (flushLoop ext hash message env entries manager).manager = true := by
  have hpushed : ∀ (manager : Manager) (index : Nat) (cache : TrackerCache) (ok : Bool)
      (next : Manager), flag manager = true →
      manager.pushInto ext hash index cache (env.push index) message = (ok, next) →
      flag next = true := by
    intro manager index cache ok next hflag hpush
    have hsame := h.pushInto manager hash index cache (env.push index) message
    rw [hpush] at hsame
    exact hsame.trans hflag
  have hsettled : Settles (fun manager => flag manager = true)
      (fun _ manager => flag manager = true)
      (flushLoop ext hash message env entries manager).pushed
      (flushLoop ext hash message env entries manager).manager := by
    apply flushLoop_rule
    · exact fun manager index hflag => h.upload_of_true hflag hash index env.clock
    · exact fun manager index cache next hflag _ hpush =>
        hpushed manager index cache false next hflag hpush
    · intro manager index cache next hflag _ hpush
      have hnext := hpushed manager index cache true next hflag hpush
      exact ⟨hnext, h.upload_of_true hnext hash index env.clock⟩
    · exact hflag
    · exact hahead
  revert hsettled
  cases (flushLoop ext hash message env entries manager).pushed <;> exact id

theorem flushLoop_iff (h : RaisedBy ext good flag) {entries : List (Nat × TrackerCache)}
    (hahead : manager.Ahead hash entries)
    (hpaths : entries.Pairwise fun left right => right.2.diskCache.path ≠ left.2.diskCache.path)
    (hlow : flag manager = false) :
    flag (flushLoop ext hash message env entries manager).manager = false
      ↔ (manager.uploading = false → manager.FlushUploads ext good message env entries) := by
  induction entries generalizing manager with
  | nil => exact iff_of_true hlow fun _ => scan_nil
  | cons entry rest ih =>
      obtain ⟨index, cache⟩ := entry
      obtain ⟨hpath, hpaths⟩ := List.pairwise_cons.mp hpaths
      rw [FlushUploads, scan_cons]
      by_cases hfull : manager.getCount cache ≥ manager.trackerGroupSize.toNat
      · have hstop : ¬ (¬ manager.Full (index, cache)
            ∧ ¬ manager.Accepts ext message env (index, cache)) := fun hskip => hskip.1 hfull
        simp only [flushLoop, hfull, if_true, hstop, false_imp_iff, and_true]
        have hupload := h.upload manager hash index env.clock
        have hrest := @Ahead.upload ext _ _ _ _ _ hahead env.clock
        simp only [hahead.head, Option.some.injEq, forall_eq', hlow, true_and] at hupload
        rw [← hupload]
        constructor
        · intro hlast
          by_contra hflag
          rw [Bool.not_eq_false] at hflag
          rw [h.flushLoop_of_true hrest hflag] at hlast
          cases hlast
        · intro hnext
          refine (ih hrest hpaths hnext).mpr ?_
          -- once an upload runs, the rest of the loop starts none
          intro hidle
          rw [uploading_upload hahead.head] at hidle
          cases hidle
      · simp only [flushLoop, hfull, if_false]
        have hnotFull : ¬ manager.Full (index, cache) := hfull
        have hlow' := h.pushInto manager hash index cache (env.push index) message
        have huploading := @pushInto_uploading ext _ message _ _ _ hahead.head (env.push index)
        have hrest := @Ahead.pushInto ext _ _ _ _ _ hahead (env.push index) message
        have hothers := @pushInto_flushUploads ext manager hash index cache message env good
          hahead.head rest hpath (env.push index)
        have hpushed := @pushed_iff ext manager hash index cache message env good flag h
          hahead.head hlow
        rw [accepts_iff hahead.head]
        rw [hlow] at hlow'
        cases hpush : manager.pushInto ext hash index cache (env.push index) message with
        | mk pushed next =>
            simp only [hpush] at hlow' huploading hrest hothers hpushed
            cases pushed with
            | true =>
                simp only [not_true_eq_false, and_false, false_imp_iff, and_true, true_imp_iff]
                exact hpushed
            | false =>
                simp only [Bool.false_eq_true, not_false_eq_true, hnotFull, true_and,
                  false_imp_iff, true_imp_iff]
                rw [ih hrest hpaths hlow', huploading, hothers]
                exact Iff.rfl

theorem createLoop (h : RaisedBy ext good flag) {config : TrackerConfig} (manager : Manager) :
    flag (createLoop ext hash config message env (List.range maxCacheCount) manager).2
      = flag manager := by
  have hcreated : ∀ (start next : Manager) (index : Nat) (created : Option TrackerCache),
      start.createCache ext hash index config env = (created, next) → flag next = flag start := by
    intro start next index created hcreate
    obtain ⟨_, disk, _, rfl⟩ | ⟨cache, left, _, _, rfl⟩ := createCache_cases hcreate
    · exact h.frame _ _ rfl rfl
    · exact h.frame _ _ rfl rfl
  have hsettled : Settles (fun last => flag last = flag manager)
      (fun _ last => flag last = flag manager)
      (Tracker.createLoop ext hash config message env (List.range maxCacheCount) manager).1
      (Tracker.createLoop ext hash config message env (List.range maxCacheCount) manager).2 := by
    apply createLoop_rule
    · intro start index next hstart _ _ hcreate
      exact (hcreated start next index none hcreate).trans hstart
    · intro start index cache next pushed last hstart _ _ hcreate hpush
      have hnext := (hcreated start next index (some cache) hcreate).trans hstart
      have hlast := h.pushInto next hash index cache (env.push index) message
      rw [hpush] at hlast
      split <;> exact hlast.trans hnext
    · exact fun index hindex => List.mem_range.mp hindex
    · rfl
  revert hsettled
  cases (Tracker.createLoop ext hash config message env (List.range maxCacheCount) manager).1 <;>
    exact id

theorem flush_iff (h : RaisedBy ext good flag) (hslots : manager.Slots)
    (hlow : flag manager = false) (message : TrackMessageImpl) (env : FlushEnv) :
    flag (manager.flushTracker ext message env).2 = false
      ↔ manager.Uploads ext good (.flush message env) := by
  cases hconfig : message.config with
  | none =>
      simp only [flushTracker, Uploads, hconfig, hlow, reduceCtorEq, false_imp_iff, implies_true]
  | some config =>
      have hloop := @flushLoop_iff ext manager config.hash message env good flag h _
        (manager.ahead_entries config.hash) (hslots.paths_pairwise config.hash) hlow
      have hlast : flag (manager.flushTracker ext message env).2
          = flag (flushLoop ext config.hash message env
            (manager.trackersCache config.hash).entries manager).manager := by
        simp only [flushTracker, hconfig]
        split
        · rfl
        · exact h.createLoop _
      rw [hlast, hloop]
      simp only [Uploads, hconfig, Option.some.injEq, forall_eq']

theorem check_iff (h : RaisedBy ext good flag) (hlow : flag manager = false) (order : List UInt64)
    (clock : Nat → UInt32) :
    flag (manager.checkAndUploadTrackers ext order clock) = false
      ↔ manager.Uploads ext good (.check order clock) := by
  cases huploading : manager.uploading with
  | true => simp [checkAndUploadTrackers, Uploads, huploading, hlow]
  | false =>
      cases hchosen : manager.chooseUpload (manager.walk order) none with
      | none => simp [checkAndUploadTrackers, Uploads, huploading, hchosen, hlow]
      | some chosen =>
          obtain ⟨hash, index⟩ := chosen
          have hsends : manager.Uploads ext good (.check order clock)
              ↔ (hash ≠ 0 → ∀ cache, manager.registered hash index = some cache →
                good (cache.opened (manager.disk cache)) cache.config clock) := by
            simp only [Uploads, huploading, hchosen, Option.some.injEq, Prod.mk.injEq]
            constructor
            · exact fun h hne cache hcache => h trivial hash index cache ⟨rfl, rfl⟩ hne hcache
            · rintro h _ _ _ cache ⟨rfl, rfl⟩ hne hcache
              exact h hne cache hcache
          rw [hsends]
          simp only [checkAndUploadTrackers, huploading, hchosen, Bool.false_eq_true, if_false]
          by_cases hzero : hash = 0
          · simp only [hzero, ne_eq, not_true_eq_false, if_false, hlow, false_imp_iff]
          · simp only [ne_eq, hzero, not_false_eq_true, if_true, true_imp_iff]
            rw [h.upload]
            simp only [hlow, huploading, true_and, true_imp_iff]

end RaisedBy

variable {next : Manager}

/-- An upload that completes leaves the others in flight. -/
theorem complete_frame {position : Nat} {success : Bool} {completion : CompletionEnv}
    (hcomplete : manager.complete ext position success completion = some next) :
    next.selfDeadlock = manager.selfDeadlock
      ∧ next.inFlight = manager.inFlight.eraseIdx position := by
  unfold complete at hcomplete
  dsimp only at hcomplete
  repeat' split at hcomplete
  all_goals cases hcomplete
  · exact ⟨rfl, rfl⟩
  · unfold destroy
    split <;> exact ⟨rfl, rfl⟩
  · exact ⟨rfl, rfl⟩

theorem syncLoadTrackersCache_frame (names : List Str) (load : LoadEnv)
    (start : Manager) :
    (start.syncLoadTrackersCache ext names load).selfDeadlock = start.selfDeadlock
      ∧ (start.syncLoadTrackersCache ext names load).inFlight = start.inFlight := by
  have hentry : ∀ (start : Manager) (name : Str),
      (start.loadEntry ext load name).selfDeadlock = start.selfDeadlock
        ∧ (start.loadEntry ext load name).inFlight = start.inFlight := by
    intro start name
    unfold loadEntry
    dsimp only
    repeat' split
    all_goals exact ⟨rfl, rfl⟩
  induction names generalizing start with
  | nil => exact ⟨rfl, rfl⟩
  | cons name rest ih =>
      have hrest := ih (start.loadEntry ext load name)
      have hfirst := hentry start name
      exact ⟨hrest.1.trans hfirst.1, hrest.2.trans hfirst.2⟩

theorem restart_selfDeadlock (manager : Manager) (files : Str → Option FileData)
    (names : List Str) (load : LoadEnv) :
    (manager.restart ext files names load).selfDeadlock = false :=
  (syncLoadTrackersCache_frame names load _).1

/-- **One step**: it runs into itself exactly when an upload it starts has nothing to send. -/
theorem Slots.step_selfDeadlock_iff (h : manager.Slots) (hcompresses : ext.Compresses)
    (hclean : manager.selfDeadlock = false) {op : ManagerOp}
    (hstep : manager.step ext op = some next) :
    next.selfDeadlock = false ↔ manager.UploadsSend ext op := by
  cases op with
  | flush message env =>
      obtain rfl := Option.some.inj hstep
      exact (raisedBy_selfDeadlock hcompresses).flush_iff h hclean message env
  | check order clock =>
      obtain rfl := Option.some.inj hstep
      exact (raisedBy_selfDeadlock hcompresses).check_iff hclean order clock
  | complete position success env =>
      exact iff_of_true ((complete_frame hstep).1.trans hclean) trivial
  | restart files names env =>
      obtain rfl := Option.some.inj hstep
      exact iff_of_true (manager.restart_selfDeadlock files names env) trivial

/-- A step whose uploads have something to send. -/
def Undisturbed (ext : Externals) (manager : Manager) (op : ManagerOp) : Prop :=
  Restartable manager op ∧ manager.UploadsSend ext op

/-- **No call runs into its own lock** along a run whose uploads have something to send; and from
every state of such a run, the next step runs into it exactly when an upload it starts has not. -/
theorem selfDeadlock_iff_nothing_to_send (hcompresses : ext.Compresses)
    (hreach : (system ext).Reaches (Undisturbed ext) manager) :
    manager.selfDeadlock = false
      ∧ ∀ op next, manager.step ext op = some next →
        (next.selfDeadlock = false ↔ manager.UploadsSend ext op) := by
  have hslots : manager.Slots := slots_of_reaches (hreach.mono fun _ _ hallowed => hallowed.1)
  have hclean : manager.selfDeadlock = false := by
    refine (hreach.invariant (fun state => state.Slots ∧ state.selfDeadlock = false) ?_ ?_).2
    · rintro state ⟨files, names, env, trackerGroupSize, hnames, rfl⟩
      refine ⟨(slots_empty files trackerGroupSize).syncLoad hnames (fun _ _ _ _ => rfl) env, ?_⟩
      exact (Manager.empty files trackerGroupSize).restart_selfDeadlock files names env
    · rintro state op next ⟨hslots, hclean⟩ ⟨hrestartable, hsends⟩ hstep
      exact ⟨hslots.step hrestartable hstep,
        (hslots.step_selfDeadlock_iff hcompresses hclean hstep).mpr hsends⟩
  exact ⟨hclean, fun op next hstep => hslots.step_selfDeadlock_iff hcompresses hclean hstep⟩

theorem selfDeadlock_iff_nothing_to_send_flushed :
    ∃ manager next, (system wireFormat).Reaches (Undisturbed wireFormat) manager
      ∧ manager.step wireFormat (.check [plainConfig.hash] fun _ => 9) = some next
      ∧ next.uploading = true ∧ next.selfDeadlock = false
      ∧ manager.UploadsSend wireFormat (.check [plainConfig.hash] fun _ => 9) := by
  let start := Manager.empty (fun _ => none) 2000
  let op : ManagerOp := .flush (plainMessage [118]) FlushEnv.ideal
  let flushed := (start.flushTracker wireFormat (plainMessage [118]) FlushEnv.ideal).2
  let next := flushed.checkAndUploadTrackers wireFormat [plainConfig.hash] fun _ => 9
  have hstart : (system wireFormat).Reaches (Undisturbed wireFormat) start :=
    .init ⟨fun _ => none, [], ⟨fun _ => InitEnv.ideal, fun _ => 0⟩, 2000,
      ⟨List.nodup_nil, fun _ hname => by cases hname⟩, rfl⟩
  have hallowed : Undisturbed wireFormat start op := ⟨trivial, fun _ _ _ => scan_nil⟩
  have hreach : (system wireFormat).Reaches (Undisturbed wireFormat) flushed :=
    .step hstart hallowed rfl
  have hnext : next.uploading = true ∧ next.selfDeadlock = false := by decide +kernel
  have hiff := (selfDeadlock_iff_nothing_to_send wireFormat_compresses hreach).2
    (.check [plainConfig.hash] fun _ => 9) next rfl
  exact ⟨flushed, next, hreach, rfl, hnext.1, hnext.2, hiff.mp hnext.2⟩

/-- The file of a process that was killed inside `Push`, after it had counted the first record and
before it had added to the size of the records. -/
def killedInPush : FileData :=
  let cache := (OpenCache.openAt wireFormat plainConfig.hash (cacheName plainConfig.hash 0)
    (some plainConfig) none InitEnv.ideal).2
  (cache.storeAll ((cache.pushStores wireFormat (plainMessage [118])).take 3)).disk

def startedAfterKill : Manager :=
  (Manager.empty
    (fun name => if name = cacheName plainConfig.hash 0 then some killedInPush else none)
    2000).syncLoadTrackersCache wireFormat [cacheName plainConfig.hash 0]
      ⟨fun _ => InitEnv.ideal, fun _ => 0⟩

/-- **The first timer tick after such a start deadlocks.** -/
theorem selfDeadlock_after_kill :
    (system wireFormat).Reaches Restartable startedAfterKill
      ∧ (startedAfterKill.step wireFormat (.check [plainConfig.hash] fun _ => 9)).map
        (·.selfDeadlock) = some true := by
  refine ⟨.init ⟨_, _, _, _, ⟨by simp, ?_⟩, rfl⟩, by decide +kernel⟩
  intro name hname
  exact ⟨plainConfig.hash, 0, by decide, List.mem_singleton.mp hname⟩

end Manager

end TapSdk.Tracker
