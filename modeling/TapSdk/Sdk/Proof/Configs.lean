import TapSdk.Sdk.Proof.Returns

/-!
# The configuration a message is sent with

A message goes to a cache under the hash of its configuration, and a cache keeps its configuration
for good; one that is loaded from a file has been checked against the hash in the name. What can go
wrong is earlier: `tapsdk_tracker_create` takes the configuration from a table, by the hash that an
earlier call has left in the struct, and does not look at the strings again.
-/

namespace TapSdk.Tracker

open Library

variable {ext : Externals}

namespace Manager

variable {manager next : Manager} {hash : UInt64} {index : Nat} {cache : TrackerCache}
  {holds : UInt64 → TrackerConfig → Prop}

/-- What holds of every slot and the configuration of its cache, registered or in an upload. -/
structure Routed (holds : UInt64 → TrackerConfig → Prop) (manager : Manager) : Prop where
  registered : ∀ hash index cache, manager.registered hash index = some cache →
    holds hash cache.config
  inFlight : ∀ upload ∈ manager.inFlight, holds upload.hash upload.cache.config

theorem Routed.live (h : manager.Routed holds) (hcache : cache ∈ manager.live hash index) :
    holds hash cache.config := by
  rcases List.mem_append.mp hcache with hregistered | huploading
  · exact h.registered hash index cache (Option.mem_toList.mp hregistered)
  · obtain ⟨upload, hupload, rfl⟩ := List.mem_map.mp huploading
    obtain ⟨hmem, hslot⟩ := List.mem_filter.mp hupload
    obtain ⟨rfl, _⟩ := of_decide_eq_true hslot
    exact h.inFlight upload hmem

theorem routed_empty (files : Str → Option FileData) (trackerGroupSize : UInt32) :
    (Manager.empty files trackerGroupSize).Routed holds := by
  refine ⟨fun hash index cache hcache => ?_, fun upload hupload => ?_⟩
  · cases hcache
  · cases hupload

/-! ### The operations -/

theorem registered_of_emplace {other : UInt64} {position : Nat} {found : TrackerCache}
    (h : (manager.emplace hash index cache).registered other position = some found) :
    (other = hash ∧ found = cache) ∨ manager.registered other position = some found := by
  by_cases hhash : other = hash
  · subst hhash
    simp only [Manager.registered, emplace, setCaches_self] at h
    rcases OrderedMap.mem_insertEntry (OrderedMap.mem_of_find h) with hnew | hold
    · exact Or.inl ⟨rfl, (Prod.mk.inj hnew).2⟩
    · exact Or.inr (OrderedMap.find_of_mem hold)
  · rw [registered_emplace_of_ne fun hsame => hhash hsame.1] at h
    exact Or.inr h

theorem Routed.emplace (h : manager.Routed holds) (index : Nat)
    (hcache : holds hash cache.config) :
    (manager.emplace hash index cache).Routed holds := by
  refine ⟨fun other position found hfound => ?_, h.inFlight⟩
  rcases registered_of_emplace hfound with ⟨rfl, rfl⟩ | hold
  · exact hcache
  · exact h.registered other position found hold

theorem Routed.upload (h : manager.Routed holds) (hash : UInt64) (index : Nat)
    (clock : Nat → UInt32) :
    (manager.uploadTrackerCacheAsync ext hash index clock).Routed holds := by
  obtain heq | ⟨cache, _, hcache, heq⟩ := uploadTrackerCacheAsync_cases ext manager hash index clock
  · rw [heq]
    exact h
  · refine ⟨fun other position found hfound => ?_, fun upload hupload => ?_⟩
    · by_cases hsame : other = hash ∧ position = index
      · obtain ⟨rfl, rfl⟩ := hsame
        have hnone : (manager.uploadTrackerCacheAsync ext other position clock).registered other
            position = none := by
          rw [heq]
          exact registered_erase_self
        rw [hnone] at hfound
        cases hfound
      · rw [uploadTrackerCacheAsync_of_ne hsame] at hfound
        exact h.registered other position found hfound
    · rw [heq] at hupload
      rcases List.mem_append.mp hupload with hold | hnew
      · exact h.inFlight upload hold
      · rw [List.mem_singleton.mp hnew]
        exact h.registered hash index cache hcache

/-- A push puts its cache back under the entry, or leaves the map alone. -/
theorem pushInto_cases (manager : Manager) (hash : UInt64) (index : Nat) (cache : TrackerCache)
    (env : PushEnv) (message : TrackMessageImpl) :
    ∃ disk, (manager.pushInto ext hash index cache env message).2
        = manager.setFile cache.diskCache.path (some disk)
      ∨ ∃ old changed, manager.registered hash index = some old ∧ changed.config = cache.config
        ∧ (manager.pushInto ext hash index cache env message).2
          = (manager.setFile cache.diskCache.path (some disk)).setCaches hash
            ((manager.trackersCache hash).modify index changed) := by
  simp only [pushInto, putBack, setFile_trackersCache]
  refine ⟨(cache.push ext (manager.disk cache) env message).2.2, ?_⟩
  split
  · rename_i old hold
    split
    · exact Or.inr ⟨old, (cache.push ext (manager.disk cache) env message).2.1, hold, rfl, rfl⟩
    · exact Or.inl rfl
  · exact Or.inl rfl

theorem Routed.modify (h : manager.Routed holds) {old : TrackerCache}
    (hold : manager.registered hash index = some old) (hcache : holds hash cache.config) :
    (manager.setCaches hash ((manager.trackersCache hash).modify index cache)).Routed holds := by
  refine ⟨fun other position found hfound => ?_, h.inFlight⟩
  by_cases hsame : other = hash ∧ position = index
  · obtain ⟨rfl, rfl⟩ := hsame
    rw [registered_modify_self hold] at hfound
    obtain rfl := Option.some.inj hfound
    exact hcache
  · rw [registered_modify_of_ne hsame] at hfound
    exact h.registered other position found hfound

theorem Routed.setFile (h : manager.Routed holds) (path : Str) (disk : Option FileData) :
    (manager.setFile path disk).Routed holds := ⟨h.registered, h.inFlight⟩

theorem Routed.setId (h : manager.Routed holds) (hash : UInt64) (index : Nat) (taken : Bool) :
    (manager.setId hash index taken).Routed holds := ⟨h.registered, h.inFlight⟩

theorem Routed.pushInto (h : manager.Routed holds) (hcache : holds hash cache.config)
    (index : Nat) (env : PushEnv) (message : TrackMessageImpl) :
    (manager.pushInto ext hash index cache env message).2.Routed holds := by
  obtain ⟨disk, heq | ⟨old, changed, hold, hconfig, heq⟩⟩ :=
    @pushInto_cases ext manager hash index cache env message
  · rw [heq]
    exact h.setFile _ _
  · rw [heq]
    exact (h.setFile _ _).modify hold (hconfig ▸ hcache)

theorem registered_pushInto (hentry : manager.registered hash index ≠ none) (env : PushEnv)
    (message : TrackMessageImpl) :
    (manager.pushInto ext hash index cache env message).2.registered hash index ≠ none := by
  obtain ⟨disk, heq | ⟨old, changed, hold, _, heq⟩⟩ :=
    @pushInto_cases ext manager hash index cache env message
  · rw [heq]
    exact hentry
  · have hself := @registered_modify_self
      (manager.setFile cache.diskCache.path (some disk)) hash index changed old hold
    rw [heq]
    exact fun hnone => Option.some_ne_none _ (hself.symm.trans hnone)

theorem registered_emplace_ne_none (manager : Manager) (hash : UInt64) (index : Nat)
    (cache : TrackerCache) : (manager.emplace hash index cache).registered hash index ≠ none := by
  cases hold : manager.registered hash index with
  | none =>
      rw [registered_emplace_self hold]
      exact Option.some_ne_none _
  | some old =>
      have hmem : (index, old) ∈ ((manager.trackersCache hash).emplace index cache).entries :=
        OrderedMap.mem_insertEntry_of_mem (OrderedMap.mem_of_find hold) index cache
      simp only [Manager.registered, emplace, setCaches_self]
      exact fun hnone => Option.some_ne_none _ ((OrderedMap.find_of_mem hmem).symm.trans hnone)

theorem live_ne_nil_of_registered (hentry : manager.registered hash index ≠ none) :
    manager.live hash index ≠ [] := by
  obtain ⟨cache, hcache⟩ := Option.ne_none_iff_exists'.mp hentry
  rw [Manager.live, hcache]
  exact List.cons_ne_nil _ _

/-- A cache that leaves with an upload is still there. -/
theorem live_ne_nil_upload (hentry : manager.registered hash index ≠ none)
    (clock : Nat → UInt32) :
    (manager.uploadTrackerCacheAsync ext hash index clock).live hash index ≠ [] := by
  obtain heq | ⟨found, _, hfound, heq⟩ :=
    uploadTrackerCacheAsync_cases ext manager hash index clock
  · rw [heq]
    exact live_ne_nil_of_registered hentry
  · rw [heq]
    intro hnil
    obtain ⟨_, hnone⟩ := List.append_eq_nil_iff.mp hnil
    simp at hnone

/-- **A flush** keeps the slots routed, given the message's own configuration, and the slot that
took the message has its cache. -/
theorem Routed.flushTracker (h : manager.Routed holds) {message : TrackMessageImpl}
    (hconfig : ∀ config, message.config = some config → holds config.hash config)
    (env : FlushEnv) :
    (manager.flushTracker ext message env).2.Routed holds
      ∧ ∀ config index, message.config = some config →
        (manager.flushTracker ext message env).1 = some index →
        (manager.flushTracker ext message env).2.live config.hash index ≠ [] := by
  cases hmessage : message.config with
  | none =>
      simp only [Manager.flushTracker, hmessage]
      exact ⟨h, fun config index hnone => by cases hnone⟩
  | some config =>
      have hsettled := @flushTracker_rule ext message env (Routed holds)
        (fun index next => next.Routed holds ∧ next.live config.hash index ≠ []) manager config
        hmessage (fun _ _ hrouted => hrouted.upload _ _ _) ?_ ?_ ?_ ?_ h
      · cases htaken : (manager.flushTracker ext message env).1 with
        | none =>
            rw [htaken] at hsettled
            exact ⟨hsettled, fun _ index _ hsome => by cases hsome⟩
        | some taken =>
            rw [htaken] at hsettled
            refine ⟨hsettled.1, fun other index hother hindex => ?_⟩
            obtain rfl := Option.some.inj hother
            obtain rfl := Option.some.inj hindex
            exact hsettled.2
      · intro start index cache next hrouted hcache hpush
        have hnext := @Routed.pushInto ext start _ _ _ hrouted
          (hrouted.registered _ index cache hcache) index (env.push index) message
        rw [hpush] at hnext
        exact hnext
      · intro start index cache next hrouted hcache hpush
        have hnext := @Routed.pushInto ext start _ _ _ hrouted
          (hrouted.registered _ index cache hcache) index (env.push index) message
        have hentry := @registered_pushInto ext start config.hash index cache
          (by rw [hcache]; exact Option.some_ne_none _) (env.push index) message
        rw [hpush] at hnext hentry
        exact ⟨⟨hnext, live_ne_nil_of_registered hentry⟩, hnext.upload _ _ _,
          live_ne_nil_upload hentry env.clock⟩
      · intro start index next hrouted _ _ hcreate
        obtain ⟨_, disk, _, rfl⟩ | ⟨cache, left, hsome, _⟩ := createCache_cases hcreate
        · exact hrouted.setFile _ _
        · cases hsome
      · intro start index cache next pushed last hrouted _ _ hcreate hpush
        obtain ⟨hnone, _⟩ | ⟨made, left, hsome, hconstruct, rfl⟩ := createCache_cases hcreate
        · cases hnone
        obtain rfl := Option.some.inj hsome
        have hgiven : cache.config = config := by
          rcases TrackerCache.construct_config hconstruct with hgiven | ⟨hnone, _⟩
          · exact (Option.some.inj hgiven).symm
          · cases hnone
        have hholds : holds config.hash cache.config := hgiven ▸ hconfig config hmessage
        have hcreated := ((hrouted.setFile (cacheName config.hash index) (some left)).setId
          config.hash index true).emplace index hholds
        have hlast := @Routed.pushInto ext _ _ _ _ hcreated hholds index (env.push index) message
        have hentry := @registered_pushInto ext
          (((start.setFile (cacheName config.hash index) (some left)).setId config.hash index
            true).emplace config.hash index cache) config.hash index cache
          (registered_emplace_ne_none _ config.hash index cache) (env.push index) message
        rw [hpush] at hlast hentry
        split
        · exact ⟨hlast, live_ne_nil_of_registered hentry⟩
        · exact hlast

theorem Routed.check (h : manager.Routed holds) (order : List UInt64) (clock : Nat → UInt32) :
    (manager.checkAndUploadTrackers ext order clock).Routed holds := by
  unfold checkAndUploadTrackers
  repeat' split
  · exact h
  · exact h
  · exact h.upload _ _ _
  · exact h

theorem Routed.complete (h : manager.Routed holds) {position : Nat} {success : Bool}
    {env : CompletionEnv} (hcomplete : manager.complete ext position success env = some next) :
    next.Routed holds := by
  unfold Manager.complete at hcomplete
  split at hcomplete
  · cases hcomplete
  · rename_i upload hupload
    have hholds := h.inFlight upload (List.mem_of_getElem? hupload)
    have hlanded : ({ manager with
        inFlight := manager.inFlight.eraseIdx position, uploading := false } : Manager).Routed
          holds :=
      ⟨h.registered, fun other hother => h.inFlight other (List.mem_of_mem_eraseIdx hother)⟩
    dsimp only at hcomplete
    split at hcomplete
    · split at hcomplete
      · cases hcomplete
      · split at hcomplete
        · obtain rfl := Option.some.inj hcomplete
          exact (hlanded.setFile _ _).emplace _ hholds
        · obtain rfl := Option.some.inj hcomplete
          refine Routed.setId ?_ _ _ _
          unfold Manager.destroy
          split
          · exact (hlanded.setFile _ _).setFile _ _
          · exact hlanded.setFile _ _
    · obtain rfl := Option.some.inj hcomplete
      have hback := hlanded.emplace upload.index hholds
      exact ⟨hback.registered, hback.inFlight⟩

/-- What is loaded from a file has the hash of its name. -/
theorem routed_syncLoad (h : manager.Routed fun hash config => config.hash = hash)
    (names : List Str) (env : LoadEnv) :
    (manager.syncLoadTrackersCache ext names env).Routed fun hash config => config.hash = hash := by
  unfold syncLoadTrackersCache
  induction names generalizing manager with
  | nil => exact h
  | cons name rest ih =>
      rw [List.foldl_cons]
      refine ih ?_
      unfold loadEntry
      split
      · rename_i hash index disk _ _
        dsimp only
        split
        · exact h.setFile _ _
        · rename_i cache hcreated
          refine Routed.setId (Routed.emplace (h.setFile _ _) _ ?_) _ _ _
          rcases TrackerCache.construct_config (Prod.ext hcreated rfl) with hgiven | ⟨_, hhash⟩
          · cases hgiven
          · exact hhash
      · exact h

theorem syncLoad_inFlight (manager : Manager) (names : List Str) (env : LoadEnv) :
    (manager.syncLoadTrackersCache ext names env).inFlight = manager.inFlight := by
  unfold syncLoadTrackersCache
  induction names generalizing manager with
  | nil => rfl
  | cons name rest ih =>
      rw [List.foldl_cons, ih]
      unfold loadEntry
      dsimp only
      repeat' split
      all_goals rfl

end Manager

end TapSdk.Tracker

namespace TapSdk.Sdk

open Library Tracker

variable {ext : Externals} {involved : TrackDiskCacheConfig → Prop}

/-- CityHash has no collision on these strings. -/
def CollisionFree (involved : TrackDiskCacheConfig → Prop) : Prop :=
  ∀ left right, involved left → involved right → left.freshHash = right.freshHash → left = right

namespace Api

variable {api next : Api} {op : Op}

/-- The strings that a step brings in are among those: the struct of a message, and what is loaded
from the files. -/
def Involves (ext : Externals) (involved : TrackDiskCacheConfig → Prop) (api : Api) : Op → Prop
  | .call (.trackerCreate (some address) _ _) => involved (api.configs address).strings
  | .call (.init (some config) files) => ∀ hash index cache,
      (loadTrackers ext config files).registered hash index = some cache →
        involved cache.config.strings
  | _ => True

/-- A message is created from a struct without a hash, or with the hash of its strings. -/
def Unedited (api : Api) : Op → Prop
  | .call (.trackerCreate (some address) _ _) => (api.configs address).hash = 0
      ∨ (api.configs address).hash = (api.configs address).strings.freshHash
  | _ => True

/-- Every cache in the slot of a message that was accepted has the strings that the message was
created with. -/
def SentAsCreated (api : Api) : Prop :=
  ∀ accepted ∈ api.accepted, ∀ cache ∈ api.manager.live accepted.hash accepted.index,
    cache.config.strings = accepted.created

def Keyed (involved : TrackDiskCacheConfig → Prop) (hash : UInt64)
    (config : TrackerConfig) : Prop :=
  config.hash = hash ∧ involved config.strings

/-- A message with the configuration it was created with. -/
def TrackMessage.Faithful (involved : TrackDiskCacheConfig → Prop) (track : TrackMessage) : Prop :=
  involved track.created
    ∧ ∃ config, track.message.config = some config ∧ config.strings = track.created

structure Configured (involved : TrackDiskCacheConfig → Prop) (api : Api) : Prop where
  table : ∀ hash config, api.trackerConfigs hash = some config → Keyed involved hash config
  messages : ∀ handle track, api.messages handle = some track →
    TrackMessage.Faithful involved track
  manager : api.manager.Routed (Keyed involved)
  accepted : ∀ accepted ∈ api.accepted, accepted.hash = accepted.created.freshHash
    ∧ involved accepted.created

theorem configured_start {accepted : List Accepted}
    (h : ∀ message ∈ accepted, message.hash = message.created.freshHash
      ∧ involved message.created) : (start accepted).Configured involved := by
  refine ⟨fun hash config hconfig => ?_, fun handle track htrack => ?_,
    Manager.routed_empty _ _, h⟩
  · cases hconfig
  · cases htrack

theorem Configured.sentAsCreated (h : api.Configured involved) (hfree : CollisionFree involved) :
    api.SentAsCreated := by
  intro accepted haccepted cache hcache
  obtain ⟨hhash, hcreated⟩ := h.accepted accepted haccepted
  obtain ⟨hkey, hinvolved⟩ := h.manager.live hcache
  refine hfree _ _ hinvolved hcreated ?_
  calc cache.config.strings.freshHash
      = cache.config.hash := cache.config.hash_eq.symm
    _ = accepted.hash := hkey
    _ = accepted.created.freshHash := hhash

/-! ### Calls that do not touch messages -/

/-- The table, the messages and the record are the same. -/
structure SameTracking (before after : Api) : Prop where
  trackerConfigs : after.trackerConfigs = before.trackerConfigs
  messages : after.messages = before.messages
  accepted : after.accepted = before.accepted

theorem Configured.congr (h : api.Configured involved) (hsame : api.SameTracking next)
    (hmanager : next.manager.Routed (Keyed involved)) : next.Configured involved := by
  refine ⟨?_, ?_, hmanager, ?_⟩
  · rw [hsame.trackerConfigs]
    exact h.table
  · rw [hsame.messages]
    exact h.messages
  · rw [hsame.accepted]
    exact h.accepted

theorem sameTracking_init (api : Api) (config : Option TapsdkConfig) (files : InitFiles) :
    api.SameTracking (api.init ext config files).2 := by
  obtain heq | ⟨given, device, inited, _, heq⟩ := @init_cases ext api config files
  · rw [heq]
    exact ⟨rfl, rfl, rfl⟩
  · rw [heq]
    unfold initSdk
    dsimp only
    split <;> exact ⟨rfl, rfl, rfl⟩

theorem sameTracking_gameSet (api : Api) (game : Option TapsdkGame) :
    api.SameTracking (api.gameSet game).2 := by
  unfold gameSet
  repeat' split
  all_goals exact ⟨rfl, rfl, rfl⟩

theorem sameTracking_userSet (api : Api) (user : Option TapsdkUser) :
    api.SameTracking (api.userSet user).2 := by
  unfold userSet
  repeat' split
  all_goals exact ⟨rfl, rfl, rfl⟩

theorem Configured.init (h : api.Configured involved) {config : Option TapsdkConfig}
    {files : InitFiles} (hinvolves : api.Involves ext involved (.call (.init config files))) :
    (api.init ext config files).2.Configured involved := by
  refine h.congr (api.sameTracking_init config files) ?_
  have hmoved := @managerMoved_init ext api config files
  generalize (api.init ext config files).2.manager = after at hmoved
  cases hmoved with
  | same => exact h.manager
  | @loaded config files =>
      have hkeys := @Manager.routed_syncLoad ext _
        (Manager.routed_empty files.files
          (if config.trackerGroupSize ≠ 0 then config.trackerGroupSize else 2000))
        files.names files.env
      refine ⟨fun hash index cache hcache => ?_, fun upload hupload => ?_⟩
      · exact ⟨hkeys.registered hash index cache hcache, hinvolves hash index cache hcache⟩
      · rw [loadTrackers, Manager.syncLoad_inFlight] at hupload
        cases hupload

/-! ### Messages -/

theorem Configured.setMessage (h : api.Configured involved) (handle : Nat)
    {track : Option TrackMessage}
    (htrack : ∀ message, track = some message → TrackMessage.Faithful involved message) :
    (api.setMessage handle track).Configured involved := by
  refine ⟨h.table, fun other message hmessage => ?_, h.manager, h.accepted⟩
  simp only [Api.setMessage] at hmessage
  split at hmessage
  · exact htrack message hmessage
  · exact h.messages other message hmessage

theorem createConfig_cached (config : TapsdkTrackerConfig) :
    (createConfig config).cached = config.strings.freshHash := by
  simp only [createConfig]

/-- The configuration that a message gets is the one of its struct, in every case but one: the
struct has a hash that the table knows. -/
theorem trackerConfig_cases (api : Api) (address : Nat) :
    (∃ found, (api.configs address).hash ≠ 0
        ∧ api.trackerConfigs (api.configs address).hash = some found
        ∧ api.trackerConfig address = (found, api))
      ∨ (api.trackerConfig address).1 = createConfig (api.configs address)
        ∧ ∀ hash config, (api.trackerConfig address).2.trackerConfigs hash = some config →
          api.trackerConfigs hash = some config
            ∨ hash = (api.configs address).strings.freshHash
              ∧ config = createConfig (api.configs address) := by
  unfold trackerConfig
  dsimp only
  split
  · refine Or.inr ⟨rfl, fun hash config hconfig => ?_⟩
    simp only [setTrackerConfig, setConfig] at hconfig
    split at hconfig
    · rename_i hhash
      exact Or.inr ⟨hhash.trans (createConfig_cached _), (Option.some.inj hconfig).symm⟩
    · exact Or.inl hconfig
  · rename_i hhash
    split
    · rename_i found hfound
      exact Or.inl ⟨found, hhash, hfound, rfl⟩
    · refine Or.inr ⟨rfl, fun hash config hconfig => Or.inl ?_⟩
      simpa only [setConfig] using hconfig

theorem keyed_createConfig (config : TapsdkTrackerConfig) (hinvolved : involved config.strings) :
    Keyed involved config.strings.freshHash (createConfig config) :=
  ⟨(createConfig config).hash_eq, hinvolved⟩

/-- The step of `tapsdk_tracker_create` before the message: the strings of the configuration are
those of the struct. -/
theorem Configured.trackerConfig (h : api.Configured involved) (hfree : CollisionFree involved)
    {address : Nat} (hinvolved : involved (api.configs address).strings)
    (hunedited : (api.configs address).hash = 0
      ∨ (api.configs address).hash = (api.configs address).strings.freshHash) :
    (api.trackerConfig address).1.strings = (api.configs address).strings
      ∧ (api.trackerConfig address).2.Configured involved := by
  obtain ⟨found, hhash, hfound, heq⟩ | ⟨hmade, htable⟩ := api.trackerConfig_cases address
  · obtain ⟨hkey, hknown⟩ := h.table _ found hfound
    rw [heq]
    refine ⟨hfree _ _ hknown hinvolved ?_, h⟩
    rw [← found.hash_eq, hkey]
    exact hunedited.resolve_left hhash
  · have hsame := api.sameMessages_trackerConfig address
    refine ⟨by rw [hmade]; rfl, fun hash config hconfig => ?_, ?_, ?_, ?_⟩
    · rcases htable hash config hconfig with hold | ⟨rfl, rfl⟩
      · exact h.table hash config hold
      · exact keyed_createConfig _ hinvolved
    · rw [hsame.messages]
      exact h.messages
    · rw [hsame.manager]
      exact h.manager
    · rw [hsame.accepted]
      exact h.accepted

theorem Configured.trackerCreate (h : api.Configured involved) (hfree : CollisionFree involved)
    {config : Option Nat} {message : Bool} {env : CreateEnv}
    (hinvolves : api.Involves ext involved (.call (.trackerCreate config message env)))
    (hunedited : api.Unedited (.call (.trackerCreate config message env))) :
    (api.trackerCreate config message env).2.Configured involved := by
  unfold Api.trackerCreate
  split
  · exact h
  · split
    · rename_i address _ _
      obtain ⟨hstrings, hconfigured⟩ := h.trackerConfig hfree hinvolves hunedited
      dsimp only
      split
      · exact hconfigured
      · rename_i created hcreated
        refine Configured.congr (hconfigured.setMessage _ ?_) ⟨rfl, rfl, rfl⟩ hconfigured.manager
        rintro _ ⟨⟩
        refine ⟨hinvolves, (api.trackerConfig _).1, ?_, hstrings⟩
        unfold createTracker at hcreated
        split at hcreated
        · rw [← Option.some.inj hcreated]
        · cases hcreated
    · exact h

theorem Configured.msgAdd {add : TrackMsgCacheProto → TrackMsgContent → TrackMsgCacheProto}
    {message : Option Nat} {key value : Option Str} {outcome : Outcome}
    (h : api.Configured involved)
    (hadd : api.msgAdd add message key value = some (outcome, next)) :
    next.Configured involved := by
  unfold Api.msgAdd at hadd
  split at hadd
  · obtain ⟨_, rfl⟩ := Prod.mk.inj (Option.some.inj hadd)
    exact h
  · split at hadd
    · rename_i handle key value
      split at hadd
      · cases hadd
      · rename_i track htrack
        split at hadd
        · obtain ⟨_, rfl⟩ := Prod.mk.inj (Option.some.inj hadd)
          exact h
        · obtain ⟨_, rfl⟩ := Prod.mk.inj (Option.some.inj hadd)
          refine h.setMessage handle ?_
          rintro _ ⟨⟩
          exact h.messages handle track htrack
    · obtain ⟨_, rfl⟩ := Prod.mk.inj (Option.some.inj hadd)
      exact h

theorem Configured.flushMessage (h : api.Configured involved) {handle : Nat} {track : TrackMessage}
    (htrack : TrackMessage.Faithful involved track) (env : FlushEnv) :
    (api.flushMessage ext handle track env).2.Configured involved := by
  obtain ⟨hinvolved, config, hconfig, hcreated⟩ := htrack
  have hkeyed : ∀ other, track.message.config = some other → Keyed involved other.hash other := by
    intro other hother
    obtain rfl := Option.some.inj (hconfig.symm.trans hother)
    exact ⟨rfl, hcreated ▸ hinvolved⟩
  have hmanager := (@Manager.Routed.flushTracker ext _ _ h.manager track.message hkeyed env).1
  have htried : (api.setManager (api.manager.flushTracker ext track.message env).2).Configured
      involved :=
    ⟨h.table, h.messages, hmanager, h.accepted⟩
  unfold Api.flushMessage
  split
  · exact h
  · split
    · exact h
    · split
      · exact h
      · dsimp only
        split
        · rename_i index other hother
          obtain rfl := Option.some.inj (hconfig.symm.trans hother)
          have hdeleted := @Configured.setMessage involved _ htried handle none
            fun _ hnone => by cases hnone
          refine ⟨hdeleted.table, hdeleted.messages, hdeleted.manager, fun accepted hmem => ?_⟩
          rcases List.mem_append.mp hmem with hold | hnew
          · exact h.accepted accepted hold
          · rw [List.mem_singleton.mp hnew]
            refine ⟨?_, hinvolved⟩
            rw [config.hash_eq, hcreated]
        · refine htried.setMessage handle ?_
          rintro _ ⟨⟩
          exact ⟨hinvolved, config, hconfig, hcreated⟩

/-- **One step** keeps the configurations where they belong. -/
theorem Configured.step (h : api.Configured involved) (hfree : CollisionFree involved)
    (hinvolves : api.Involves ext involved op) (hunedited : api.Unedited op)
    (hstep : api.step ext op = some next) : next.Configured involved := by
  cases moved_of_step hstep with
  | idle => exact h
  | init config files => exact h.init hinvolves
  | gameSet game =>
      exact h.congr (api.sameTracking_gameSet game)
        ((api.sameLock_gameSet game).manager ▸ h.manager)
  | userSet user =>
      exact h.congr (api.sameTracking_userSet user)
        ((api.sameLock_userSet user).manager ▸ h.manager)
  | created config message env => exact h.trackerCreate hfree hinvolves hunedited
  | added hadd => exact h.msgAdd hadd
  | flushed env htrack => exact h.flushMessage (h.messages _ _ htrack) env
  | edited address strings => exact h.congr ⟨rfl, rfl, rfl⟩ h.manager
  | checked order clock => exact h.congr ⟨rfl, rfl, rfl⟩ (h.manager.check order clock)
  | completed hcomplete => exact h.congr ⟨rfl, rfl, rfl⟩ (h.manager.complete hcomplete)
  | exited => exact configured_start h.accepted

/-! ### What is accepted -/

theorem msgAdd_accepted {add : TrackMsgCacheProto → TrackMsgContent → TrackMsgCacheProto}
    {message : Option Nat} {key value : Option Str} {outcome : Outcome}
    (h : api.msgAdd add message key value = some (outcome, next)) :
    next.accepted = api.accepted := by
  unfold Api.msgAdd at h
  repeat' split at h
  all_goals cases h <;> rfl

/-- A flush has put the message in this slot. -/
def Taken (ext : Externals) (manager after : Manager) (accepted : Accepted) : Prop :=
  ∃ message config env, message.config = some config ∧ config.hash = accepted.hash
    ∧ manager.flushTracker ext message env = (some accepted.index, after)

theorem flushMessage_accepted (api : Api) (handle : Nat) (track : TrackMessage) (env : FlushEnv) :
    (api.flushMessage ext handle track env).2.accepted = api.accepted
      ∨ ∃ accepted, (api.flushMessage ext handle track env).2.accepted = api.accepted ++ [accepted]
        ∧ Taken ext api.manager (api.flushMessage ext handle track env).2.manager accepted := by
  unfold Api.flushMessage
  split
  · exact Or.inl rfl
  · split
    · exact Or.inl rfl
    · split
      · exact Or.inl rfl
      · dsimp only
        split
        · rename_i index config htaken hconfig
          refine Or.inr ⟨⟨track.created, config.hash, index⟩, rfl, track.message, config, env,
            hconfig, rfl, ?_⟩
          exact Prod.ext htaken rfl
        · exact Or.inl rfl

theorem step_accepted (hstep : api.step ext op = some next) :
    next.accepted = api.accepted ∨ ∃ accepted, next.accepted = api.accepted ++ [accepted]
      ∧ Taken ext api.manager next.manager accepted := by
  cases moved_of_step hstep with
  | init config files => exact Or.inl (api.sameTracking_init config files).accepted
  | gameSet game => exact Or.inl (api.sameTracking_gameSet game).accepted
  | userSet user => exact Or.inl (api.sameTracking_userSet user).accepted
  | created config message env => exact Or.inl (api.trackerCreate_frame config message env).2
  | added hadd => exact Or.inl (msgAdd_accepted hadd)
  | flushed env htrack => exact api.flushMessage_accepted _ _ env
  | idle | edited | checked | completed | exited => exact Or.inl rfl

/-- A flush that is accepted leaves the cache that took the message in its slot. -/
theorem Taken.live_ne_nil {manager after : Manager} {accepted : Accepted}
    (h : Taken ext manager after accepted) : after.live accepted.hash accepted.index ≠ [] := by
  obtain ⟨message, config, env, hconfig, hhash, hflush⟩ := h
  have hrouted : manager.Routed fun _ _ => True := ⟨fun _ _ _ _ => trivial, fun _ _ => trivial⟩
  have hlive := (@Manager.Routed.flushTracker ext manager _ hrouted message
    (fun _ _ => trivial) env).2 config accepted.index hconfig (by rw [hflush])
  rw [hflush, hhash] at hlive
  exact hlive

/-- **Messages are sent with the configuration they were created with**, along the runs in which no
message is created from a struct whose strings have changed under its hash. -/
theorem accepted_sent_as_created (ext : Externals) (hfree : CollisionFree involved)
    (hreach : (system ext).Reaches
      (fun api op => api.Involves ext involved op ∧ api.Unedited op) api) :
    api.SentAsCreated ∧ ∀ op next accepted, api.step ext op = some next →
      next.accepted = api.accepted ++ [accepted] →
      next.manager.live accepted.hash accepted.index ≠ [] := by
  have hconfigured : api.Configured involved := by
    refine hreach.invariant (Configured involved) ?_ ?_
    · rintro _ rfl
      exact configured_start fun _ hmessage => by cases hmessage
    · rintro state label after h ⟨hinvolves, hunedited⟩ hstep
      exact h.step hfree hinvolves hunedited hstep
  refine ⟨hconfigured.sentAsCreated hfree, fun op next accepted hstep haccepted => ?_⟩
  obtain hsame | ⟨taken, htaken, hslot⟩ := step_accepted hstep
  · rw [haccepted] at hsame
    exact absurd hsame (by simp)
  · rw [haccepted] at htaken
    obtain rfl := List.singleton_injective (List.append_cancel_left htaken)
    exact hslot.live_ne_nil

/-! ### Two topics in one struct -/

def firstTopic : TapsdkTrackerConfig := ⟨some [97], some [101], none, none, none, none, 0⟩

def secondTopic : TapsdkTrackerConfig := ⟨some [98], some [101], none, none, none, none, 0⟩

def createCall : Call := .trackerCreate (some 0) true ⟨5, [1]⟩

theorem initCall_involves (involved : TrackDiskCacheConfig → Prop) (api : Api) :
    api.Involves wireFormat involved (.call initCall) := by
  intro hash index cache hcache
  cases hcache

def oneTopic : List Op :=
  [.call initCall, .edit 0 firstTopic, .call createCall,
    .call (.trackerFlush (some 0) FlushEnv.ideal)]

theorem accepted_sent_as_created_oneTopic : ∃ api : Api, api.SentAsCreated
    ∧ api.accepted = [⟨firstTopic.strings, firstTopic.strings.freshHash, 0⟩] := by
  let allowed := fun (api : Api) op =>
    api.Involves wireFormat (· = firstTopic.strings) op ∧ api.Unedited op
  have hrun : ((oneTopic.foldlM (step wireFormat) (start [])).any fun api =>
      api.accepted = [⟨firstTopic.strings, firstTopic.strings.freshHash, 0⟩]) = true := by
    decide +kernel
  obtain ⟨api, hlast, hseen⟩ := (Option.any_eq_true _ _).mp hrun
  have halong : (system wireFormat).AlongSteps allowed (start []) oneTopic := by
    intro first hfirst
    obtain rfl := Option.some.inj hfirst
    refine ⟨⟨initCall_involves _ _, trivial⟩, fun second hsecond => ?_⟩
    obtain rfl := Option.some.inj hsecond
    refine ⟨⟨trivial, trivial⟩, fun third _ => ⟨⟨rfl, Or.inl rfl⟩, fun fourth _ => ?_⟩⟩
    exact ⟨⟨trivial, trivial⟩, trivial⟩
  have hfree : CollisionFree (· = firstTopic.strings) :=
    fun left right hleft hright _ => hleft.trans hright.symm
  exact ⟨api, (accepted_sent_as_created wireFormat hfree (halong.reaches (.init rfl) hlast)).1,
    of_decide_eq_true hseen⟩

/-- The strings change between two messages, and the hash stays. -/
def twoTopics : List Op :=
  [.call initCall, .edit 0 firstTopic, .call createCall, .edit 0 secondTopic, .call createCall,
    .call (.trackerFlush (some 1) FlushEnv.ideal)]

/-- **The second message goes to the cache of the first topic.** -/
theorem second_topic_sent_as_first :
    CollisionFree (· ∈ [firstTopic.strings, secondTopic.strings])
      ∧ ∃ api : Api, (system wireFormat).Reaches
          (fun api op => api.Involves wireFormat (· ∈ [firstTopic.strings, secondTopic.strings]) op)
          api
        ∧ ¬ api.SentAsCreated
        ∧ api.accepted.map (·.created) = [secondTopic.strings]
        ∧ (api.manager.live firstTopic.strings.freshHash 0).map (·.config.strings)
          = [firstTopic.strings] := by
  let seen := fun api : Api =>
    api.accepted = [⟨secondTopic.strings, firstTopic.strings.freshHash, 0⟩]
      ∧ (api.manager.live firstTopic.strings.freshHash 0).map (·.config.strings)
        = [firstTopic.strings]
  have hdiffer : firstTopic.strings.freshHash ≠ secondTopic.strings.freshHash := by decide +kernel
  have hrun : ((twoTopics.foldlM (step wireFormat) (start [])).any fun api =>
      decide (seen api)) = true := by decide +kernel
  obtain ⟨api, hlast, hseen⟩ := (Option.any_eq_true _ _).mp hrun
  obtain ⟨haccepted, hlive⟩ := of_decide_eq_true hseen
  have halong : (system wireFormat).AlongSteps
      (fun api op => api.Involves wireFormat (· ∈ [firstTopic.strings, secondTopic.strings]) op)
      (start []) twoTopics := by
    intro first _
    refine ⟨initCall_involves _ _, fun second hsecond => ?_⟩
    obtain rfl := Option.some.inj hsecond
    refine ⟨trivial, fun third _ => ⟨List.mem_cons_self, fun fourth hfourth => ?_⟩⟩
    obtain rfl := Option.some.inj hfourth
    refine ⟨trivial, fun fifth _ => ⟨List.mem_cons_of_mem _ List.mem_cons_self, fun sixth _ => ?_⟩⟩
    exact ⟨trivial, trivial⟩
  refine ⟨?_, api, halong.reaches (.init rfl) hlast, fun hsent => ?_, by rw [haccepted]; rfl, hlive⟩
  · intro left right hleft hright hsame
    simp only [List.mem_cons, List.not_mem_nil, or_false] at hleft hright
    rcases hleft with rfl | rfl <;> rcases hright with rfl | rfl
    · rfl
    · exact absurd hsame hdiffer
    · exact absurd hsame.symm hdiffer
    · rfl
  · obtain ⟨cache, hcache, hstrings⟩ := List.mem_map.mp (hlive ▸ List.mem_singleton_self _)
    have hsecond := hsent _ (haccepted ▸ List.mem_singleton_self _) cache hcache
    have hstrings' : firstTopic.strings = secondTopic.strings := hstrings.symm.trans hsecond
    exact hdiffer (congrArg TrackDiskCacheConfig.freshHash hstrings')

end Api

end TapSdk.Sdk
