import TapSdk.Library.OrderedMap
import TapSdk.Library.Run
import TapSdk.Tracker.CacheName
import TapSdk.Tracker.TrackerCache

/-!
# The tracker manager

The state and the operations of `tracker/tracker_impl.cpp` behind `tracker_lock`: which caches are
registered under a configuration hash, which of their sixteen slots are taken, and the uploads whose
completion is still to come. The directory of cache files is part of the state.

A completion is a step of its own, taken after the call that started the upload. An upload that ends
before its first suspension would complete inside that call, with the lock held; the state remembers
that this happened. A request that is posted is taken to suspend here; the C interface adds the
requests whose address is not accepted.
-/

namespace TapSdk.Tracker

open Library

def maxCacheCount : Nat := 16

def uploadTrackerCount : Nat := 32

/-- An upload that has been started: what its completion callback captured, and the group that was
posted, if the coroutine got as far as posting. -/
structure Upload where
  hash : UInt64
  index : Nat
  cache : TrackerCache
  request : Option LogGroup

structure Manager where
  files : Str → Option FileData
  trackersCache : UInt64 → OrderedMap Nat TrackerCache
  trackerCacheIds : UInt64 → Nat → Bool
  uploading : Bool
  inFlight : List Upload
  latestUploadFailed : Option Nat
  trackerGroupSize : UInt32
  -- A completion callback ran, and locked, inside the call that held the lock.
  selfDeadlock : Bool

namespace Manager

def empty (files : Str → Option FileData) (trackerGroupSize : UInt32) : Manager where
  files := files
  trackersCache := fun _ => OrderedMap.empty
  trackerCacheIds := fun _ _ => false
  uploading := false
  inFlight := []
  latestUploadFailed := none
  trackerGroupSize := trackerGroupSize
  selfDeadlock := false

def disk (manager : Manager) (cache : TrackerCache) : FileData :=
  (manager.files cache.diskCache.path).getD FileData.empty

def getCount (manager : Manager) (cache : TrackerCache) : Nat :=
  (cache.getCount (manager.disk cache)).toNat

def setFile (manager : Manager) (path : Str) (disk : Option FileData) : Manager :=
  { manager with files := fun name => if name = path then disk else manager.files name }

def setCaches (manager : Manager) (hash : UInt64) (caches : OrderedMap Nat TrackerCache) :
    Manager :=
  { manager with
    trackersCache := fun other => if other = hash then caches else manager.trackersCache other }

def setId (manager : Manager) (hash : UInt64) (index : Nat) (taken : Bool) : Manager :=
  { manager with
    trackerCacheIds := fun other position =>
      if other = hash ∧ position = index then taken else manager.trackerCacheIds other position }

def emplace (manager : Manager) (hash : UInt64) (index : Nat) (cache : TrackerCache) : Manager :=
  manager.setCaches hash ((manager.trackersCache hash).emplace index cache)

/-- The object under the entry has changed; an object that is not in the map is nobody's. -/
def putBack (manager : Manager) (hash : UInt64) (index : Nat) (cache : TrackerCache) : Manager :=
  match (manager.trackersCache hash).find index with
  | some old =>
      if old.address = cache.address then
        manager.setCaches hash ((manager.trackersCache hash).modify index cache)
      else manager
  | none => manager

end Manager

section Operations

variable (ext : Externals)

/-! ### Uploading -/

def Manager.uploadTrackerCacheAsync (manager : Manager) (hash : UInt64) (index : Nat)
    (clock : Nat → UInt32) : Manager :=
  if manager.uploading then manager
  else
    match (manager.trackersCache hash).find index with
    | none => manager
    | some cache =>
        let request := cache.request ext (manager.disk cache) clock
        { manager.setCaches hash ((manager.trackersCache hash).erase index) with
          uploading := true
          inFlight := manager.inFlight ++ [⟨hash, index, cache, request⟩]
          selfDeadlock := manager.selfDeadlock || request.isNone }

structure CompletionEnv where
  reset : ResetEnv
  -- `fclose` reports an error, which is when `Close` returns `true`.
  closeFails : Bool
  delete : Bool

/-- `DiskCache::Destroy`: the file goes only when closing it has failed. -/
def Manager.destroy (manager : Manager) (cache : TrackerCache) (env : CompletionEnv) : Manager :=
  if env.closeFails && env.delete then manager.setFile cache.diskCache.path none else manager

/-- The completion callback of the upload at `position`. Only a request that was sent can
succeed. -/
def Manager.complete (manager : Manager) (position : Nat) (success : Bool) (env : CompletionEnv) :
    Option Manager :=
  match manager.inFlight[position]? with
  | none => none
  | some upload =>
      let landed := { manager with
        inFlight := manager.inFlight.eraseIdx position, uploading := false }
      if success then
        if upload.request = none then none
        else
          let (cleared, cache, disk) :=
            upload.cache.clear ext (manager.disk upload.cache) env.reset
          let landed := landed.setFile upload.cache.diskCache.path (some disk)
          if cleared then some (landed.emplace upload.hash upload.index cache)
          else some ((landed.destroy upload.cache env).setId upload.hash upload.index false)
      else
        some { landed.emplace upload.hash upload.index upload.cache with
          latestUploadFailed := some upload.cache.address }

/-- The entries in the order in which the two nested loops visit them. -/
def Manager.walk (manager : Manager) (order : List UInt64) :
    List (UInt64 × Nat × TrackerCache) :=
  order.flatMap fun hash => (manager.trackersCache hash).entries.map fun entry => (hash, entry)

/-- The search of `CheckAndUploadTrackers`: the last cache with records, unless it comes by the one
whose upload failed last. -/
def Manager.chooseUpload (manager : Manager) :
    List (UInt64 × Nat × TrackerCache) → Option (UInt64 × Nat) → Option (UInt64 × Nat)
  | [], chosen => chosen
  | (hash, index, cache) :: rest, chosen =>
      if manager.getCount cache > 0 then
        if manager.latestUploadFailed ≠ some cache.address then
          manager.chooseUpload rest (some (hash, index))
        else some (hash, index)
      else manager.chooseUpload rest chosen

/-- `CheckAndUploadTrackers`; `order` is the iteration order of the unordered map. -/
def Manager.checkAndUploadTrackers (manager : Manager) (order : List UInt64)
    (clock : Nat → UInt32) : Manager :=
  if manager.uploading then manager
  else
    match manager.chooseUpload (manager.walk order) none with
    | none => manager
    | some (hash, index) =>
        if hash ≠ 0 then manager.uploadTrackerCacheAsync ext hash index clock else manager

/-! ### Flushing -/

structure FlushEnv where
  clock : Nat → UInt32
  push : Nat → PushEnv
  create : Nat → InitEnv
  delete : Nat → Bool
  address : Nat → Nat

def Manager.pushInto (manager : Manager) (hash : UInt64) (index : Nat) (cache : TrackerCache)
    (env : PushEnv) (message : TrackMessageImpl) : Bool × Manager :=
  let (pushed, next, disk) := cache.push ext (manager.disk cache) env message
  (pushed, (manager.setFile cache.diskCache.path (some disk)).putBack hash index next)

def Manager.createCache (manager : Manager) (hash : UInt64) (index : Nat) (config : TrackerConfig)
    (env : FlushEnv) : Option TrackerCache × Manager :=
  let path := cacheName hash index
  let (created, left) := TrackerCache.construct ext path hash (some config) (manager.files path)
    (env.create index) (env.address index)
  let tried := manager.setFile path (some left)
  match created with
  | some cache => (some cache, (tried.setId hash index true).emplace hash index cache)
  | none => (none, if env.delete index then tried.setFile path none else tried)

structure FlushWalk where
  -- The index of the cache that took the message.
  pushed : Option Nat
  manager : Manager
  -- The entries the loop advanced from, each with whether the map still had it then.
  advances : List (Nat × Bool)

/-- The loop of `FlushTracker` over the entries that are registered when it starts. -/
def flushLoop (hash : UInt64) (message : TrackMessageImpl) (env : FlushEnv) :
    List (Nat × TrackerCache) → Manager → FlushWalk
  | [], manager => ⟨none, manager, []⟩
  | (index, cache) :: rest, manager =>
      if manager.getCount cache ≥ manager.trackerGroupSize.toNat then
        let next := manager.uploadTrackerCacheAsync ext hash index env.clock
        let walk := flushLoop hash message env rest next
        { walk with
          advances := (index, ((next.trackersCache hash).find index).isSome) :: walk.advances }
      else
        match manager.pushInto ext hash index cache (env.push index) message with
        | (true, next) =>
            let count := (next.trackersCache hash).find index |>.map next.getCount |>.getD 0
            if count ≥ uploadTrackerCount then
              ⟨some index, next.uploadTrackerCacheAsync ext hash index env.clock, []⟩
            else ⟨some index, next, []⟩
        | (false, next) =>
            let walk := flushLoop hash message env rest next
            { walk with
              advances := (index, ((next.trackersCache hash).find index).isSome) :: walk.advances }

/-- The loop of `FlushTracker` over the slots that are not taken. -/
def createLoop (hash : UInt64) (config : TrackerConfig) (message : TrackMessageImpl)
    (env : FlushEnv) : List Nat → Manager → Option Nat × Manager
  | [], manager => (none, manager)
  | index :: rest, manager =>
      if manager.trackerCacheIds hash index then createLoop hash config message env rest manager
      else
        match manager.createCache ext hash index config env with
        | (none, next) => createLoop hash config message env rest next
        | (some cache, next) =>
            let (pushed, last) := next.pushInto ext hash index cache (env.push index) message
            (if pushed then some index else none, last)

/-- `FlushTracker` of a message that has not been flushed: the slot that took it, if any. The source
returns whether there is one. -/
def Manager.flushTracker (manager : Manager) (message : TrackMessageImpl) (env : FlushEnv) :
    Option Nat × Manager :=
  match message.config with
  | none => (none, manager)
  | some config =>
      let hash := config.hash
      let walk := flushLoop ext hash message env (manager.trackersCache hash).entries manager
      match walk.pushed with
      | some index => (some index, walk.manager)
      | none => createLoop ext hash config message env (List.range maxCacheCount) walk.manager

/-! ### Starting -/

structure LoadEnv where
  init : Str → InitEnv
  address : Str → Nat

def Manager.loadEntry (env : LoadEnv) (manager : Manager) (name : Str) : Manager :=
  match scanName name, manager.files name with
  | some (hash, index), some disk =>
      let (created, left) := TrackerCache.construct ext name hash none (some disk) (env.init name)
        (env.address name)
      let opened := manager.setFile name (some left)
      match created with
      | none => opened
      | some cache => (opened.emplace hash index cache).setId hash index true
  | _, _ => manager

/-- `SyncLoadTrackersCache` over the names the directory lists. -/
def Manager.syncLoadTrackersCache (manager : Manager) (names : List Str) (env : LoadEnv) :
    Manager :=
  names.foldl (Manager.loadEntry ext env) manager

/-! ### Runs -/

inductive ManagerOp where
  | flush (message : TrackMessageImpl) (env : FlushEnv)
  | check (order : List UInt64) (clock : Nat → UInt32)
  | complete (position : Nat) (success : Bool) (env : CompletionEnv)
  -- The process starts anew on the files it finds.
  | restart (files : Str → Option FileData) (names : List Str) (env : LoadEnv)

def Manager.restart (manager : Manager) (files : Str → Option FileData)
    (names : List Str) (env : LoadEnv) : Manager :=
  (Manager.empty files manager.trackerGroupSize).syncLoadTrackersCache ext names env

def Manager.step (manager : Manager) : ManagerOp → Option Manager
  | .flush message env => some (manager.flushTracker ext message env).2
  | .check order clock => some (manager.checkAndUploadTrackers ext order clock)
  | .complete position success env => manager.complete ext position success env
  | .restart files names env => some (manager.restart ext files names env)

end Operations

end TapSdk.Tracker
