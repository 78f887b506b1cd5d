import TapSdk.Library.Cut
import TapSdk.Tracker.History

/-!
# A process that is killed

What `Push` and `Clear` of a mapped cache do to the file, effect by effect and in program order, so
that a kill leaves the file as the first effects left it. Serialization and `memcpy` go byte by
byte; a counter is one store. Mapping, unmapping and committing do not change what the file holds.
-/

namespace TapSdk

open Library

inductive FileEffect where
  -- Through a mapping of the whole file.
  | store (offset : Nat) (bytes : List UInt8)
  | resize (newSize : Nat)

def FileData.effect (disk : FileData) : FileEffect → FileData
  | .store offset bytes => disk.storeMapped disk.size offset bytes
  | .resize newSize => disk.resize newSize

def byteStores (offset : Nat) : List UInt8 → List FileEffect
  | [] => []
  | byte :: bytes => .store offset [byte] :: byteStores (offset + 1) bytes

end TapSdk

namespace TapSdk.Tracker

open Library

variable (ext : Externals)

namespace OpenCache

def recordEffects (cache : OpenCache) (env : PushEnv) (message : TrackMessageImpl) :
    List FileEffect :=
  let content := ext.message.serialize message.proto
  match env.serialize with
  | .short count => byteStores (cache.areaEnd + recordHeaderSize) (content.take count)
  | .full =>
      let header := cache.header.addRecord (message.getSerializeSize ext)
      byteStores (cache.areaEnd + recordHeaderSize) content
        ++ byteStores cache.areaEnd (recordHeader ext message).bytes
        ++ [.store 20 (le32 header.recordCount), .store 24 (le32 header.recordSize)]

def growEffects (cache : OpenCache) (env : PushEnv) (nextSize : Nat) : List FileEffect :=
  if nextSize > cache.size ∧ env.resize = true then [.resize (cache.size + cacheCapability)] else []

/-- The effects of a mapped `Push` on the file. -/
def pushEffects (cache : OpenCache) (env : PushEnv) (message : TrackMessageImpl) :
    List FileEffect :=
  let nextSize := cache.nextSize ext message
  if nextSize > maxCacheSize then []
  else cache.growEffects env nextSize
    ++ if (cache.grow env nextSize).1 then cache.recordEffects ext env message else []

def shrinkEffects (cache : OpenCache) (env : ResetEnv) : List FileEffect :=
  if cache.size > cacheCapability ∧ env.unmap = true ∧ env.resize = true then
    [.resize cacheCapability] else []

/-- Nothing when an assertion in front of the stores throws. -/
def saveEffects (cache : OpenCache) (env : ResetEnv) : List FileEffect :=
  match cache.object.config with
  | none => []
  | some config =>
      let bytes := ext.config.serialize config.strings
      if config.hash ≠ cache.object.hash ∨ bytes.length > cache.size - cacheHeaderSize
          ∨ env.serialize = false then []
      else byteStores cacheHeaderSize bytes
        ++ [.store 16 (le32 (UInt32.ofNat bytes.length)), .store 8 (le64 cache.object.hash)]

def headerEffects : List FileEffect :=
  [.store 0 cacheMagic, .store 4 (le32 cacheVersionCode), .store 20 (le32 0), .store 24 (le32 0)]

/-- The effects of a mapped `Clear` on the file. -/
def resetEffects (cache : OpenCache) (env : ResetEnv) : List FileEffect :=
  headerEffects ++
    match cache.resetHeader env with
    | (false, _) => []
    | (true, cleared) =>
        cleared.shrinkEffects env ++
          match cleared.shrink env with
          | (false, _) => []
          | (true, shrunk) => shrunk.saveEffects ext env

/-- What the file holds when the process is killed after the first `count` effects of a `Push`. -/
def killedPush (cache : OpenCache) (env : PushEnv) (message : TrackMessageImpl) (count : Nat) :
    FileData :=
  cut FileData.effect (cache.pushEffects ext env message) count cache.disk

def killedClear (cache : OpenCache) (env : ResetEnv) (count : Nat) : FileData :=
  cut FileData.effect (cache.resetEffects ext env) count cache.disk

def reopenAfter (cache : OpenCache) (disk : FileData) (config : Option TrackerConfig)
    (env : InitEnv) : Bool × OpenCache :=
  openAt ext cache.object.hash cache.object.path config (some disk) env

/-- `messages` pushed one after the other; `none` when one of the pushes returns `false`. -/
def pushAll (cache : OpenCache) (pushes : List (PushEnv × TrackMessageImpl)) : Option OpenCache :=
  pushes.foldlM (fun cache entry =>
    match cache.push ext entry.1 entry.2 with
    | (true, next) => some next
    | (false, _) => none) cache

/-- `Load` without the configuration and the times it stamps on the messages. -/
def loaded (cache : OpenCache) (clock : Nat → UInt32) : List TrackMsgCacheProto :=
  (cache.load ext clock).map (·.proto)

end OpenCache

/-- The life of a cache file whose process may be killed and started again. -/
inductive CrashOp where
  | perform (op : CacheOp)
  | killPush (env : PushEnv) (message : TrackMessageImpl) (count : Nat)
      (config : Option TrackerConfig) (init : InitEnv)
  | killClear (env : ResetEnv) (count : Nat) (config : Option TrackerConfig) (init : InitEnv)

def OpenCache.survive (cache : OpenCache) : CrashOp → Option OpenCache
  | .perform op => (cacheSystem ext fun _ => True).step cache op
  | .killPush env message count config init =>
      match cache.reopenAfter ext (cache.killedPush ext env message count) config init with
      | (true, next) => some next
      | (false, _) => none
  | .killClear env count config init =>
      match cache.reopenAfter ext (cache.killedClear ext env count) config init with
      | (true, next) => some next
      | (false, _) => none

/-- A new cache, then any sequence of operations and kills; `none` when an operation throws. -/
def OpenCache.survivor (config : TrackerConfig) (path : Str) (env : InitEnv)
    (ops : List CrashOp) : Option OpenCache :=
  match OpenCache.openAt ext config.hash path (some config) none env with
  | (true, cache) => ops.foldlM (OpenCache.survive ext) cache
  | (false, _) => none

end TapSdk.Tracker
