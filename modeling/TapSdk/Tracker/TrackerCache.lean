import TapSdk.Tracker.DiskCache

/-!
# The cache of one topic

`TrackerCache` of `tracker/tracker_impl.cpp`: a disk cache with the configuration it was opened
with or found in its file, and what it makes of its records when it is uploaded.
-/

namespace TapSdk.Tracker

open Library

/-- `GetContents` followed by `GetParams`, as they are copied into a `Log`. -/
def TrackMsgCacheProto.logged (proto : TrackMsgCacheProto) : List TrackMsgContent :=
  proto.logContents ++ proto.logCommons

def TrackMessageImpl.toLog (message : TrackMessageImpl) : Log :=
  ⟨message.createTime, message.proto.logged⟩

variable (ext : Externals)

namespace OpenCache

/-- The `LogGroup` that `SerializeToUpload` builds; there is none without records. `clock` is what
`std::time` returns while they are loaded. -/
def logGroup (cache : OpenCache) (config : TrackerConfig) (clock : Nat → UInt32) :
    Option LogGroup :=
  match cache.load ext clock with
  | [] => none
  | trackers => some ⟨trackers.map (·.toLog), config.strings.topic⟩

def serializeToUpload (cache : OpenCache) (config : TrackerConfig) (clock : Nat → UInt32) :
    List UInt8 :=
  match cache.logGroup ext config clock with
  | none => []
  | some group => ext.group group

end OpenCache

/-- `address` stands for the pointer to the object. -/
structure TrackerCache where
  diskCache : DiskCache
  config : TrackerConfig
  address : Nat

namespace TrackerCache

def opened (cache : TrackerCache) (disk : FileData) : OpenCache := ⟨cache.diskCache, disk⟩

/-- The constructor, and the file it leaves; no object when it throws. -/
def construct (path : Str) (hash : UInt64) (config : Option TrackerConfig)
    (disk : Option FileData) (env : InitEnv) (address : Nat) : Option TrackerCache × FileData :=
  match OpenCache.openAt ext hash path config disk env with
  | (false, left) => (none, left.disk)
  | (true, left) =>
      (left.object.config.map fun config => ⟨left.object, config, address⟩, left.disk)

def push (cache : TrackerCache) (disk : FileData) (env : PushEnv) (message : TrackMessageImpl) :
    Bool × TrackerCache × FileData :=
  let (pushed, next) := (cache.opened disk).push ext env message
  (pushed, { cache with diskCache := next.object }, next.disk)

/-- `TrackerCache::Clear`; `false` when it throws. -/
def clear (cache : TrackerCache) (disk : FileData) (env : ResetEnv) :
    Bool × TrackerCache × FileData :=
  let (cleared, next) := (cache.opened disk).reset ext env
  (cleared, { cache with diskCache := next.object }, next.disk)

def getCount (cache : TrackerCache) (disk : FileData) : UInt32 := (cache.opened disk).getCount

/-- How far `UploadTopicTrackers` gets before its first suspension: the group it posts, or nothing
when there is nothing to send or LZ4 fails. -/
def request (cache : TrackerCache) (disk : FileData) (clock : Nat → UInt32) : Option LogGroup :=
  let buffer := (cache.opened disk).serializeToUpload ext cache.config clock
  if buffer = [] then none
  else if ext.lz4Compress buffer = [] then none
  else (cache.opened disk).logGroup ext cache.config clock

end TrackerCache

end TapSdk.Tracker
