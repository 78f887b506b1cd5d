import TapSdk.Base.CityHash
import TapSdk.Library.Wire

/-!
# Tracker configurations and messages

The data the tracker stores and sends: the configuration of a topic, a message, and the protobuf
messages both travel in. Strings are byte strings. The generated protobuf classes and LZ4 are not
part of the repository; they enter as `Externals`, with the laws their documentation gives.
-/

namespace TapSdk.Tracker

open Library

abbrev Str := List UInt8

structure TrackDiskCacheConfig where
  topic : Str
  endpoint : Str
  accessKeyid : Str
  accessKeySecret : Str
  project : Str
  logStore : Str
  deriving DecidableEq

def TrackDiskCacheConfig.freshHash (strings : TrackDiskCacheConfig) : UInt64 :=
  cityHash64
    (le64 (cityHash64 strings.topic) ++ le64 (cityHash64 strings.endpoint)
      ++ le64 (cityHash64 strings.accessKeyid) ++ le64 (cityHash64 strings.accessKeySecret)
      ++ le64 (cityHash64 strings.project) ++ le64 (cityHash64 strings.logStore))

/-- A configuration: its six strings and the cached hash. The strings are set before the hash is
first asked for, so a hash that is cached is theirs. -/
structure TrackerConfig where
  strings : TrackDiskCacheConfig
  cached : UInt64
  cached_fresh : cached = 0 ∨ cached = strings.freshHash
  deriving DecidableEq

def TrackerConfig.hash (config : TrackerConfig) : UInt64 :=
  if config.cached ≠ 0 then config.cached else config.strings.freshHash

theorem TrackerConfig.hash_eq (config : TrackerConfig) :
    config.hash = config.strings.freshHash := by
  unfold hash
  split
  · rename_i hne
    exact config.cached_fresh.resolve_left hne
  · rfl

def TrackDiskCacheConfig.toConfig (strings : TrackDiskCacheConfig) : TrackerConfig :=
  ⟨strings, 0, Or.inl rfl⟩

structure TrackMsgContent where
  key : Str
  value : Str
  deriving DecidableEq

structure TrackMsgCacheProto where
  logContents : List TrackMsgContent
  logCommons : List TrackMsgContent
  deriving DecidableEq

/-- The fields of a `TrackMessageImpl` that outlive its creation. -/
structure TrackMessageImpl where
  config : Option TrackerConfig
  createTime : UInt32
  proto : TrackMsgCacheProto
  deriving DecidableEq

structure Log where
  time : UInt32
  contents : List TrackMsgContent
  deriving DecidableEq

structure LogGroup where
  logs : List Log
  topic : Str
  deriving DecidableEq

/-- The code the tracker calls that is not its own: the three protobuf messages and LZ4. -/
structure Externals where
  message : Codec TrackMsgCacheProto
  config : Codec TrackDiskCacheConfig
  group : LogGroup → List UInt8
  lz4Compress : List UInt8 → List UInt8

structure Externals.Lossless (ext : Externals) : Prop where
  message : ext.message.Lossless
  config : ext.config.Lossless

def lz4MaxInputSize : Nat := 0x7E000000

/-- A log group with a log in it has a non-empty serialization, and LZ4, given a destination of
`LZ4_compressBound` bytes, compresses exactly the inputs up to its maximal size. -/
structure Externals.Compresses (ext : Externals) : Prop where
  group_ne_nil : ∀ group, group.logs ≠ [] → ext.group group ≠ []
  lz4_ne_nil_iff : ∀ bytes, bytes ≠ [] →
    (ext.lz4Compress bytes ≠ [] ↔ bytes.length ≤ lz4MaxInputSize)

def TrackMessageImpl.getSerializeSize (ext : Externals) (message : TrackMessageImpl) : Nat :=
  (ext.message.serialize message.proto).length

end TapSdk.Tracker
