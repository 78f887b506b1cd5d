import TapSdk.Base.File
import TapSdk.Tracker.Message

/-!
# The disk cache

`tracker/cache.cpp`: one file that holds a header, the configuration and the records. The header
lives either in the file, seen through a shared mapping, or in `header_buf` when `mmap` failed; both
branches are modelled. An operation takes the outcome of every file operation it performs, and
returns what it returned or whether it threw, with the state it leaves.

Pointer arithmetic through the mapping is not checked by the source. A store past the end of the
mapping is undefined there; here it changes the bytes that happen to lie behind the mapping, and the
offset it went to can be read off.
-/

namespace TapSdk.Tracker

open Library

def cacheMagic : List UInt8 := [0x74, 0x64, 0x73, 0x63]

def recordMagic : List UInt8 := [0x74, 0x72, 0x63, 0x64]

def cacheVersionCode : UInt32 := 1

def maxCacheSize : Nat := 1024 * 1024 * 1

def cacheCapability : Nat := 1024 * 64

def cacheHeaderSize : Nat := 28

def recordHeaderSize : Nat := 20

structure CacheHeader where
  magic : List UInt8
  verCode : UInt32
  configHash : UInt64
  configSize : UInt32
  recordCount : UInt32
  recordSize : UInt32
  deriving DecidableEq

def CacheHeader.decode (memory : Memory) : CacheHeader where
  magic := memory.read 0 4
  verCode := fromLe32 (memory.read 4 4)
  configHash := fromLe64 (memory.read 8 8)
  configSize := fromLe32 (memory.read 16 4)
  recordCount := fromLe32 (memory.read 20 4)
  recordSize := fromLe32 (memory.read 24 4)

def CacheHeader.bytes (header : CacheHeader) : List UInt8 :=
  header.magic ++ le32 header.verCode ++ le64 header.configHash ++ le32 header.configSize
    ++ le32 header.recordCount ++ le32 header.recordSize

structure RecordHeader where
  magic : List UInt8
  hash : UInt64
  length : UInt32
  time : UInt32
  deriving DecidableEq

def RecordHeader.decode (memory : Memory) (offset : Nat) : RecordHeader where
  magic := memory.read offset 4
  hash := fromLe64 (memory.read (offset + 4) 8)
  length := fromLe32 (memory.read (offset + 12) 4)
  time := fromLe32 (memory.read (offset + 16) 4)

def RecordHeader.bytes (header : RecordHeader) : List UInt8 :=
  header.magic ++ le64 header.hash ++ le32 header.length ++ le32 header.time

/-- Where `cache_header` points. -/
inductive HeaderPtr where
  -- At `header_buf`: the file is not mapped.
  | headerBuf
  -- At the start of a live mapping; `beyond` is what the address space holds past its end.
  | mapping (length : Nat) (beyond : Memory)
  -- At the start of a mapping that has been unmapped.
  | dangling
  | null

structure DiskCache where
  hash : UInt64
  path : Str
  config : Option TrackerConfig
  file : File
  headerBuf : CacheHeader
  cacheHeader : HeaderPtr

structure OpenCache where
  object : DiskCache
  disk : FileData

namespace OpenCache

def size (cache : OpenCache) : Nat := cache.object.file.size cache.disk

def isMapped (cache : OpenCache) : Bool :=
  match cache.object.cacheHeader with
  | .headerBuf => false
  | _ => true

/-- What is read through `cache_header` when it is mapped. A dangling or null pointer is never
read by the code that is modelled here. -/
def memory (cache : OpenCache) : Memory :=
  match cache.object.cacheHeader with
  | .mapping length beyond => fun i => if i < length then cache.disk.byte i else beyond i
  | _ => fun _ => 0

/-- `*cache_header`. -/
def header (cache : OpenCache) : CacheHeader :=
  match cache.object.cacheHeader with
  | .headerBuf => cache.object.headerBuf
  | _ => CacheHeader.decode cache.memory

def store (cache : OpenCache) (offset : Nat) (bytes : List UInt8) : OpenCache :=
  match cache.object.cacheHeader with
  | .mapping length beyond =>
      { object := { cache.object with
          cacheHeader := .mapping length fun i =>
            if i < length then beyond i else beyond.write offset bytes i }
        disk := cache.disk.storeMapped length offset bytes }
  | _ => cache

def storeAll (cache : OpenCache) (stores : List (Nat × List UInt8)) : OpenCache :=
  stores.foldl (fun cache entry => cache.store entry.1 entry.2) cache

def resize (cache : OpenCache) (newSize : Nat) : OpenCache :=
  { object := { cache.object with file := ⟨newSize⟩ }, disk := cache.disk.resize newSize }

def setPtr (cache : OpenCache) (ptr : HeaderPtr) : OpenCache :=
  { cache with object := { cache.object with cacheHeader := ptr } }

def setHeaderBuf (cache : OpenCache) (header : CacheHeader) : OpenCache :=
  { cache with object := { cache.object with headerBuf := header } }

def getCount (cache : OpenCache) : UInt32 := cache.header.recordCount

def areaEnd (cache : OpenCache) : Nat :=
  cacheHeaderSize + cache.header.configSize.toNat + cache.header.recordSize.toNat

end OpenCache

/-! ### Push -/

/-- How the operations inside one `Push` end. -/
structure PushEnv where
  resize : Bool
  -- What lies behind the new mapping, when `mmap` succeeds.
  map : Option Memory
  unmap : Bool
  serialize : WriteOutcome
  commit : Bool
  writeRecordHeader : WriteOutcome
  writeContent : WriteOutcome
  writeCacheHeader : WriteOutcome
  -- The bytes of the pointer `cache_header`.
  pointer : List UInt8
  flush : Bool

structure PushEnv.Succeeds (env : PushEnv) : Prop where
  resize : env.resize = true
  map : env.map.isSome = true
  unmap : env.unmap = true
  serialize : env.serialize = .full
  commit : env.commit = true
  writeRecordHeader : env.writeRecordHeader = .full
  writeContent : env.writeContent = .full
  writeCacheHeader : env.writeCacheHeader = .full
  flush : env.flush = true

section Push

variable (ext : Externals)

def OpenCache.nextSize (cache : OpenCache) (message : TrackMessageImpl) : Nat :=
  cacheHeaderSize + cache.header.configSize.toNat + cache.header.recordSize.toNat
    + recordHeaderSize + message.getSerializeSize ext

/-- The growth step of `Push`: one fixed step, then a new mapping in place of the old one. -/
def OpenCache.grow (cache : OpenCache) (env : PushEnv) (nextSize : Nat) : Bool × OpenCache :=
  if nextSize > cache.size then
    let newSize := cache.size + cacheCapability
    if env.resize then
      let grown := cache.resize newSize
      if grown.isMapped then
        match env.map with
        | some beyond =>
            if env.unmap then (true, grown.setPtr (.mapping newSize beyond)) else (false, grown)
        | none => (false, grown)
      else (true, grown)
    else (false, cache)
  else (true, cache)

def recordHeader (message : TrackMessageImpl) : RecordHeader where
  magic := recordMagic
  hash := cityHash64 (ext.message.serialize message.proto)
  length := UInt32.ofNat (message.getSerializeSize ext)
  time := message.createTime

def recordBytes (message : TrackMessageImpl) : List UInt8 :=
  (recordHeader ext message).bytes ++ ext.message.serialize message.proto

/-- The header after one more record; both counters are 32 bits wide. -/
def CacheHeader.addRecord (header : CacheHeader) (cacheSize : Nat) : CacheHeader :=
  { header with
    recordCount := header.recordCount + 1
    recordSize := header.recordSize + UInt32.ofNat (cacheSize + recordHeaderSize) }

def OpenCache.recordStores (cache : OpenCache) (message : TrackMessageImpl) :
    List (Nat × List UInt8) :=
  let header := cache.header.addRecord (message.getSerializeSize ext)
  [(cache.areaEnd, (recordHeader ext message).bytes),
    (20, le32 header.recordCount),
    (24, le32 header.recordSize)]

/-- All the stores of a mapped `Push`, in program order. -/
def OpenCache.pushStores (cache : OpenCache) (message : TrackMessageImpl) :
    List (Nat × List UInt8) :=
  (cache.areaEnd + recordHeaderSize, ext.message.serialize message.proto)
    :: cache.recordStores ext message

def OpenCache.appendMapped (cache : OpenCache) (env : PushEnv) (message : TrackMessageImpl) :
    Bool × OpenCache :=
  match env.serialize with
  | .short count =>
      (false, cache.store (cache.areaEnd + recordHeaderSize)
        ((ext.message.serialize message.proto).take count))
  | .full => (env.commit, cache.storeAll (cache.pushStores ext message))

/-- The unmapped branch. The last write is of the pointer `cache_header`, not of the header. -/
def OpenCache.appendUnmapped (cache : OpenCache) (env : PushEnv) (message : TrackMessageImpl) :
    Bool × OpenCache :=
  match env.serialize with
  | .short _ => (false, cache)
  | .full =>
      let writeOffset := cache.areaEnd
      let (ok, disk) :=
        cache.disk.write writeOffset (recordHeader ext message).bytes env.writeRecordHeader
      if !ok then (false, { cache with disk := disk })
      else
        let (ok, disk) := disk.write (writeOffset + recordHeaderSize)
          (ext.message.serialize message.proto) env.writeContent
        if !ok then (false, { cache with disk := disk })
        else
          let counted := cache.setHeaderBuf
            (cache.header.addRecord (message.getSerializeSize ext))
          let (ok, disk) := disk.write 0 env.pointer env.writeCacheHeader
          if !ok then (false, { counted with disk := disk })
          else (env.flush, { counted with disk := disk })

def OpenCache.push (cache : OpenCache) (env : PushEnv) (message : TrackMessageImpl) :
    Bool × OpenCache :=
  let nextSize := cache.nextSize ext message
  if nextSize > maxCacheSize then (false, cache)
  else
    match cache.grow env nextSize with
    | (false, grown) => (false, grown)
    | (true, grown) =>
        if grown.isMapped then grown.appendMapped ext env message
        else grown.appendUnmapped ext env message

end Push

/-! ### Load -/

section Load

variable (ext : Externals)

/-- The loop of `Load`, `remaining` iterations before its end. `area` is the memory from
`memory_start` on, and `clock` is what `std::time` returns to the constructor in iteration `i`.
Neither `read_size` nor `cur_offset` passes `record_size`, so their 32 bits do not wrap. -/
def loadLoop (area : Memory) (recordSize : Nat) (config : Option TrackerConfig)
    (clock : Nat → UInt32) : Nat → Nat → Nat → Nat → List TrackMessageImpl
  | 0, _, _, _ => []
  | remaining + 1, i, readSize, curOffset =>
      if readSize < recordSize then
        let header := RecordHeader.decode area curOffset
        let length := header.length.toNat
        if curOffset + recordHeaderSize + length > recordSize then []
        else
          let rest := loadLoop area recordSize config clock remaining (i + 1)
            (readSize + (recordHeaderSize + length)) (curOffset + (recordHeaderSize + length))
          let data := area.read (curOffset + recordHeaderSize) length
          if header.magic ≠ recordMagic then rest
          else if header.hash ≠ cityHash64 data then rest
          else
            match ext.message.parse data with
            | some proto => ⟨config, clock i, proto⟩ :: rest
            | none => rest
      else []

def OpenCache.area (cache : OpenCache) : Memory := fun i =>
  let start := cacheHeaderSize + cache.header.configSize.toNat
  if cache.isMapped then cache.memory (start + i) else cache.disk.byte (start + i)

/-- What the loop makes of the record area, wherever the file ends. -/
def OpenCache.decodeArea (cache : OpenCache) (clock : Nat → UInt32) : List TrackMessageImpl :=
  loadLoop ext cache.area cache.header.recordSize.toNat cache.object.config clock
    cache.header.recordCount.toNat 0 0 0

def OpenCache.load (cache : OpenCache) (clock : Nat → UInt32) : List TrackMessageImpl :=
  if cache.areaEnd > cache.size then [] else cache.decodeArea ext clock

end Load

/-! ### Reset and the configuration -/

structure ResetEnv where
  commit : Bool
  unmap : Bool
  resize : Bool
  map : Option Memory
  serialize : Bool
  commitConfig : Bool
  -- The object representation of `*config`, which the unmapped branch writes over the header.
  rawConfig : List UInt8
  writeRawConfig : WriteOutcome
  flush : Bool
  writeConfig : WriteOutcome
  writeHeader : WriteOutcome
  flushConfig : Bool

structure ResetEnv.Succeeds (env : ResetEnv) : Prop where
  commit : env.commit = true
  unmap : env.unmap = true
  resize : env.resize = true
  map : env.map.isSome = true
  serialize : env.serialize = true
  commitConfig : env.commitConfig = true
  writeRawConfig : env.writeRawConfig = .full
  flush : env.flush = true
  writeConfig : env.writeConfig = .full
  writeHeader : env.writeHeader = .full
  flushConfig : env.flushConfig = true

section Reset

variable (ext : Externals)

def OpenCache.checkValid (cache : OpenCache) : Bool :=
  cache.header.magic = cacheMagic ∧ cache.header.configHash = cache.object.hash
    ∧ cache.header.verCode = cacheVersionCode ∧ cache.areaEnd ≤ cache.size

/-- `DiskCache::SaveConfig`; `false` when an assertion throws. -/
def OpenCache.saveConfig (cache : OpenCache) (env : ResetEnv) : Bool × OpenCache :=
  match cache.object.config with
  | none => (false, cache)
  | some config =>
      let bytes := ext.config.serialize config.strings
      if config.hash ≠ cache.object.hash then (false, cache)
      else if bytes.length > cache.size - cacheHeaderSize then (false, cache)
      else if !env.serialize then (false, cache)
      else if cache.isMapped then
        (env.commitConfig, cache.storeAll
          [(cacheHeaderSize, bytes), (16, le32 (UInt32.ofNat bytes.length)),
            (8, le64 cache.object.hash)])
      else
        let (ok, disk) := cache.disk.write cacheHeaderSize bytes env.writeConfig
        if !ok then (false, { cache with disk := disk })
        else
          let header := { cache.object.headerBuf with
            configSize := UInt32.ofNat bytes.length, configHash := cache.object.hash }
          let (ok, disk) := disk.write 0 header.bytes env.writeHeader
          let saved := { cache.setHeaderBuf header with disk := disk }
          if !ok then (false, saved) else (env.flushConfig, saved)

def OpenCache.resetHeader (cache : OpenCache) (env : ResetEnv) : Bool × OpenCache :=
  if cache.isMapped then
    (env.commit, cache.storeAll
      [(0, cacheMagic), (4, le32 cacheVersionCode), (20, le32 0), (24, le32 0)])
  else
    let cleared := cache.setHeaderBuf { cache.object.headerBuf with
      magic := cacheMagic, verCode := cacheVersionCode, recordCount := 0, recordSize := 0 }
    -- `*config` of a null pointer has no bytes to write
    if cleared.object.config = none then (false, cleared)
    else
      let (ok, disk) := cleared.disk.write 0 env.rawConfig env.writeRawConfig
      if !ok then (false, { cleared with disk := disk })
      else (env.flush, { cleared with disk := disk })

def OpenCache.shrink (cache : OpenCache) (env : ResetEnv) : Bool × OpenCache :=
  if cache.size > cacheCapability then
    if cache.isMapped then
      if !env.unmap then (false, cache)
      else if !env.resize then (false, cache.setPtr .dangling)
      else
        let shrunk := cache.resize cacheCapability
        match env.map with
        | some beyond => (true, shrunk.setPtr (.mapping cacheCapability beyond))
        | none => (false, shrunk.setPtr .null)
    else if !env.resize then (false, cache)
    else (true, cache.resize cacheCapability)
  else (true, cache)

/-- `DiskCache::Reset`, which is all of `Clear`. -/
def OpenCache.reset (cache : OpenCache) (env : ResetEnv) : Bool × OpenCache :=
  match cache.resetHeader env with
  | (false, cleared) => (false, cleared)
  | (true, cleared) =>
      match cleared.shrink env with
      | (false, shrunk) => (false, shrunk)
      | (true, shrunk) => shrunk.saveConfig ext env

def OpenCache.loadConfig (cache : OpenCache) : Bool × OpenCache :=
  let configSize := cache.header.configSize.toNat
  if cacheHeaderSize + configSize > cache.size then (false, cache)
  else
    let memory : Memory := if cache.isMapped then cache.memory else cache.disk.byte
    match ext.config.parse (memory.read cacheHeaderSize configSize) with
    | none => (false, cache)
    | some strings =>
        if strings.toConfig.hash ≠ cache.object.hash then (false, cache)
        else (true, { cache with object := { cache.object with config := some strings.toConfig } })

end Reset

/-! ### Init -/

structure InitEnv where
  openFile : Bool
  resize : Bool
  map : Option Memory
  -- What an unsuccessful read of the header leaves in the uninitialized buffer.
  readHeader : Option CacheHeader
  reset : ResetEnv

structure InitEnv.Succeeds (env : InitEnv) : Prop where
  openFile : env.openFile = true
  resize : env.resize = true
  map : env.map.isSome = true
  readHeader : env.readHeader = none
  reset : env.reset.Succeeds

section Init

variable (ext : Externals)

def DiskCache.construct (hash : UInt64) (path : Str) (config : Option TrackerConfig) :
    DiskCache where
  hash := hash
  path := path
  config := config
  file := ⟨0⟩
  headerBuf := ⟨[0, 0, 0, 0], 0, 0, 0, 0, 0⟩
  cacheHeader := .headerBuf

def OpenCache.attach (cache : OpenCache) (env : InitEnv) : OpenCache :=
  match env.map with
  | some beyond => cache.setPtr (.mapping cache.size beyond)
  | none => cache.setHeaderBuf (env.readHeader.getD (CacheHeader.decode cache.disk.byte))

/-- `DiskCache::Init` after the file has been opened, `disk` being what it holds. -/
def OpenCache.init (object : DiskCache) (disk : FileData) (env : InitEnv) : Bool × OpenCache :=
  let opened : OpenCache := ⟨{ object with file := ⟨disk.size⟩ }, disk⟩
  if disk.size < cacheCapability then
    if env.resize then ((opened.resize cacheCapability).attach env).reset ext env.reset
    else (false, opened)
  else
    let attached := opened.attach env
    if attached.checkValid = false then attached.reset ext env.reset
    else if object.config = none then attached.loadConfig ext
    else (true, attached)

/-- Construct and `Init`: `none` for a file that does not exist yet. The file that is left is
returned even when `Init` throws. -/
def OpenCache.openAt (hash : UInt64) (path : Str) (config : Option TrackerConfig)
    (disk : Option FileData) (env : InitEnv) : Bool × OpenCache :=
  let object := DiskCache.construct hash path config
  let disk := disk.getD FileData.empty
  if env.openFile then OpenCache.init ext object disk env else (false, ⟨object, disk⟩)

end Init

end TapSdk.Tracker
