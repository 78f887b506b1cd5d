import TapSdk.Tracker.Proof.Append

/-!
# The representation invariant

`Layout` says what a file looks like that holds a list of messages: the header, the configuration,
and the records one after the other, all of it inside the file. Every operation keeps it when the
file operations succeed: a push that fits appends, clearing empties, and opening the file again,
with the configuration or without, changes nothing.

`CountedLayout` leaves the record count open. It is proved first, because a process that is killed
inside a push can leave the count ahead of the records.
-/

namespace TapSdk.Tracker

open Library

variable {ext : Externals}

def expectedHeader (ext : Externals) (strings : TrackDiskCacheConfig)
    (messages : List TrackMessageImpl) : CacheHeader where
  magic := cacheMagic
  verCode := cacheVersionCode
  configHash := strings.freshHash
  configSize := UInt32.ofNat (ext.config.serialize strings).length
  recordCount := UInt32.ofNat messages.length
  recordSize := UInt32.ofNat (areaBytes ext messages).length

theorem expectedHeader_recordCount (strings : TrackDiskCacheConfig)
    (messages : List TrackMessageImpl) :
    { expectedHeader ext strings messages with recordCount := UInt32.ofNat messages.length }
      = expectedHeader ext strings messages := by
  simp only [expectedHeader]

def layoutEnd (ext : Externals) (strings : TrackDiskCacheConfig)
    (messages : List TrackMessageImpl) : Nat :=
  cacheHeaderSize + (ext.config.serialize strings).length + (areaBytes ext messages).length

structure CountedLayout (ext : Externals) (memory : Memory) (size : Nat)
    (strings : TrackDiskCacheConfig) (messages : List TrackMessageImpl) (count : UInt32) :
    Prop where
  header : CacheHeader.decode memory
    = { expectedHeader ext strings messages with recordCount := count }
  config : memory.read cacheHeaderSize (ext.config.serialize strings).length
    = ext.config.serialize strings
  records : memory.read (cacheHeaderSize + (ext.config.serialize strings).length)
    (areaBytes ext messages).length = areaBytes ext messages
  fits : layoutEnd ext strings messages ≤ size
  bounded : layoutEnd ext strings messages ≤ maxCacheSize

structure Layout (ext : Externals) (memory : Memory) (size : Nat) (strings : TrackDiskCacheConfig)
    (messages : List TrackMessageImpl) : Prop where
  header : CacheHeader.decode memory = expectedHeader ext strings messages
  config : memory.read cacheHeaderSize (ext.config.serialize strings).length
    = ext.config.serialize strings
  records : memory.read (cacheHeaderSize + (ext.config.serialize strings).length)
    (areaBytes ext messages).length = areaBytes ext messages
  fits : layoutEnd ext strings messages ≤ size
  bounded : layoutEnd ext strings messages ≤ maxCacheSize

section

variable {memory memory' : Memory} {size size' : Nat} {strings : TrackDiskCacheConfig}
  {messages : List TrackMessageImpl} {count : UInt32}

/-- What agrees with a layout below the end of its records is one too, in a file that reaches as
far. -/
theorem CountedLayout.congr (h : CountedLayout ext memory size strings messages count)
    (hfits : layoutEnd ext strings messages ≤ size')
    (hagree : ∀ i, i < layoutEnd ext strings messages → memory' i = memory i) :
    CountedLayout ext memory' size' strings messages count := by
  have hend : layoutEnd ext strings messages = cacheHeaderSize
    + (ext.config.serialize strings).length + (areaBytes ext messages).length := rfl
  refine ⟨?_, ?_, ?_, hfits, h.bounded⟩
  · rw [← h.header]
    exact CacheHeader.decode_congr fun i hi => hagree i (by omega)
  · exact (Memory.read_congr fun i _ hi => hagree i (by omega)).trans h.config
  · exact (Memory.read_congr fun i _ hi => hagree i (by omega)).trans h.records

theorem CountedLayout.configSize (h : CountedLayout ext memory size strings messages count) :
    (CacheHeader.decode memory).configSize.toNat = (ext.config.serialize strings).length := by
  have hbounded := h.bounded
  have hlimit : maxCacheSize < 2 ^ 32 := by decide
  unfold layoutEnd at hbounded
  simp only [h.header, expectedHeader, UInt32.toNat_ofNat']
  omega

theorem CountedLayout.recordSize (h : CountedLayout ext memory size strings messages count) :
    (CacheHeader.decode memory).recordSize.toNat = (areaBytes ext messages).length := by
  have hbounded := h.bounded
  have hlimit : maxCacheSize < 2 ^ 32 := by decide
  unfold layoutEnd at hbounded
  simp only [h.header, expectedHeader, UInt32.toNat_ofNat']
  omega

theorem CountedLayout.length_le (h : CountedLayout ext memory size strings messages count) :
    messages.length < 2 ^ 16 := by
  have hbounded := h.bounded
  have hlimit : maxCacheSize < 20 * 2 ^ 16 := by decide
  have hcount := length_le_areaBytes ext messages
  have hpos : recordHeaderSize = 20 := rfl
  rw [hpos] at hcount
  unfold layoutEnd at hbounded
  omega

theorem Layout.counted (h : Layout ext memory size strings messages) :
    CountedLayout ext memory size strings messages (UInt32.ofNat messages.length) :=
  ⟨h.header.trans (expectedHeader_recordCount strings messages).symm, h.config, h.records,
    h.fits, h.bounded⟩

theorem CountedLayout.layout
    (h : CountedLayout ext memory size strings messages (UInt32.ofNat messages.length)) :
    Layout ext memory size strings messages :=
  ⟨h.header.trans (expectedHeader_recordCount strings messages), h.config, h.records,
    h.fits, h.bounded⟩

theorem Layout.configSize (h : Layout ext memory size strings messages) :
    (CacheHeader.decode memory).configSize.toNat = (ext.config.serialize strings).length :=
  h.counted.configSize

theorem Layout.recordSize (h : Layout ext memory size strings messages) :
    (CacheHeader.decode memory).recordSize.toNat = (areaBytes ext messages).length :=
  h.counted.recordSize

theorem Layout.recordCount (h : Layout ext memory size strings messages) :
    (CacheHeader.decode memory).recordCount.toNat = messages.length := by
  have hlength := h.counted.length_le
  simp only [h.header, expectedHeader, UInt32.toNat_ofNat']
  omega

end

/-- The file at rest: what it holds while no cache has it open. -/
structure FileHolds (ext : Externals) (disk : FileData) (strings : TrackDiskCacheConfig)
    (messages : List TrackMessageImpl) : Prop where
  capability : cacheCapability ≤ disk.size
  layout : Layout ext disk.byte disk.size strings messages

structure FileCounts (ext : Externals) (disk : FileData) (strings : TrackDiskCacheConfig)
    (messages : List TrackMessageImpl) (count : UInt32) : Prop where
  capability : cacheCapability ≤ disk.size
  layout : CountedLayout ext disk.byte disk.size strings messages count

namespace OpenCache

/-- The open cache holds `messages` under the configuration `strings`. -/
structure Holds (ext : Externals) (cache : OpenCache) (strings : TrackDiskCacheConfig)
    (messages : List TrackMessageImpl) : Prop where
  whole : cache.WholeMapped
  hash : cache.object.hash = strings.freshHash
  config : ∃ config, cache.object.config = some config ∧ config.strings = strings
  layout : Layout ext cache.memory cache.disk.size strings messages

/-- It holds `messages` and counts `count` of them. -/
structure Counts (ext : Externals) (cache : OpenCache) (strings : TrackDiskCacheConfig)
    (messages : List TrackMessageImpl) (count : UInt32) : Prop where
  whole : cache.WholeMapped
  hash : cache.object.hash = strings.freshHash
  config : ∃ config, cache.object.config = some config ∧ config.strings = strings
  layout : CountedLayout ext cache.memory cache.disk.size strings messages count

variable {cache : OpenCache} {strings : TrackDiskCacheConfig} {messages : List TrackMessageImpl}
  {message : TrackMessageImpl} {count : UInt32}

theorem Holds.counts (h : cache.Holds ext strings messages) :
    cache.Counts ext strings messages (UInt32.ofNat messages.length) :=
  ⟨h.whole, h.hash, h.config, h.layout.counted⟩

theorem Counts.holds (h : cache.Counts ext strings messages (UInt32.ofNat messages.length)) :
    cache.Holds ext strings messages :=
  ⟨h.whole, h.hash, h.config, h.layout.layout⟩

theorem Counts.areaEnd (h : cache.Counts ext strings messages count) :
    cache.areaEnd = layoutEnd ext strings messages := by
  rw [OpenCache.areaEnd, h.whole.header_eq, h.layout.configSize, h.layout.recordSize, layoutEnd]

theorem Counts.closed (h : cache.Counts ext strings messages count) :
    FileCounts ext cache.disk strings messages count :=
  ⟨h.whole.capability, h.layout.congr h.layout.fits fun _ hi =>
    (h.whole.mapped.memory_of_lt (Nat.lt_of_lt_of_le hi h.layout.fits)).symm⟩

theorem Holds.areaEnd (h : cache.Holds ext strings messages) :
    cache.areaEnd = layoutEnd ext strings messages := h.counts.areaEnd

theorem Holds.closed (h : cache.Holds ext strings messages) :
    FileHolds ext cache.disk strings messages :=
  ⟨h.counts.closed.capability, h.counts.closed.layout.layout⟩

/-! ### Reading back -/

theorem Holds.getCount (h : cache.Holds ext strings messages) :
    cache.getCount.toNat = messages.length := by
  rw [OpenCache.getCount, h.whole.header_eq, h.layout.recordCount]

theorem Counts.load (h : cache.Counts ext strings messages count) (hlossless : ext.Lossless)
    (clock : Nat → UInt32) :
    cache.load ext clock
      = restamp cache.object.config clock 0 (messages.take count.toNat) := by
  have hfits : ¬ cache.areaEnd > cache.size := by
    rw [h.areaEnd, h.whole.size_eq]
    exact Nat.not_lt.mpr h.layout.fits
  have hbounded := h.layout.bounded
  have hlimit : maxCacheSize < 2 ^ 32 := by decide
  unfold layoutEnd at hbounded
  have hcount : (CacheHeader.decode cache.memory).recordCount = count := by rw [h.layout.header]
  have harea : cache.area.read 0 (areaBytes ext messages).length = areaBytes ext messages := by
    rw [← h.layout.records]
    simp only [Memory.read, OpenCache.area, h.whole.mapped.isMapped, if_true, h.whole.header_eq,
      h.layout.configSize, Nat.zero_add, List.length_map, List.length_range]
  have hloop := @loadLoop_areaBytes_take ext cache.area cache.object.config clock
    hlossless.message messages count.toNat 0 0 (by omega) harea
  rw [Nat.zero_add] at hloop
  calc cache.load ext clock
      = cache.decodeArea ext clock := by rw [OpenCache.load, if_neg hfits]
    _ = loadLoop ext cache.area (areaBytes ext messages).length cache.object.config clock
          count.toNat 0 0 0 := by
        rw [OpenCache.decodeArea, h.whole.header_eq, h.layout.recordSize, hcount]
    _ = restamp cache.object.config clock 0 (messages.take count.toNat) := hloop

/-- **Load undoes the pushes.** -/
theorem Holds.load (h : cache.Holds ext strings messages) (hlossless : ext.Lossless)
    (clock : Nat → UInt32) :
    cache.load ext clock = restamp cache.object.config clock 0 messages := by
  have hlength := h.layout.counted.length_le
  have hword : (UInt32.ofNat messages.length).toNat = messages.length := by
    rw [UInt32.toNat_ofNat']
    omega
  rw [h.counts.load hlossless, hword, List.take_length]

/-! ### Pushing -/

theorem countedHeader_addRecord (strings : TrackDiskCacheConfig)
    (messages : List TrackMessageImpl) (count : UInt32) (message : TrackMessageImpl) :
    ({ expectedHeader ext strings messages with recordCount := count } : CacheHeader).addRecord
        (message.getSerializeSize ext)
      = { expectedHeader ext strings (messages ++ [message]) with recordCount := count + 1 } := by
  have hlength : (areaBytes ext (messages ++ [message])).length
      = (areaBytes ext messages).length
        + (message.getSerializeSize ext + recordHeaderSize) := by
    rw [areaBytes_append, List.length_append, recordBytes_length]
    omega
  simp only [expectedHeader, CacheHeader.addRecord, hlength, UInt32.ofNat_add]

theorem expectedHeader_addRecord (strings : TrackDiskCacheConfig)
    (messages : List TrackMessageImpl) (message : TrackMessageImpl) :
    (expectedHeader ext strings messages).addRecord (message.getSerializeSize ext)
      = expectedHeader ext strings (messages ++ [message]) := by
  have hcount : UInt32.ofNat (messages ++ [message]).length
      = UInt32.ofNat messages.length + 1 := by
    rw [List.length_append, List.length_singleton, UInt32.ofNat_add]
    rfl
  rw [← expectedHeader_recordCount strings messages, countedHeader_addRecord, ← hcount,
    expectedHeader_recordCount]

theorem layoutEnd_append (strings : TrackDiskCacheConfig) (messages : List TrackMessageImpl)
    (message : TrackMessageImpl) :
    layoutEnd ext strings (messages ++ [message])
      = layoutEnd ext strings messages + recordHeaderSize + message.getSerializeSize ext := by
  rw [layoutEnd, layoutEnd, areaBytes_append, List.length_append, recordBytes_length]
  omega

theorem Counts.nextSize (h : cache.Counts ext strings messages count) :
    cache.nextSize ext message = layoutEnd ext strings (messages ++ [message]) := by
  calc cache.nextSize ext message
      = cache.areaEnd + recordHeaderSize + message.getSerializeSize ext := nextSize_eq cache message
    _ = layoutEnd ext strings messages + recordHeaderSize + message.getSerializeSize ext := by
        rw [h.areaEnd]
    _ = layoutEnd ext strings (messages ++ [message]) := (layoutEnd_append ..).symm

theorem Holds.nextSize (h : cache.Holds ext strings messages) :
    cache.nextSize ext message = layoutEnd ext strings (messages ++ [message]) :=
  h.counts.nextSize

/-- The file may grow, with more of it mapped; nothing in front of its old end changes. -/
theorem Counts.grownFrom (h : cache.Counts ext strings messages count) {grown : OpenCache}
    (hwhole : grown.WholeMapped) (hfrom : GrownFrom cache grown) :
    grown.Counts ext strings messages count := by
  have hend := h.layout.fits
  have hsize := hfrom.size_le
  refine ⟨hwhole, hfrom.hash.trans h.hash, ?_, h.layout.congr (by omega) ?_⟩
  · rw [hfrom.config]
    exact h.config
  · intro i hi
    exact hfrom.memory i (by omega)

/-- The stores of a push append the record, if it lies inside the file. -/
theorem Counts.storeAll_pushStores (h : cache.Counts ext strings messages count)
    (hmax : cache.nextSize ext message ≤ maxCacheSize)
    (hfits : cache.nextSize ext message ≤ cache.disk.size) :
    (cache.storeAll (cache.pushStores ext message)).Counts ext strings (messages ++ [message])
      (count + 1) := by
  have hmapped := h.whole.mapped
  have hareaEnd := h.areaEnd
  have hend := h.layout.fits
  have hframe := sameFrame_storeAll (cache.pushStores ext message) cache
  -- everything in front of the new record is as it was
  have hold : ∀ i, cacheHeaderSize ≤ i → i < layoutEnd ext strings messages →
      (cache.storeAll (cache.pushStores ext message)).memory i = cache.memory i := by
    intro i hlow hhigh
    exact hmapped.memory_pushStores_of_lt hlow (by omega)
  refine ⟨h.whole.storeAll _, ?_, ?_, ⟨?_, ?_, ?_, ?_, ?_⟩⟩
  · rw [hframe.hash, h.hash]
  · rw [hframe.config]
    exact h.config
  · rw [← (h.whole.storeAll _).header_eq, hmapped.header_pushStores, h.whole.header_eq,
      h.layout.header, countedHeader_addRecord]
  · refine (Memory.read_congr fun i hlow hhigh => hold i hlow ?_).trans h.layout.config
    unfold layoutEnd
    omega
  · rw [areaBytes_append, List.length_append, Memory.read_add]
    have hfirst := (Memory.read_congr fun i hlow hhigh => hold i (by omega) hhigh).trans
      h.layout.records
    have hsecond : (cache.storeAll (cache.pushStores ext message)).memory.read cache.areaEnd
        (recordBytes ext message).length = recordBytes ext message := hmapped.read_pushStores
    rw [hareaEnd] at hsecond
    rw [hfirst]
    exact congrArg _ hsecond
  · rw [hframe.size, ← h.nextSize]
    exact hfits
  · rw [← h.nextSize]
    exact hmax

/-- **A push that fits appends**, whatever the count: one growth step is enough to bring the record
inside the file. -/
theorem Counts.push (h : cache.Counts ext strings messages count) {env : PushEnv}
    (henv : env.Succeeds) (hmax : cache.nextSize ext message ≤ maxCacheSize)
    (hfits : cache.nextSize ext message ≤ cache.size + cacheCapability) :
    ∃ next, cache.push ext env message = (true, next)
      ∧ next.Counts ext strings (messages ++ [message]) (count + 1)
      ∧ next.object.path = cache.object.path := by
  obtain ⟨grown, _, hpush, hwhole, hfrom, hheader, hsize⟩ := h.whole.push henv hmax
  have hcounts := h.grownFrom hwhole hfrom
  have hnext : grown.nextSize ext message = cache.nextSize ext message := by
    rw [hcounts.nextSize, h.nextSize]
  have hroom : grown.nextSize ext message ≤ grown.disk.size := by
    rw [hnext, hsize, grownSize]
    split <;> omega
  refine ⟨_, hpush, hcounts.storeAll_pushStores (by rw [hnext]; exact hmax) hroom, ?_⟩
  rw [(sameFrame_storeAll _ grown).path, hfrom.path]

theorem Holds.push (h : cache.Holds ext strings messages) {env : PushEnv} (henv : env.Succeeds)
    (hmax : cache.nextSize ext message ≤ maxCacheSize)
    (hfits : cache.nextSize ext message ≤ cache.size + cacheCapability) :
    ∃ next, cache.push ext env message = (true, next)
      ∧ next.Holds ext strings (messages ++ [message])
      ∧ next.object.path = cache.object.path := by
  obtain ⟨next, hpush, hcounts, hpath⟩ := h.counts.push henv hmax hfits
  refine ⟨next, hpush, Counts.holds ?_, hpath⟩
  rw [List.length_append, List.length_singleton, UInt32.ofNat_add]
  exact hcounts

/-! ### Clearing -/

/-- The configuration fits behind the header of a file of the initial capacity. -/
def ConfigFits (ext : Externals) (strings : TrackDiskCacheConfig) : Prop :=
  (ext.config.serialize strings).length ≤ cacheCapability - cacheHeaderSize

theorem WholeMapped.resetHeader (h : cache.WholeMapped) {env : ResetEnv} (henv : env.Succeeds) :
    ∃ cleared, cache.resetHeader env = (true, cleared) ∧ cleared.WholeMapped
      ∧ SameFrame cache cleared
      ∧ cleared.header = { cache.header with
          magic := cacheMagic, verCode := cacheVersionCode, recordCount := 0,
          recordSize := 0 } := by
  let stores := [(0, cacheMagic), (4, le32 cacheVersionCode), (20, le32 0), (24, le32 0)]
  refine ⟨cache.storeAll stores, ?_, h.storeAll stores, sameFrame_storeAll stores cache, ?_⟩
  · simp only [OpenCache.resetHeader, h.mapped.isMapped, if_true, henv.commit, stores]
  · rw [(h.storeAll stores).header_eq, h.mapped.memory_storeAll, h.header_eq]
    simp only [stores, List.foldl_cons, List.foldl_nil, CacheHeader.decode_write_recordSize,
      CacheHeader.decode_write_recordCount, CacheHeader.decode_write_verCode]
    rw [CacheHeader.decode_write_magic rfl]

theorem WholeMapped.shrink (h : cache.WholeMapped) {env : ResetEnv} (henv : env.Succeeds) :
    ∃ shrunk, cache.shrink env = (true, shrunk) ∧ shrunk.WholeMapped
      ∧ shrunk.disk.size = cacheCapability ∧ shrunk.header = cache.header
      ∧ shrunk.object.hash = cache.object.hash ∧ shrunk.object.path = cache.object.path
      ∧ shrunk.object.config = cache.object.config := by
  obtain ⟨beyond, hbeyond⟩ := Option.isSome_iff_exists.mp henv.map
  have hcap := h.capability
  have hsize := h.size_eq
  have hsmall : cacheHeaderSize ≤ cacheCapability := by decide
  by_cases hbig : cache.size > cacheCapability
  · have hwhole := wholeMapped_remap cache beyond (Nat.le_refl cacheCapability)
    refine ⟨_, ?_, hwhole, rfl, ?_, rfl, rfl, rfl⟩
    · simp only [OpenCache.shrink, hbig, if_true, h.mapped.isMapped, henv.unmap, henv.resize,
        Bool.not_true, Bool.false_eq_true, if_false, hbeyond]
    · rw [hwhole.header_eq, h.header_eq]
      exact CacheHeader.decode_congr fun i hi => h.memory_remap (by omega) (by omega)
  · refine ⟨cache, ?_, h, by omega, rfl, rfl, rfl, rfl⟩
    simp only [OpenCache.shrink, hbig, if_false]

theorem WholeMapped.saveConfig (h : cache.WholeMapped) {env : ResetEnv} (henv : env.Succeeds)
    {config : TrackerConfig} (hconfig : cache.object.config = some config)
    (hhash : cache.object.hash = config.strings.freshHash) (hfits : ConfigFits ext config.strings)
    (hmagic : cache.header.magic = cacheMagic) (hver : cache.header.verCode = cacheVersionCode)
    (hcount : cache.header.recordCount = 0) (hzero : cache.header.recordSize = 0) :
    ∃ saved, cache.saveConfig ext env = (true, saved) ∧ saved.Holds ext config.strings []
      ∧ saved.object.path = cache.object.path ∧ saved.disk.size = cache.disk.size := by
  let bytes := ext.config.serialize config.strings
  let stores := [(cacheHeaderSize, bytes), (16, le32 (UInt32.ofNat bytes.length)),
    (8, le64 cache.object.hash)]
  have hcap := h.capability
  have hsize := h.size_eq
  have hlimit : cacheCapability ≤ maxCacheSize := by decide
  have hsmall : cacheHeaderSize ≤ cacheCapability := by decide
  have hbytes : bytes.length ≤ cacheCapability - cacheHeaderSize := hfits
  have hframe := sameFrame_storeAll stores cache
  have hwhole := h.storeAll stores
  have hmemory : (cache.storeAll stores).memory = ((cache.memory.write cacheHeaderSize bytes).write
      16 (le32 (UInt32.ofNat bytes.length))).write 8 (le64 cache.object.hash) :=
    h.mapped.memory_storeAll stores
  have hend : layoutEnd ext config.strings [] = cacheHeaderSize + bytes.length := rfl
  refine ⟨cache.storeAll stores, ?_, ⟨hwhole, ?_, ⟨config, ?_, rfl⟩, ?_, ?_, rfl, ?_, ?_⟩, ?_,
    hframe.size⟩
  · have hroom : ¬ bytes.length > cache.size - cacheHeaderSize := by omega
    have hsame : ¬ config.hash ≠ cache.object.hash := by
      rw [config.hash_eq, hhash]
      simp
    simp only [OpenCache.saveConfig, hconfig, hsame, hroom, if_false, henv.serialize,
      Bool.not_true, Bool.false_eq_true, h.mapped.isMapped, if_true, henv.commitConfig, stores,
      bytes]
  · rw [hframe.hash, hhash]
  · rw [hframe.config, hconfig]
  · rw [hmemory, CacheHeader.decode_write_configHash, CacheHeader.decode_write_configSize,
      CacheHeader.decode_write_of_le (Nat.le_refl _), ← h.header_eq, hhash]
    simp only [expectedHeader, CacheHeader.mk.injEq, hmagic, hver, hcount, hzero]
    exact ⟨trivial, trivial, trivial, rfl, rfl, rfl⟩
  · have hoffset : cacheHeaderSize = 28 := rfl
    rw [hmemory, Memory.read_write_disjoint (by simp [hoffset]),
      Memory.read_write_disjoint (by simp [hoffset])]
    exact Memory.read_write_self
  · rw [hframe.size, hend]
    omega
  · rw [hend]
    omega
  · rw [hframe.path]

/-- **Clearing empties**, whatever the file held before. -/
theorem WholeMapped.reset (h : cache.WholeMapped) {env : ResetEnv} (henv : env.Succeeds)
    {config : TrackerConfig} (hconfig : cache.object.config = some config)
    (hhash : cache.object.hash = config.strings.freshHash)
    (hfits : ConfigFits ext config.strings) :
    ∃ next, cache.reset ext env = (true, next) ∧ next.Holds ext config.strings []
      ∧ next.object.path = cache.object.path ∧ next.disk.size = cacheCapability := by
  obtain ⟨cleared, hcleared, hwhole, hframe, hheader⟩ := h.resetHeader henv
  obtain ⟨shrunk, hshrunk, hwhole', hsize, hheader', hhash', hpath', hconfig'⟩ :=
    hwhole.shrink henv
  rw [hframe.config, hconfig] at hconfig'
  rw [hframe.hash, hhash] at hhash'
  rw [hframe.path] at hpath'
  rw [hheader] at hheader'
  obtain ⟨saved, hsaved, hholds, hpath, hsize'⟩ := hwhole'.saveConfig henv hconfig' hhash'
    hfits (by rw [hheader']) (by rw [hheader']) (by rw [hheader']) (by rw [hheader'])
  refine ⟨saved, ?_, hholds, hpath.trans hpath', hsize'.trans hsize⟩
  simp only [OpenCache.reset, hcleared, hshrunk, hsaved]

/-! ### Opening -/

variable {hash : UInt64} {path : Str} {disk : FileData}

theorem attach_wholeMapped {opened : OpenCache} {env : InitEnv} (henv : env.Succeeds)
    (hcur : opened.object.file.curSize = opened.disk.size)
    (hcap : cacheCapability ≤ opened.disk.size) :
    (opened.attach env).WholeMapped ∧ (opened.attach env).disk = opened.disk
      ∧ (opened.attach env).object.hash = opened.object.hash
      ∧ (opened.attach env).object.path = opened.object.path
      ∧ (opened.attach env).object.config = opened.object.config := by
  obtain ⟨beyond, hbeyond⟩ := Option.isSome_iff_exists.mp henv.map
  have hpos : 0 < cacheCapability := by decide
  have hsize : opened.size = opened.disk.size := by
    rw [OpenCache.size, File.size, if_pos (by omega), hcur]
  have hattach : opened.attach env = opened.setPtr (.mapping opened.disk.size beyond) := by
    simp only [OpenCache.attach, hbeyond, hsize]
  rw [hattach]
  exact ⟨⟨⟨⟨beyond, rfl⟩, Nat.le_refl _⟩, hcur, hcap⟩, rfl, rfl, rfl, rfl⟩

/-- **A new file**: the cache that is created on it is empty. -/
theorem openAt_absent {config : TrackerConfig} (hhash : hash = config.strings.freshHash)
    (hfits : ConfigFits ext config.strings) {env : InitEnv} (henv : env.Succeeds)
    (path : Str) :
    ∃ cache, openAt ext hash path (some config) none env = (true, cache)
      ∧ cache.Holds ext config.strings [] ∧ cache.object.path = path
      ∧ cache.disk.size = cacheCapability := by
  let opened : OpenCache :=
    (OpenCache.mk { DiskCache.construct hash path (some config) with file := ⟨0⟩ }
      FileData.empty).resize cacheCapability
  obtain ⟨hwhole, _, hhash', hpath', hconfig'⟩ :=
    @attach_wholeMapped opened env henv rfl (Nat.le_refl _)
  obtain ⟨cache, hreset, hholds, hpath, hsize⟩ :=
    hwhole.reset henv.reset hconfig' (hhash'.trans hhash) hfits
  refine ⟨cache, ?_, hholds, hpath.trans hpath', hsize⟩
  have hsmall : FileData.empty.size < cacheCapability := by decide
  simp only [openAt, henv.openFile, if_true, Option.getD_none, OpenCache.init, hsmall, henv.resize]
  exact hreset

/-- A configuration that does not fit is refused. -/
theorem openAt_absent_unfit {config : TrackerConfig} (hunfit : ¬ ConfigFits ext config.strings)
    {env : InitEnv} (henv : env.Succeeds) (path : Str) :
    (openAt ext hash path (some config) none env).1 = false := by
  let opened : OpenCache :=
    (OpenCache.mk { DiskCache.construct hash path (some config) with file := ⟨0⟩ }
      FileData.empty).resize cacheCapability
  obtain ⟨hwhole, _, _, _, hconfig⟩ := @attach_wholeMapped opened env henv rfl (Nat.le_refl _)
  obtain ⟨cleared, hcleared, hwhole', hframe, _⟩ := hwhole.resetHeader henv.reset
  obtain ⟨shrunk, hshrunk, hwhole'', hsize, _, _, _, hconfig'⟩ := hwhole'.shrink henv.reset
  rw [hframe.config, hconfig] at hconfig'
  have hroom : (ext.config.serialize config.strings).length > shrunk.size - cacheHeaderSize := by
    rw [hwhole''.size_eq, hsize]
    exact Nat.not_le.mp hunfit
  have hsaved : (shrunk.saveConfig ext env.reset).1 = false := by
    rw [OpenCache.saveConfig, hconfig']
    dsimp only [opened, OpenCache.resize, DiskCache.construct]
    by_cases hsame : config.hash ≠ shrunk.object.hash
    · rw [if_pos hsame]
    · rw [if_neg hsame, if_pos hroom]
  have hreset : ((opened.attach env).reset ext env.reset).1 = false := by
    simp only [OpenCache.reset, hcleared, hshrunk]
    exact hsaved
  have hsmall : FileData.empty.size < cacheCapability := by decide
  simp only [openAt, henv.openFile, if_true, Option.getD_none, OpenCache.init, hsmall, henv.resize]
  exact hreset

theorem strings_of_given {given : Option TrackerConfig} {config : TrackerConfig}
    (h : given = none ∨ given = some config) :
    ∀ other, given = some other → other.strings = config.strings := by
  intro other hother
  rcases h with rfl | rfl
  · cases hother
  · rw [Option.some.inj hother]

/-- The cache `Init` has attached to a file that is large enough. -/
def attachedTo (hash : UInt64) (path : Str) (config : Option TrackerConfig) (disk : FileData)
    (env : InitEnv) : OpenCache :=
  (OpenCache.mk { DiskCache.construct hash path config with file := ⟨disk.size⟩ } disk).attach env

theorem attachedTo_wholeMapped {env : InitEnv} (henv : env.Succeeds)
    (hcap : cacheCapability ≤ disk.size) (hash : UInt64) (path : Str)
    (config : Option TrackerConfig) :
    (attachedTo hash path config disk env).WholeMapped
      ∧ (attachedTo hash path config disk env).disk = disk
      ∧ (attachedTo hash path config disk env).object.hash = hash
      ∧ (attachedTo hash path config disk env).object.path = path
      ∧ (attachedTo hash path config disk env).object.config = config :=
  attach_wholeMapped henv rfl hcap

/-- The configuration is read from the mapping, or from the file. -/
def configMemory (cache : OpenCache) : Memory :=
  if cache.isMapped then cache.memory else cache.disk.byte

/-- The count of the records is not checked. -/
theorem checkValid_of_expected {cache : OpenCache} {count : UInt32}
    (hheader : cache.header = { expectedHeader ext strings messages with recordCount := count })
    (hhash : cache.object.hash = strings.freshHash) (hend : cache.areaEnd ≤ cache.size) :
    cache.checkValid = true := by
  simp only [OpenCache.checkValid, hheader, expectedHeader, decide_eq_true_eq]
  exact ⟨trivial, hhash.symm, trivial, hend⟩

/-- Opening a file that passes `CheckValid` and has a configuration saved in it changes nothing but
the configuration of the object. -/
theorem openAt_valid {config : Option TrackerConfig} {env : InitEnv} (hopen : env.openFile = true)
    (hcap : cacheCapability ≤ disk.size) (hlossless : ext.Lossless)
    (hhash : hash = strings.freshHash)
    (hvalid : (attachedTo hash path config disk env).checkValid = true)
    (hsize : (attachedTo hash path config disk env).header.configSize.toNat
      = (ext.config.serialize strings).length)
    (hsaved : (attachedTo hash path config disk env).configMemory.read cacheHeaderSize
      (ext.config.serialize strings).length = ext.config.serialize strings) :
    openAt ext hash path config (some disk) env
      = (true, { attachedTo hash path config disk env with
          object := { (attachedTo hash path config disk env).object with
            config := some (config.getD strings.toConfig) } }) := by
  have hattachedHash : (attachedTo hash path config disk env).object.hash = hash := by
    rw [attachedTo, attach]
    cases env.map <;> rfl
  have hattachedConfig : (attachedTo hash path config disk env).object.config = config := by
    rw [attachedTo, attach]
    cases env.map <;> rfl
  have hbig : ¬ disk.size < cacheCapability := Nat.not_lt.mpr hcap
  have hinit : openAt ext hash path config (some disk) env
      = if config = none then (attachedTo hash path config disk env).loadConfig ext
        else (true, attachedTo hash path config disk env) := by
    have hattached : (OpenCache.mk { DiskCache.construct hash path config with
        file := ⟨disk.size⟩ } disk).attach env = attachedTo hash path config disk env := rfl
    simp only [openAt, hopen, if_true, Option.getD_some, OpenCache.init, hbig, if_false, hattached,
      hvalid, Bool.true_eq_false]
    rfl
  generalize attachedTo hash path config disk env = attached at *
  cases config with
  | some given =>
      rw [hinit, if_neg (by simp), Option.getD_some, ← hattachedConfig]
  | none =>
      have hroom : ¬ cacheHeaderSize + (ext.config.serialize strings).length > attached.size := by
        simp only [OpenCache.checkValid, OpenCache.areaEnd, hsize, decide_eq_true_eq] at hvalid
        omega
      have hfresh : ¬ strings.toConfig.hash ≠ attached.object.hash := by
        rw [strings.toConfig.hash_eq, hattachedHash]
        exact not_not_intro hhash.symm
      unfold configMemory at hsaved
      rw [hinit, if_pos rfl]
      simp only [OpenCache.loadConfig, hsize, hroom, if_false, hsaved, hlossless.config strings,
        hfresh, Option.getD_none]

/-- **A file at rest**: opening it, with its configuration or without, finds what it holds. -/
theorem openAt_counts (hfile : FileCounts ext disk strings messages count)
    (hlossless : ext.Lossless)
    (hhash : hash = strings.freshHash) {config : Option TrackerConfig}
    (hconfig : ∀ given, config = some given → given.strings = strings) {env : InitEnv}
    (henv : env.Succeeds) (path : Str) :
    ∃ cache, openAt ext hash path config (some disk) env = (true, cache)
      ∧ cache.Counts ext strings messages count ∧ cache.object.path = path := by
  obtain ⟨hwhole, hdisk, hhash', hpath', _⟩ :=
    attachedTo_wholeMapped henv hfile.capability hash path config
  have hlayout : CountedLayout ext (attachedTo hash path config disk env).memory
      (attachedTo hash path config disk env).disk.size strings messages count := by
    rw [hdisk]
    refine hfile.layout.congr hfile.layout.fits fun i hi => ?_
    have hlt : i < disk.size := Nat.lt_of_lt_of_le hi hfile.layout.fits
    rw [hwhole.mapped.memory_of_lt (by rw [hdisk]; exact hlt), hdisk]
  have hvalid : (attachedTo hash path config disk env).checkValid = true := by
    have hareaEnd : (attachedTo hash path config disk env).areaEnd
        = layoutEnd ext strings messages := by
      rw [OpenCache.areaEnd, hwhole.header_eq, hlayout.configSize, hlayout.recordSize, layoutEnd]
    refine checkValid_of_expected (hwhole.header_eq.trans hlayout.header) (hhash'.trans hhash) ?_
    rw [hareaEnd, hwhole.size_eq]
    exact hlayout.fits
  have hopen := openAt_valid henv.openFile hfile.capability hlossless hhash hvalid
    (by rw [hwhole.header_eq, hlayout.configSize])
    (by rw [configMemory, hwhole.mapped.isMapped, if_pos rfl, hlayout.config])
  refine ⟨_, hopen, ⟨?_, hhash'.trans hhash, ⟨_, rfl, ?_⟩, hlayout⟩, hpath'⟩
  · exact ⟨⟨hwhole.mapped.ptr, hwhole.mapped.le_size⟩, hwhole.curSize, hwhole.capability⟩
  · cases config with
    | some given => exact hconfig given rfl
    | none => rfl

theorem openAt_holds (hfile : FileHolds ext disk strings messages) (hlossless : ext.Lossless)
    (hhash : hash = strings.freshHash) {config : Option TrackerConfig}
    (hconfig : ∀ given, config = some given → given.strings = strings) {env : InitEnv}
    (henv : env.Succeeds) (path : Str) :
    ∃ cache, openAt ext hash path config (some disk) env = (true, cache)
      ∧ cache.Holds ext strings messages ∧ cache.object.path = path := by
  obtain ⟨cache, hopen, hcounts, hpath⟩ := openAt_counts
    ⟨hfile.capability, hfile.layout.counted⟩ hlossless hhash hconfig henv path
  exact ⟨cache, hopen, hcounts.holds, hpath⟩

end OpenCache

end TapSdk.Tracker
