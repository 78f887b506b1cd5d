import TapSdk.Tracker.Proof.PushFailure
import TapSdk.Tracker.WireFormat

/-!
# The mapped and the unmapped branch

Every operation of the cache is written twice, for a mapped file and for `header_buf`. Two runs of
the same calls are compared, one in which mapping always succeeds and one in which it never does.
They agree until the first push. The unmapped push writes the pointer `cache_header` over the first
bytes of the file and leaves the counters in the file as they were.
-/

namespace TapSdk.Tracker

open Library

/-! ### The calls, and what is seen of them -/

inductive CacheCall where
  | push (message : TrackMessageImpl)
  | load (clock : Nat → UInt32)
  | getCount
  | clear
  | reopen (config : Option TrackerConfig)

/-- How the file operations inside a call end, whichever call it is. -/
structure CacheEnv where
  push : PushEnv
  reset : ResetEnv
  init : InitEnv

inductive Returned where
  | opened
  | pushed (ok : Bool)
  | loaded (messages : List TrackMessageImpl)
  | counted (count : UInt32)
  | cleared

structure Observed where
  returned : Returned
  -- The header, the configuration and the records, as they are on disk.
  areas : List UInt8

variable (ext : Externals)

namespace OpenCache

def areas (cache : OpenCache) : List UInt8 := cache.disk.byte.read 0 cache.areaEnd

/-- One call; `none` when it throws. -/
def call (cache : OpenCache) (env : CacheEnv) : CacheCall → Option (Returned × OpenCache)
  | .push message =>
      let (ok, next) := cache.push ext env.push message
      some (.pushed ok, next)
  | .load clock => some (.loaded (cache.load ext clock), cache)
  | .getCount => some (.counted cache.getCount, cache)
  | .clear =>
      match cache.reset ext env.reset with
      | (true, next) => some (.cleared, next)
      | (false, _) => none
  | .reopen config =>
      match openAt ext cache.object.hash cache.object.path config (some cache.disk) env.init with
      | (true, next) => some (.opened, next)
      | (false, _) => none

/-- What is seen of a sequence of calls, up to one that throws. -/
def trace (cache : OpenCache) : List (CacheCall × CacheEnv) → List (Option Observed)
  | [] => []
  | (call, env) :: rest =>
      match cache.call ext env call with
      | some (returned, next) => some ⟨returned, next.areas⟩ :: next.trace rest
      | none => [none]

def traceFrom (config : TrackerConfig) (path : Str) (env : InitEnv)
    (calls : List (CacheCall × CacheEnv)) : List (Option Observed) :=
  match openAt ext config.hash path (some config) none env with
  | (true, cache) => some ⟨.opened, cache.areas⟩ :: cache.trace ext calls
  | (false, _) => [none]

end OpenCache

/-! ### Mapping always succeeds, mapping always fails -/

structure CacheEnv.Maps (env : CacheEnv) : Prop where
  push : env.push.Succeeds
  reset : env.reset.Succeeds
  init : env.init.Succeeds

/-- The bytes written over the header are no more than the file has. -/
structure ResetEnv.Unmaps (env : ResetEnv) : Prop where
  map : env.map = none
  resize : env.resize = true
  serialize : env.serialize = true
  rawConfig : env.rawConfig.length ≤ cacheCapability
  writeRawConfig : env.writeRawConfig = .full
  flush : env.flush = true
  writeConfig : env.writeConfig = .full
  writeHeader : env.writeHeader = .full
  flushConfig : env.flushConfig = true

structure PushEnv.Unmaps (env : PushEnv) : Prop where
  map : env.map = none
  resize : env.resize = true
  serialize : env.serialize = .full
  writeRecordHeader : env.writeRecordHeader = .full
  writeContent : env.writeContent = .full
  writeCacheHeader : env.writeCacheHeader = .full
  pointer : env.pointer.length ≤ 8
  flush : env.flush = true

structure InitEnv.Unmaps (env : InitEnv) : Prop where
  openFile : env.openFile = true
  resize : env.resize = true
  map : env.map = none
  readHeader : env.readHeader = none
  reset : env.reset.Unmaps

structure CacheEnv.Unmaps (env : CacheEnv) : Prop where
  push : env.push.Unmaps
  reset : env.reset.Unmaps
  init : env.init.Unmaps

variable {ext}

namespace OpenCache

variable {cache : OpenCache} {strings : TrackDiskCacheConfig}

/-! ### The unmapped cache while it is empty -/

/-- The header is in `header_buf`, and the file has its initial size. -/
structure Buffered (strings : TrackDiskCacheConfig) (cache : OpenCache) : Prop where
  ptr : cache.object.cacheHeader = .headerBuf
  curSize : cache.object.file.curSize = cacheCapability
  size : cache.disk.size = cacheCapability
  hash : cache.object.hash = strings.freshHash

structure EmptyBuffered (ext : Externals) (strings : TrackDiskCacheConfig) (cache : OpenCache) :
    Prop extends Buffered strings cache where
  config : ∃ given, cache.object.config = some given ∧ given.strings = strings
  headerBuf : cache.object.headerBuf = expectedHeader ext strings []
  header : CacheHeader.decode cache.disk.byte = expectedHeader ext strings []
  saved : cache.disk.byte.read cacheHeaderSize (ext.config.serialize strings).length
    = ext.config.serialize strings

theorem Buffered.size_eq (h : cache.Buffered strings) : cache.size = cacheCapability := by
  rw [OpenCache.size, File.size, h.curSize, if_pos (by decide)]

theorem Buffered.isMapped (h : cache.Buffered strings) : cache.isMapped = false := by
  simp only [OpenCache.isMapped, h.ptr]

theorem Buffered.header_eq (h : cache.Buffered strings) :
    cache.header = cache.object.headerBuf := by
  simp only [OpenCache.header, h.ptr]

theorem configSize_toNat (hfits : ConfigFits ext strings) :
    (expectedHeader ext strings []).configSize.toNat = (ext.config.serialize strings).length := by
  have hlimit : cacheCapability < 2 ^ 32 := by decide
  unfold ConfigFits at hfits
  simp only [expectedHeader, UInt32.toNat_ofNat']
  omega

theorem EmptyBuffered.areaEnd (h : cache.EmptyBuffered ext strings)
    (hfits : ConfigFits ext strings) :
    cache.areaEnd = cacheHeaderSize + (ext.config.serialize strings).length := by
  rw [OpenCache.areaEnd, h.header_eq, h.headerBuf, configSize_toNat hfits]
  rfl

theorem read_areas {memory : Memory}
    (hheader : CacheHeader.decode memory = expectedHeader ext strings [])
    (hsaved : memory.read cacheHeaderSize (ext.config.serialize strings).length
      = ext.config.serialize strings) :
    memory.read 0 (cacheHeaderSize + (ext.config.serialize strings).length)
      = (expectedHeader ext strings []).bytes ++ ext.config.serialize strings := by
  rw [Memory.read_add, ← CacheHeader.bytes_decode, hheader, Nat.zero_add, hsaved]

theorem EmptyBuffered.areas (h : cache.EmptyBuffered ext strings)
    (hfits : ConfigFits ext strings) :
    cache.areas = (expectedHeader ext strings []).bytes ++ ext.config.serialize strings := by
  rw [OpenCache.areas, h.areaEnd hfits, read_areas h.header h.saved]

theorem Holds.areas_nil (h : cache.Holds ext strings []) :
    cache.areas = (expectedHeader ext strings []).bytes ++ ext.config.serialize strings := by
  have hend : cache.areaEnd = cacheHeaderSize + (ext.config.serialize strings).length := h.areaEnd
  rw [OpenCache.areas, hend, read_areas h.closed.layout.header h.closed.layout.config]

/-! ### Clearing and opening without a mapping -/

theorem Buffered.resetHeader (h : cache.Buffered strings) {env : ResetEnv} (henv : env.Unmaps)
    {given : TrackerConfig} (hgiven : cache.object.config = some given) :
    ∃ cleared, cache.resetHeader env = (true, cleared) ∧ cleared.Buffered strings
      ∧ cleared.object.config = some given
      ∧ cleared.object.headerBuf = { cache.object.headerBuf with
          magic := cacheMagic, verCode := cacheVersionCode, recordCount := 0,
          recordSize := 0 } := by
  let cleared : OpenCache := { cache.setHeaderBuf { cache.object.headerBuf with
      magic := cacheMagic, verCode := cacheVersionCode, recordCount := 0, recordSize := 0 } with
    disk := cache.disk.pwrite 0 env.rawConfig }
  refine ⟨cleared, ?_, ⟨h.ptr, h.curSize, ?_, h.hash⟩, hgiven, rfl⟩
  · simp only [cleared, OpenCache.resetHeader, h.isMapped, Bool.false_eq_true, if_false,
      setHeaderBuf, hgiven, reduceCtorEq, FileData.write, henv.writeRawConfig, henv.flush,
      Bool.not_true]
  · have hsize := h.size
    have hraw := henv.rawConfig
    exact (FileData.pwrite_size (by omega)).trans hsize

theorem Buffered.saveConfig (h : cache.Buffered strings) {env : ResetEnv} (henv : env.Unmaps)
    {given : TrackerConfig} (hgiven : cache.object.config = some given)
    (hstrings : given.strings = strings) (hfits : ConfigFits ext strings)
    (hmagic : cache.object.headerBuf.magic = cacheMagic)
    (hver : cache.object.headerBuf.verCode = cacheVersionCode)
    (hcount : cache.object.headerBuf.recordCount = 0)
    (hzero : cache.object.headerBuf.recordSize = 0) :
    ∃ saved, cache.saveConfig ext env = (true, saved) ∧ saved.EmptyBuffered ext strings := by
  subst hstrings
  let bytes := ext.config.serialize given.strings
  have hlarge : cacheHeaderSize ≤ cacheCapability := by decide
  have hbytes : bytes.length ≤ cacheCapability - cacheHeaderSize := hfits
  have hheader : ({ cache.object.headerBuf with
      configSize := UInt32.ofNat bytes.length, configHash := cache.object.hash } : CacheHeader)
      = expectedHeader ext given.strings [] := by
    simp only [expectedHeader, CacheHeader.mk.injEq, hmagic, hver, hcount, hzero, h.hash]
    exact ⟨trivial, trivial, trivial, rfl, rfl, rfl⟩
  have hlength : (expectedHeader ext given.strings []).bytes.length = cacheHeaderSize :=
    CacheHeader.bytes_length rfl
  have hsize : (cache.disk.pwrite cacheHeaderSize bytes).size = cacheCapability := by
    have hold := h.size
    exact (FileData.pwrite_size (by omega)).trans hold
  let saved : OpenCache := { cache.setHeaderBuf (expectedHeader ext given.strings []) with
    disk := (cache.disk.pwrite cacheHeaderSize bytes).pwrite 0
      (expectedHeader ext given.strings []).bytes }
  refine ⟨saved, ?_, ⟨h.ptr, h.curSize, ?_, h.hash⟩, ⟨given, hgiven, rfl⟩, rfl, ?_, ?_⟩
  · have hroom : ¬ bytes.length > cache.size - cacheHeaderSize := by
      rw [h.size_eq]
      omega
    have hsame : ¬ given.hash ≠ cache.object.hash := by
      rw [given.hash_eq, h.hash]
      exact not_not_intro rfl
    simp only [OpenCache.saveConfig, hgiven, hsame, hroom, if_false, henv.serialize, Bool.not_true,
      Bool.false_eq_true, h.isMapped, FileData.write, henv.writeConfig, henv.writeHeader,
      henv.flushConfig, saved, bytes]
    rw [hheader]
  · exact (FileData.pwrite_size (by omega)).trans hsize
  · simp only [saved, FileData.pwrite_byte]
    exact CacheHeader.decode_write_bytes rfl
  · simp only [saved, FileData.pwrite_byte]
    rw [Memory.read_write_disjoint (by omega)]
    exact Memory.read_write_self

theorem Buffered.reset (h : cache.Buffered strings) {env : ResetEnv} (henv : env.Unmaps)
    {given : TrackerConfig} (hgiven : cache.object.config = some given)
    (hstrings : given.strings = strings) (hfits : ConfigFits ext strings) :
    ∃ next, cache.reset ext env = (true, next) ∧ next.EmptyBuffered ext strings := by
  obtain ⟨cleared, hcleared, hbuffered, hconfig, hheader⟩ := h.resetHeader henv hgiven
  have hshrink : cleared.shrink env = (true, cleared) := by
    simp only [OpenCache.shrink, hbuffered.size_eq, gt_iff_lt, Nat.lt_irrefl, if_false]
  obtain ⟨saved, hsaved, hempty⟩ := hbuffered.saveConfig henv hconfig hstrings hfits
    (by rw [hheader]) (by rw [hheader]) (by rw [hheader]) (by rw [hheader])
  refine ⟨saved, ?_, hempty⟩
  simp only [OpenCache.reset, hcleared, hshrink, hsaved]

theorem Buffered.reset_unfit (h : cache.Buffered strings) {env : ResetEnv} (henv : env.Unmaps)
    {given : TrackerConfig} (hgiven : cache.object.config = some given)
    (hstrings : given.strings = strings) (hunfit : ¬ ConfigFits ext strings) :
    (cache.reset ext env).1 = false := by
  subst hstrings
  obtain ⟨cleared, hcleared, hbuffered, hconfig, hheader⟩ := h.resetHeader henv hgiven
  have hshrink : cleared.shrink env = (true, cleared) := by
    simp only [OpenCache.shrink, hbuffered.size_eq, gt_iff_lt, Nat.lt_irrefl, if_false]
  have hroom : (ext.config.serialize given.strings).length > cleared.size - cacheHeaderSize := by
    rw [hbuffered.size_eq]
    exact Nat.not_le.mp hunfit
  have hsame : ¬ given.hash ≠ cleared.object.hash := by
    rw [given.hash_eq, hbuffered.hash]
    exact not_not_intro rfl
  simp only [OpenCache.reset, hcleared, hshrink, OpenCache.saveConfig, hconfig, hsame, hroom,
    if_false, if_true]

theorem openAt_absent_buffered {config : TrackerConfig} {env : InitEnv} (henv : env.Unmaps)
    (path : Str) :
    ∃ opened : OpenCache, opened.Buffered config.strings ∧ opened.object.config = some config
      ∧ openAt ext config.hash path (some config) none env = opened.reset ext env.reset := by
  let opened : OpenCache :=
    ((OpenCache.mk { DiskCache.construct config.hash path (some config) with file := ⟨0⟩ }
      FileData.empty).resize cacheCapability).attach env
  refine ⟨opened, ⟨?_, ?_, ?_, ?_⟩, ?_, ?_⟩
  · simp only [opened, OpenCache.attach, henv.map]
    rfl
  · simp only [opened, OpenCache.attach, henv.map]
    rfl
  · simp only [opened, OpenCache.attach, henv.map]
    rfl
  · simp only [opened, OpenCache.attach, henv.map]
    exact config.hash_eq
  · simp only [opened, OpenCache.attach, henv.map]
    rfl
  · have hsmall : FileData.empty.size < cacheCapability := by decide
    simp only [openAt, henv.openFile, if_true, Option.getD_none, OpenCache.init, hsmall,
      henv.resize, opened]
    rfl

theorem EmptyBuffered.reopen (h : cache.EmptyBuffered ext strings) (hlossless : ext.Lossless)
    (hfits : ConfigFits ext strings) {given : Option TrackerConfig}
    (hgiven : ∀ other, given = some other → other.strings = strings) {env : InitEnv}
    (henv : env.Unmaps) (path : Str) :
    ∃ next, openAt ext cache.object.hash path given (some cache.disk) env = (true, next)
      ∧ next.EmptyBuffered ext strings := by
  have hattached : attachedTo cache.object.hash path given cache.disk env
      = ⟨{ DiskCache.construct cache.object.hash path given with
          file := ⟨cache.disk.size⟩, headerBuf := expectedHeader ext strings [] }, cache.disk⟩ := by
    simp only [attachedTo, OpenCache.attach, henv.map, henv.readHeader, Option.getD_none, h.header]
    rfl
  have hbuffered : (attachedTo cache.object.hash path given cache.disk env).Buffered strings := by
    rw [hattached]
    exact ⟨rfl, h.size, h.size, h.hash⟩
  have hheader : (attachedTo cache.object.hash path given cache.disk env).header
      = expectedHeader ext strings [] := by
    rw [hattached]
    rfl
  have hconfigSize :
    (attachedTo cache.object.hash path given cache.disk env).header.configSize.toNat
      = (ext.config.serialize strings).length := by
    rw [hheader]
    exact configSize_toNat hfits
  have hvalid : (attachedTo cache.object.hash path given cache.disk env).checkValid = true := by
    have hexpected := hheader.trans (expectedHeader_recordCount strings []).symm
    refine checkValid_of_expected hexpected hbuffered.hash ?_
    have hlarge : cacheHeaderSize ≤ cacheCapability := by decide
    have hroom : (ext.config.serialize strings).length ≤ cacheCapability - cacheHeaderSize := hfits
    have hzero : (expectedHeader ext strings []).recordSize.toNat = 0 := rfl
    rw [OpenCache.areaEnd, hconfigSize, hheader, hzero, hbuffered.size_eq]
    omega
  have hsaved : (attachedTo cache.object.hash path given cache.disk env).configMemory.read
      cacheHeaderSize (ext.config.serialize strings).length = ext.config.serialize strings := by
    rw [configMemory, hbuffered.isMapped, if_neg Bool.false_ne_true, hattached]
    exact h.saved
  refine ⟨_,
    openAt_valid henv.openFile (Nat.le_of_eq h.size.symm) hlossless h.hash hvalid hconfigSize
    hsaved, ?_⟩
  rw [hattached]
  refine ⟨⟨rfl, h.size, h.size, h.hash⟩, ⟨_, rfl, ?_⟩, rfl, h.header, h.saved⟩
  cases given with
  | some config => exact hgiven config rfl
  | none => rfl

/-! ### The first push -/

/-- The counters in the file are not updated by an unmapped push. -/
theorem EmptyBuffered.push (h : cache.EmptyBuffered ext strings) {env : PushEnv}
    (henv : env.Unmaps) (message : TrackMessageImpl) :
    (CacheHeader.decode (cache.push ext env message).2.disk.byte).recordCount = 0 := by
  have hzero : fromLe32 (cache.disk.byte.read 20 4) = 0 := congrArg CacheHeader.recordCount h.header
  by_cases hmax : cache.nextSize ext message > maxCacheSize
  · rw [push_of_gt hmax]
    exact hzero
  · have hoffset : cacheHeaderSize = 28 := rfl
    have hpointer := henv.pointer
    rcases hgrow : cache.grow env (cache.nextSize ext message) with ⟨ok, grown⟩
    have hend := grown.cacheHeaderSize_le_areaEnd
    obtain ⟨hok, hptr, hbyte⟩ : ok = true ∧ grown.object.cacheHeader = .headerBuf
        ∧ grown.disk.byte = cache.disk.byte := by
      have hmapped : (cache.resize (cache.size + cacheCapability)).isMapped = false := h.isMapped
      have hle : cache.disk.size ≤ cache.size + cacheCapability := by
        rw [h.size_eq, h.size]
        exact Nat.le_add_right _ _
      simp only [OpenCache.grow, henv.resize, if_true, hmapped, Bool.false_eq_true,
        if_false] at hgrow
      split at hgrow
      · cases hgrow
        exact ⟨rfl, h.ptr, FileData.resize_byte_of_le hle⟩
      · cases hgrow
        exact ⟨rfl, h.ptr, rfl⟩
    subst hok
    have hunmapped : grown.isMapped = false := by simp only [OpenCache.isMapped, hptr]
    simp only [OpenCache.push, hmax, if_false, hgrow, hunmapped, Bool.false_eq_true,
      appendUnmapped, henv.serialize, FileData.write, henv.writeRecordHeader, henv.writeContent,
      henv.writeCacheHeader, Bool.not_true, CacheHeader.decode, FileData.pwrite_byte]
    rw [Memory.read_write_disjoint (by omega), Memory.read_write_disjoint (by omega),
      Memory.read_write_disjoint (by omega), hbyte]
    exact hzero

end OpenCache

/-! ### Two runs of the same calls -/

def CacheCall.Regular (ext : Externals) (config : TrackerConfig) : CacheCall → Prop
  | .push message => recordHeaderSize + message.getSerializeSize ext ≤ 65536
  | .reopen given => given = none ∨ given = some config
  | _ => True

def CacheCall.isPush : CacheCall → Bool
  | .push _ => true
  | _ => false

namespace OpenCache

variable {cache buffered : OpenCache} {config : TrackerConfig}

theorem load_of_recordCount (h : cache.header.recordCount = 0) (clock : Nat → UInt32) :
    cache.load ext clock = [] := by
  have hzero : cache.header.recordCount.toNat = 0 := by rw [h]; rfl
  simp only [OpenCache.load, OpenCache.decodeArea, hzero, loadLoop, ite_self]

/-- Until the first push both caches are empty, and every call does the same on both. -/
theorem call_agrees (hlossless : ext.Lossless) (hfits : ConfigFits ext config.strings)
    (hcache : cache.Holds ext config.strings [])
    (hbuffered : buffered.EmptyBuffered ext config.strings) {call : CacheCall}
    (hregular : call.Regular ext config) (hcall : call.isPush = false) {env env' : CacheEnv}
    (henv : env.Maps) (henv' : env'.Unmaps) :
    ∃ returned next next', cache.call ext env call = some (returned, next)
      ∧ buffered.call ext env' call = some (returned, next')
      ∧ next.Holds ext config.strings [] ∧ next'.EmptyBuffered ext config.strings := by
  have hcount : cache.header.recordCount = 0 := by
    rw [hcache.whole.header_eq, hcache.layout.header]
    rfl
  have hcount' : buffered.header.recordCount = 0 := by
    rw [hbuffered.header_eq, hbuffered.headerBuf]
    rfl
  cases call with
  | push message => cases hcall
  | load clock =>
      refine ⟨.loaded [], cache, buffered, ?_, ?_, hcache, hbuffered⟩
      · rw [OpenCache.call, load_of_recordCount hcount]
      · rw [OpenCache.call, load_of_recordCount hcount']
  | getCount =>
      refine ⟨.counted 0, cache, buffered, ?_, ?_, hcache, hbuffered⟩
      · rw [OpenCache.call, OpenCache.getCount, hcount]
      · rw [OpenCache.call, OpenCache.getCount, hcount']
  | clear =>
      obtain ⟨given, hgiven, hstrings⟩ := hcache.config
      obtain ⟨given', hgiven', hstrings'⟩ := hbuffered.config
      obtain ⟨next, hreset, hholds, _⟩ := hcache.whole.reset henv.reset hgiven
        (by rw [hstrings]; exact hcache.hash) (by rw [hstrings]; exact hfits)
      obtain ⟨next', hreset', hempty⟩ := hbuffered.reset henv'.reset hgiven' hstrings' hfits
      rw [hstrings] at hholds
      refine ⟨.cleared, next, next', ?_, ?_, hholds, hempty⟩
      · simp only [OpenCache.call, hreset]
      · simp only [OpenCache.call, hreset']
  | reopen given =>
      have hsame := strings_of_given hregular
      obtain ⟨next, hopen, hholds, _⟩ := openAt_holds hcache.closed hlossless hcache.hash hsame
        henv.init cache.object.path
      obtain ⟨next', hopen', hempty⟩ := hbuffered.reopen hlossless hfits hsame henv'.init
        buffered.object.path
      refine ⟨.opened, next, next', ?_, ?_, hholds, hempty⟩
      · simp only [OpenCache.call, hopen]
      · simp only [OpenCache.call, hopen']

/-- The first push tells the two apart. -/
theorem areas_push_ne (hfits : ConfigFits ext config.strings)
    (hcache : cache.Holds ext config.strings [])
    (hbuffered : buffered.EmptyBuffered ext config.strings) {message : TrackMessageImpl}
    (hsmall : recordHeaderSize + message.getSerializeSize ext ≤ 65536) {env env' : PushEnv}
    (henv : env.Succeeds) (henv' : env'.Unmaps) :
    (cache.push ext env message).2.areas ≠ (buffered.push ext env' message).2.areas := by
  have hnext : cache.nextSize ext message ≤ cacheCapability + cacheCapability := by
    have hend : cache.areaEnd = cacheHeaderSize + (ext.config.serialize config.strings).length :=
      hcache.areaEnd
    have hlarge : cacheHeaderSize ≤ cacheCapability := by decide
    have hcap : cacheCapability = 65536 := rfl
    unfold ConfigFits at hfits
    rw [nextSize_eq, hend]
    omega
  have hlimit : cacheCapability + cacheCapability ≤ maxCacheSize := by decide
  have hsize : cacheCapability ≤ cache.size := by
    rw [hcache.whole.size_eq]
    exact hcache.whole.capability
  obtain ⟨next, hpush, hholds, _⟩ := @Holds.push ext cache config.strings [] message hcache env henv
    (by omega) (by omega)
  have hcount := hbuffered.push henv' message
  intro heq
  have hcut := congrArg (List.take cacheHeaderSize) heq
  rw [hpush] at hcut
  simp only [OpenCache.areas] at hcut
  rw [Memory.read_take next.cacheHeaderSize_le_areaEnd,
    Memory.read_take (cacheHeaderSize_le_areaEnd _)] at hcut
  rw [← CacheHeader.bytes_decode, ← CacheHeader.bytes_decode] at hcut
  have hheader :=
    CacheHeader.bytes_inj (by simp [CacheHeader.decode]) (by simp [CacheHeader.decode])
    hcut
  have hone : (CacheHeader.decode next.disk.byte).recordCount = 1 := by
    rw [hholds.closed.layout.header]
    rfl
  rw [hheader, hcount] at hone
  exact absurd hone (by decide)

theorem trace_agrees_iff (hlossless : ext.Lossless) (hfits : ConfigFits ext config.strings)
    {calls : List (CacheCall × CacheEnv × CacheEnv)}
    (hcalls : ∀ entry ∈ calls, entry.1.Regular ext config ∧ entry.2.1.Maps ∧ entry.2.2.Unmaps)
    (hcache : cache.Holds ext config.strings [])
    (hbuffered : buffered.EmptyBuffered ext config.strings) :
    cache.trace ext (calls.map fun entry => (entry.1, entry.2.1))
        = buffered.trace ext (calls.map fun entry => (entry.1, entry.2.2))
      ↔ ∀ entry ∈ calls, entry.1.isPush = false := by
  induction calls generalizing cache buffered with
  | nil => simp [OpenCache.trace]
  | cons entry calls ih =>
      obtain ⟨call, env, env'⟩ := entry
      obtain ⟨hregular, henv, henv'⟩ := hcalls (call, env, env') List.mem_cons_self
      have hrest : ∀ entry ∈ calls,
          entry.1.Regular ext config ∧ entry.2.1.Maps ∧ entry.2.2.Unmaps :=
        fun other hother => hcalls other (List.mem_cons_of_mem _ hother)
      rw [List.forall_mem_cons, List.map_cons, List.map_cons]
      cases hcall : call.isPush with
      | false =>
          obtain ⟨returned, next, next', hnext, hnext', hholds, hempty⟩ :=
            call_agrees hlossless hfits hcache hbuffered hregular hcall henv henv'
          simp only [OpenCache.trace, hnext, hnext', hholds.areas_nil, hempty.areas hfits,
            List.cons.injEq, true_and, ih hrest hholds hempty]
      | true =>
          cases call with
          | push message =>
              have hne := areas_push_ne hfits hcache hbuffered hregular henv.push henv'.push
              simp only [OpenCache.trace, OpenCache.call, List.cons.injEq, Option.some.injEq,
                Observed.mk.injEq, Bool.true_eq_false, false_and, iff_false]
              exact fun heq => hne heq.1.2
          | load clock => cases hcall
          | getCount => cases hcall
          | clear => cases hcall
          | reopen given => cases hcall

theorem traceFrom_agrees_iff (hlossless : ext.Lossless)
    (hfits : ConfigFits ext config.strings) (path : Str) {env env' : InitEnv}
    (henv : env.Succeeds) (henv' : env'.Unmaps) {calls : List (CacheCall × CacheEnv × CacheEnv)}
    (hcalls : ∀ entry ∈ calls, entry.1.Regular ext config ∧ entry.2.1.Maps ∧ entry.2.2.Unmaps) :
    traceFrom ext config path env (calls.map fun entry => (entry.1, entry.2.1))
        = traceFrom ext config path env' (calls.map fun entry => (entry.1, entry.2.2))
      ↔ ∀ entry ∈ calls, entry.1.isPush = false := by
  obtain ⟨opened, hopened, hgiven, hopen'⟩ := @openAt_absent_buffered ext config env' henv' path
  obtain ⟨cache, hopen, hholds, _⟩ := openAt_absent config.hash_eq hfits henv path
  obtain ⟨buffered, hreset, hempty⟩ := hopened.reset henv'.reset hgiven rfl hfits
  rw [hreset] at hopen'
  have hiff := trace_agrees_iff hlossless hfits hcalls hholds hempty
  simp only [traceFrom, hopen, hopen', hholds.areas_nil, hempty.areas hfits, List.cons.injEq,
    true_and, hiff]

theorem traceFrom_throws {env : InitEnv} {path : Str}
    (h : (openAt ext config.hash path (some config) none env).1 = false)
    (calls : List (CacheCall × CacheEnv)) : traceFrom ext config path env calls = [none] := by
  unfold traceFrom
  split
  · rename_i hopen
    rw [hopen] at h
    cases h
  · rfl

/-- **The two branches agree exactly when** the configuration is too large to construct a cache, or
nothing is ever pushed. -/
theorem mapped_agrees_unmapped_iff (hlossless : ext.Lossless) (config : TrackerConfig)
    (path : Str) (env env' : InitEnv) (henv : env.Succeeds) (henv' : env'.Unmaps)
    (calls : List (CacheCall × CacheEnv × CacheEnv))
    (hcalls : ∀ entry ∈ calls, entry.1.Regular ext config ∧ entry.2.1.Maps ∧ entry.2.2.Unmaps) :
    traceFrom ext config path env (calls.map fun entry => (entry.1, entry.2.1))
        = traceFrom ext config path env' (calls.map fun entry => (entry.1, entry.2.2))
      ↔ (ext.config.serialize config.strings).length > 65536 - 28
        ∨ ∀ entry ∈ calls, entry.1.isPush = false := by
  by_cases hfits : ConfigFits ext config.strings
  · have hsize : ¬ (ext.config.serialize config.strings).length > 65536 - 28 := Nat.not_lt.mpr hfits
    rw [traceFrom_agrees_iff hlossless hfits path henv henv' hcalls, or_iff_right hsize]
  · obtain ⟨opened, hopened, hgiven, hopen'⟩ := @openAt_absent_buffered ext config env' henv' path
    have hthrows := @openAt_absent_unfit ext config.hash config hfits env henv path
    have hthrows' := hopened.reset_unfit henv'.reset hgiven rfl hfits
    rw [← hopen'] at hthrows'
    rw [traceFrom_throws hthrows, traceFrom_throws hthrows']
    exact ⟨fun _ => Or.inl (Nat.not_le.mp hfits), fun _ => rfl⟩

def idealEnv : CacheEnv := ⟨PushEnv.ideal, ResetEnv.ideal, InitEnv.ideal⟩

theorem idealEnv_maps : idealEnv.Maps :=
  ⟨PushEnv.ideal_succeeds, ResetEnv.ideal_succeeds, InitEnv.ideal_succeeds⟩

/-- Everything but mapping succeeds. -/
def unmappedEnv : CacheEnv where
  push := { PushEnv.ideal with map := none, pointer := [0, 0, 0, 0, 1, 0, 0, 0] }
  reset := { ResetEnv.ideal with map := none, rawConfig := List.replicate 152 7 }
  init :=
    { InitEnv.ideal with
      map := none
      reset := { ResetEnv.ideal with map := none, rawConfig := List.replicate 152 7 } }

theorem unmappedEnv_unmaps : unmappedEnv.Unmaps := by
  have hraw : unmappedEnv.reset.rawConfig.length ≤ cacheCapability := by
    simp [unmappedEnv, cacheCapability]
  have hreset : unmappedEnv.reset.Unmaps := ⟨rfl, rfl, rfl, hraw, rfl, rfl, rfl, rfl, rfl⟩
  exact ⟨⟨rfl, rfl, rfl, rfl, rfl, rfl, by decide, rfl⟩, hreset, ⟨rfl, rfl, rfl, rfl, hreset⟩⟩

theorem mapped_agrees_unmapped_iff_reopened :
    traceFrom wireFormat plainConfig [] idealEnv.init
        [(.clear, idealEnv), (.reopen none, idealEnv), (.getCount, idealEnv)]
      = traceFrom wireFormat plainConfig [] unmappedEnv.init
        [(.clear, unmappedEnv), (.reopen none, unmappedEnv), (.getCount, unmappedEnv)] := by
  let calls : List (CacheCall × CacheEnv × CacheEnv) := [(.clear, idealEnv, unmappedEnv),
    (.reopen none, idealEnv, unmappedEnv), (.getCount, idealEnv, unmappedEnv)]
  have hcalls : ∀ entry ∈ calls, entry.1.Regular wireFormat plainConfig ∧ entry.2.1.Maps
      ∧ entry.2.2.Unmaps := by
    simp only [calls, List.forall_mem_cons, List.not_mem_nil, false_implies, implies_true,
      CacheCall.Regular, true_or, idealEnv_maps, unmappedEnv_unmaps, and_self]
  exact (mapped_agrees_unmapped_iff wireFormat_lossless plainConfig [] idealEnv.init
    unmappedEnv.init idealEnv_maps.init unmappedEnv_unmaps.init calls hcalls).mpr
    (Or.inr (by simp [calls, CacheCall.isPush]))

/-- One push is enough to tell the files apart. -/
theorem mapped_differs_after_push :
    traceFrom wireFormat plainConfig [] idealEnv.init
        [(.push (plainMessage [118]), idealEnv)]
      ≠ traceFrom wireFormat plainConfig [] unmappedEnv.init
        [(.push (plainMessage [118]), unmappedEnv)] := by
  let calls : List (CacheCall × CacheEnv × CacheEnv) :=
    [(.push (plainMessage [118]), idealEnv, unmappedEnv)]
  have hcalls : ∀ entry ∈ calls, entry.1.Regular wireFormat plainConfig ∧ entry.2.1.Maps
      ∧ entry.2.2.Unmaps := by
    intro entry hentry
    rw [List.mem_singleton.mp hentry]
    exact ⟨by simp only [CacheCall.Regular]; decide, idealEnv_maps, unmappedEnv_unmaps⟩
  have hiff := traceFrom_agrees_iff wireFormat_lossless
    (show ConfigFits wireFormat plainConfig.strings by unfold ConfigFits; decide) []
    idealEnv_maps.init unmappedEnv_unmaps.init hcalls
  intro heq
  have hpush := hiff.mp heq _ List.mem_cons_self
  exact absurd hpush (by decide)

end OpenCache

end TapSdk.Tracker
