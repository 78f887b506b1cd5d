import TapSdk.Tracker.Crash
import TapSdk.Tracker.Proof.PushBounds
import TapSdk.Tracker.Proof.History

/-!
# Opening a cache again without its configuration

At a restart the caches are opened from their files alone. `Init` decides by the header whether the
file is kept, and a file that is kept is not looked at any further when a configuration is given:
the configuration stored in it may be any. This module says what files can be opened again after
that, and after records have been pushed.
-/

namespace TapSdk.Tracker

open Library

namespace OpenCache

variable {ext : Externals} {cache last : OpenCache} {message : TrackMessageImpl}

/-! ### The room in the file -/

/-- The end of the record area and the size of the file. -/
structure Room where
  used : Nat
  size : Nat
  deriving DecidableEq

/-- A record of so many bytes is added; the file grows by one step when it does not fit. -/
def Room.push (room : Room) (length : Nat) : Room :=
  let used := room.used + recordHeaderSize + length
  ⟨used, if used > room.size then room.size + cacheCapability else room.size⟩

def Room.Enough (room : Room) : Prop := room.used ≤ room.size

def room (cache : OpenCache) : Room := ⟨cache.areaEnd, cache.size⟩

theorem pushAll_cons {push : PushEnv × TrackMessageImpl} {rest : List (PushEnv × TrackMessageImpl)}
    (h : cache.pushAll ext (push :: rest) = some last) :
    (cache.push ext push.1 push.2).1 = true
      ∧ (cache.push ext push.1 push.2).2.pushAll ext rest = some last := by
  rw [pushAll, List.foldlM_cons] at h
  obtain ⟨next, hnext, hrest⟩ := Option.bind_eq_some_iff.mp h
  split at hnext
  · rename_i hpush
    cases hnext
    rw [hpush]
    exact ⟨rfl, hrest⟩
  · cases hnext

theorem nextSize_le_of_push {env : PushEnv} (h : (cache.push ext env message).1 = true) :
    cache.nextSize ext message ≤ maxCacheSize := by
  by_contra hmax
  rw [push_of_gt (Nat.not_le.mp hmax)] at h
  cases h

theorem WholeMapped.room_push (h : cache.WholeMapped) {env : PushEnv} (henv : env.Succeeds)
    (hpush : (cache.push ext env message).1 = true) :
    (cache.push ext env message).2.room = cache.room.push (message.getSerializeSize ext) := by
  obtain ⟨_, hend, hsize, _⟩ := h.push_measures henv (nextSize_le_of_push hpush)
  rw [room, hend, hsize]
  rfl

/-! ### What pushes leave alone -/

/-- The header is valid for this hash, and these are the bytes of the configuration. -/
structure Keeps (cache : OpenCache) (hash : UInt64) (bytes : List UInt8) : Prop where
  whole : cache.WholeMapped
  magic : cache.header.magic = cacheMagic
  configHash : cache.header.configHash = hash
  verCode : cache.header.verCode = cacheVersionCode
  configSize : cache.header.configSize.toNat = bytes.length
  inside : cacheHeaderSize + bytes.length ≤ cache.disk.size
  stored : cache.memory.read cacheHeaderSize bytes.length = bytes

variable {hash : UInt64} {bytes : List UInt8}

theorem Keeps.push (h : cache.Keeps hash bytes) {env : PushEnv} (henv : env.Succeeds)
    (hpush : (cache.push ext env message).1 = true) :
    (cache.push ext env message).2.Keeps hash bytes := by
  obtain ⟨grown, _, heq, hwhole, hfrom, hheader, _⟩ :=
    h.whole.push henv (nextSize_le_of_push hpush)
  have hadded : (grown.storeAll (grown.pushStores ext message)).header
      = cache.header.addRecord (message.getSerializeSize ext) := by
    rw [hwhole.mapped.header_pushStores, hheader]
  have hend : cacheHeaderSize + bytes.length ≤ grown.areaEnd := by
    rw [OpenCache.areaEnd, hheader, h.configSize]
    omega
  have hinside := h.inside
  have hsize := hfrom.size_le
  rw [heq]
  refine ⟨hwhole.storeAll _, ?_, ?_, ?_, ?_, ?_, ?_⟩
  · rw [hadded]
    exact h.magic
  · rw [hadded]
    exact h.configHash
  · rw [hadded]
    exact h.verCode
  · rw [hadded]
    exact h.configSize
  · rw [(sameFrame_storeAll _ grown).size]
    omega
  · have hsame : ∀ i, cacheHeaderSize ≤ i → i < cacheHeaderSize + bytes.length →
        (grown.storeAll (grown.pushStores ext message)).memory i = cache.memory i := by
      intro i hlow hhigh
      rw [hwhole.mapped.memory_pushStores_of_lt hlow (by omega), hfrom.memory i (by omega)]
    rw [Memory.read_congr hsame, h.stored]

/-- The lengths of the messages of a sequence of pushes. -/
def lengths (ext : Externals) (pushes : List (PushEnv × TrackMessageImpl)) : List Nat :=
  pushes.map fun push => push.2.getSerializeSize ext

theorem Keeps.pushAll {pushes : List (PushEnv × TrackMessageImpl)} (h : cache.Keeps hash bytes)
    (henvs : ∀ push ∈ pushes, push.1.Succeeds) (hlast : cache.pushAll ext pushes = some last) :
    last.Keeps hash bytes ∧ last.room = (lengths ext pushes).foldl Room.push cache.room := by
  induction pushes generalizing cache with
  | nil =>
      cases hlast
      exact ⟨h, rfl⟩
  | cons push rest ih =>
      obtain ⟨hpush, hrest⟩ := pushAll_cons hlast
      have henv := henvs push List.mem_cons_self
      obtain ⟨hkeeps, hroom⟩ := ih (h.push henv hpush)
        (fun other hother => henvs other (List.mem_cons_of_mem _ hother)) hrest
      refine ⟨hkeeps, ?_⟩
      rw [hroom, h.whole.room_push henv hpush]
      rfl

/-! ### Opening from the file alone -/

/-- `Init` succeeds without a configuration, and finds these strings. -/
def Reopens (ext : Externals) (hash : UInt64) (path : Str) (disk : FileData) (env : InitEnv)
    (strings : TrackDiskCacheConfig) : Prop :=
  (openAt ext hash path none (some disk) env).1 = true
    ∧ ∃ config, (openAt ext hash path none (some disk) env).2.object.config = some config
      ∧ config.strings = strings

variable {path : Str} {disk : FileData} {config : TrackerConfig}

theorem WholeMapped.reset_none (h : cache.WholeMapped) {env : ResetEnv} (henv : env.Succeeds)
    (hnone : cache.object.config = none) : (cache.reset ext env).1 = false := by
  obtain ⟨cleared, hcleared, hwhole, hframe, _⟩ := h.resetHeader henv
  obtain ⟨shrunk, hshrunk, _, _, _, _, _, hconfig⟩ := hwhole.shrink henv
  rw [hframe.config, hnone] at hconfig
  simp only [OpenCache.reset, hcleared, hshrunk, OpenCache.saveConfig, hconfig]

/-- Opening a file of at least the first capacity. -/
theorem openAt_big {env : InitEnv} (henv : env.Succeeds) (hcap : cacheCapability ≤ disk.size)
    (given : Option TrackerConfig) :
    openAt ext hash path given (some disk) env
      = if (attachedTo hash path given disk env).checkValid = false then
          (attachedTo hash path given disk env).reset ext env.reset
        else if given = none then (attachedTo hash path given disk env).loadConfig ext
        else (true, attachedTo hash path given disk env) := by
  have hbig : ¬ disk.size < cacheCapability := Nat.not_lt.mpr hcap
  simp only [openAt, henv.openFile, if_true, Option.getD_some, OpenCache.init, hbig, if_false]
  rfl

theorem memory_attachedTo {env : InitEnv} (henv : env.Succeeds) (hcap : cacheCapability ≤ disk.size)
    (given : Option TrackerConfig) {i : Nat} (hi : i < disk.size) :
    (attachedTo hash path given disk env).memory i = disk.byte i := by
  obtain ⟨hwhole, hdisk, _⟩ := attachedTo_wholeMapped henv hcap hash path given
  rw [hwhole.mapped.memory_of_lt (by rw [hdisk]; exact hi), hdisk]

theorem header_attachedTo {env : InitEnv} (henv : env.Succeeds) (hcap : cacheCapability ≤ disk.size)
    (given : Option TrackerConfig) :
    (attachedTo hash path given disk env).header = CacheHeader.decode disk.byte := by
  have hsmall : cacheHeaderSize ≤ cacheCapability := by decide
  rw [(attachedTo_wholeMapped henv hcap hash path given).1.header_eq]
  exact CacheHeader.decode_congr fun i hi => memory_attachedTo henv hcap given (by omega)

theorem size_attachedTo {env : InitEnv} (henv : env.Succeeds) (hcap : cacheCapability ≤ disk.size)
    (given : Option TrackerConfig) : (attachedTo hash path given disk env).size = disk.size := by
  obtain ⟨hwhole, hdisk, _⟩ := attachedTo_wholeMapped henv hcap hash path given
  rw [hwhole.size_eq, hdisk]

/-- A file that `Init` keeps as it is: large enough, with a header that passes the check. -/
structure Kept (hash : UInt64) (disk : FileData) : Prop where
  capability : cacheCapability ≤ disk.size
  magic : (CacheHeader.decode disk.byte).magic = cacheMagic
  configHash : (CacheHeader.decode disk.byte).configHash = hash
  verCode : (CacheHeader.decode disk.byte).verCode = cacheVersionCode
  inside : cacheHeaderSize + (CacheHeader.decode disk.byte).configSize.toNat
    + (CacheHeader.decode disk.byte).recordSize.toNat ≤ disk.size

theorem checkValid_attachedTo {env : InitEnv} (henv : env.Succeeds)
    (hcap : cacheCapability ≤ disk.size) (given : Option TrackerConfig) :
    (attachedTo hash path given disk env).checkValid = true ↔ Kept hash disk := by
  obtain ⟨_, _, hhash, _⟩ := attachedTo_wholeMapped henv hcap hash path given
  simp only [OpenCache.checkValid, OpenCache.areaEnd, header_attachedTo henv hcap,
    size_attachedTo henv hcap, hhash, decide_eq_true_eq]
  constructor
  · rintro ⟨hmagic, hconfig, hver, hend⟩
    exact ⟨hcap, hmagic, hconfig, hver, hend⟩
  · exact fun h => ⟨h.magic, h.configHash, h.verCode, h.inside⟩

/-- The bytes of the configuration in a file. -/
def storedConfig (disk : FileData) : List UInt8 :=
  disk.byte.read cacheHeaderSize (CacheHeader.decode disk.byte).configSize.toNat

theorem Kept.read_attachedTo (h : Kept hash disk) {env : InitEnv} (henv : env.Succeeds)
    (given : Option TrackerConfig) :
    (attachedTo hash path given disk env).memory.read cacheHeaderSize
      (CacheHeader.decode disk.byte).configSize.toNat = storedConfig disk := by
  have hinside := h.inside
  exact Memory.read_congr fun i _ hi => memory_attachedTo henv h.capability given (by omega)

/-- **A file opens to a configuration** when it is kept and holds it. -/
theorem reopens_iff_kept {env : InitEnv} (henv : env.Succeeds) (hcap : cacheCapability ≤ disk.size)
    {strings : TrackDiskCacheConfig} (hhash : hash = strings.freshHash) :
    Reopens ext hash path disk env strings
      ↔ Kept hash disk ∧ ext.config.parse (storedConfig disk) = some strings := by
  obtain ⟨hwhole, _, hattached, _, hnone⟩ := attachedTo_wholeMapped henv hcap hash path none
  by_cases hkept : Kept hash disk
  · have hvalid := (@checkValid_attachedTo hash path disk env henv hcap none).mpr hkept
    have hread := @Kept.read_attachedTo hash path disk hkept env henv none
    have hinside := hkept.inside
    have hroom : ¬ cacheHeaderSize
        + (CacheHeader.decode disk.byte).configSize.toNat > disk.size := by
      omega
    simp only [Reopens, openAt_big henv hcap, hvalid, Bool.true_eq_false, if_false, if_true,
      OpenCache.loadConfig, header_attachedTo henv hcap, size_attachedTo henv hcap, hroom,
      hwhole.mapped.isMapped, hread, hattached, hkept, true_and]
    cases ext.config.parse (storedConfig disk) with
    | none => simp
    | some found =>
        have hfresh : found.toConfig.hash = found.freshHash := found.toConfig.hash_eq
        by_cases hfound : found.toConfig.hash = hash
        · dsimp only
          rw [if_neg (not_not_intro hfound)]
          simp only [true_and, Option.some.injEq, exists_eq_left']
          rfl
        · dsimp only
          rw [if_pos hfound]
          refine iff_of_false (fun h => absurd h.1 Bool.false_ne_true) fun hsame => hfound ?_
          rw [hfresh, Option.some.inj hsame, hhash]
  · have hinvalid : (attachedTo hash path none disk env).checkValid = false := by
      rw [← Bool.not_eq_true, checkValid_attachedTo henv hcap]
      exact hkept
    have hfails := @WholeMapped.reset_none ext _ hwhole env.reset henv.reset hnone
    simp only [Reopens, openAt_big henv hcap, hinvalid, if_true, hfails, Bool.false_eq_true,
      false_and, hkept]

theorem Keeps.header_eq (h : cache.Keeps hash bytes) :
    CacheHeader.decode cache.disk.byte = cache.header := by
  have hcap := h.whole.capability
  have hsmall : cacheHeaderSize ≤ cacheCapability := by decide
  rw [h.whole.header_eq]
  exact CacheHeader.decode_congr fun i hi => (h.whole.mapped.memory_of_lt (by omega)).symm

theorem Keeps.kept_iff (h : cache.Keeps hash bytes) :
    Kept hash cache.disk ↔ cache.room.Enough := by
  have hroom : cache.room.Enough ↔ cacheHeaderSize + cache.header.configSize.toNat
      + cache.header.recordSize.toNat ≤ cache.disk.size := by
    rw [← h.whole.size_eq]
    rfl
  rw [hroom, ← h.header_eq]
  constructor
  · exact Kept.inside
  · refine fun hinside => ⟨h.whole.capability, ?_, ?_, ?_, hinside⟩
    · rw [h.header_eq, h.magic]
    · rw [h.header_eq, h.configHash]
    · rw [h.header_eq, h.verCode]

theorem Keeps.storedConfig (h : cache.Keeps hash bytes) : storedConfig cache.disk = bytes := by
  have hinside := h.inside
  rw [OpenCache.storedConfig, h.header_eq, h.configSize, ← h.stored, Memory.length_read]
  exact Memory.read_congr fun i _ hi => (h.whole.mapped.memory_of_lt (by omega)).symm

/-! ### From the file that was there first -/

/-- The room in a file that is kept. -/
def fileRoom (disk : FileData) : Room :=
  ⟨cacheHeaderSize + (CacheHeader.decode disk.byte).configSize.toNat
    + (CacheHeader.decode disk.byte).recordSize.toNat, disk.size⟩

/-- The room in a file that has been written anew. -/
def newRoom (ext : Externals) (config : TrackerConfig) : Room :=
  ⟨cacheHeaderSize + (ext.config.serialize config.strings).length, cacheCapability⟩

theorem keeps_of_kept (hkept : Kept config.hash disk) {env : InitEnv} (henv : env.Succeeds)
    (hopen : openAt ext config.hash path (some config) (some disk) env = (true, cache)) :
    cache.Keeps config.hash (OpenCache.storedConfig disk) ∧ cache.room = fileRoom disk := by
  have hcap := hkept.capability
  have hvalid :=
    (@checkValid_attachedTo config.hash path disk env henv hcap (some config)).mpr hkept
  have hinside := hkept.inside
  obtain ⟨hwhole, hdisk, _⟩ := attachedTo_wholeMapped henv hcap config.hash path (some config)
  rw [openAt_big henv hcap, hvalid, if_neg Bool.true_eq_false.mp, if_neg (by simp)] at hopen
  obtain rfl := (Prod.mk.inj hopen).2
  have hheader := @header_attachedTo config.hash path disk env henv hcap (some config)
  refine ⟨⟨hwhole, ?_, ?_, ?_, ?_, ?_, ?_⟩, ?_⟩
  · rw [hheader, hkept.magic]
  · rw [hheader, hkept.configHash]
  · rw [hheader, hkept.verCode]
  · rw [hheader, OpenCache.storedConfig, Memory.length_read]
  · rw [hdisk, OpenCache.storedConfig, Memory.length_read]
    omega
  · rw [OpenCache.storedConfig, Memory.length_read]
    exact hkept.read_attachedTo henv _
  · rw [room, OpenCache.areaEnd, hheader, size_attachedTo henv hcap]
    rfl

theorem Holds.keeps (h : cache.Holds ext config.strings [])
    (hsize : cache.disk.size = cacheCapability) :
    cache.Keeps config.hash (ext.config.serialize config.strings)
      ∧ cache.room = newRoom ext config := by
  have hheader := h.whole.header_eq.trans h.layout.header
  have hfits := h.layout.fits
  refine ⟨⟨h.whole, ?_, ?_, ?_, ?_, ?_, h.layout.config⟩, ?_⟩
  · rw [hheader]
    rfl
  · rw [hheader, config.hash_eq, expectedHeader]
  · rw [hheader]
    rfl
  · rw [h.whole.header_eq, h.layout.configSize]
  · exact hfits
  · rw [room, h.areaEnd, h.whole.size_eq, hsize]
    rfl

theorem keeps_of_not_kept {prior : Option FileData}
    (hkept : ¬ Kept config.hash (prior.getD FileData.empty))
    (hfits : ConfigFits ext config.strings) {env : InitEnv} (henv : env.Succeeds)
    (hopen : openAt ext config.hash path (some config) prior env = (true, cache)) :
    cache.Keeps config.hash (ext.config.serialize config.strings)
      ∧ cache.room = newRoom ext config := by
  have hreset : ∀ attached : OpenCache, attached.WholeMapped → attached.object.hash = config.hash →
      attached.object.config = some config → attached.reset ext env.reset = (true, cache) →
      cache.Keeps config.hash (ext.config.serialize config.strings)
        ∧ cache.room = newRoom ext config := by
    intro attached hwhole hhash hconfig hreset
    obtain ⟨next, hnext, hholds, _, hsize⟩ :=
      hwhole.reset henv.reset hconfig (hhash.trans config.hash_eq) hfits
    rw [hnext] at hreset
    obtain rfl := (Prod.mk.inj hreset).2
    exact hholds.keeps hsize
  generalize hfile : prior.getD FileData.empty = file at hkept
  by_cases hcap : cacheCapability ≤ file.size
  · have hsome : openAt ext config.hash path (some config) prior env
        = openAt ext config.hash path (some config) (some file) env := by
      rw [openAt, openAt, hfile, Option.getD_some]
    have hinvalid : (attachedTo config.hash path (some config) file env).checkValid = false := by
      rw [← Bool.not_eq_true, checkValid_attachedTo henv hcap]
      exact hkept
    obtain ⟨hwhole, _, hhash, _, hconfig⟩ :=
      attachedTo_wholeMapped henv hcap config.hash path (some config)
    rw [hsome, openAt_big henv hcap, if_pos hinvalid] at hopen
    exact hreset _ hwhole hhash hconfig hopen
  · let opened : OpenCache := OpenCache.mk
      { DiskCache.construct config.hash path (some config) with file := ⟨file.size⟩ } file
    obtain ⟨hwhole, _, hhash, _, hconfig⟩ :=
      @attach_wholeMapped (opened.resize cacheCapability) env henv rfl (Nat.le_refl _)
    simp only [openAt, henv.openFile, if_true, hfile, OpenCache.init, Nat.not_le.mp hcap,
      henv.resize] at hopen
    exact hreset _ hwhole hhash hconfig hopen

/-- The files that can be opened again: a file that was written anew has its configuration, a file
that was kept has to have it already; and after the pushes the record area ends inside the file. -/
structure OpensAgain (ext : Externals) (config : TrackerConfig) (file : FileData)
    (lengths : List Nat) : Prop where
  written : ¬ Kept config.hash file → (lengths.foldl Room.push (newRoom ext config)).Enough
  kept : Kept config.hash file → ext.config.parse (storedConfig file) = some config.strings
    ∧ (lengths.foldl Room.push (fileRoom file)).Enough

theorem reopens_iff_opensAgain (ext : Externals) (hlossless : ext.config.Lossless)
    (config : TrackerConfig) (hfits : ConfigFits ext config.strings) (path : Str)
    (prior : Option FileData) {env : InitEnv} (henv : env.Succeeds)
    (hopen : openAt ext config.hash path (some config) prior env = (true, cache))
    {pushes : List (PushEnv × TrackMessageImpl)} (henvs : ∀ push ∈ pushes, push.1.Succeeds)
    (hpushes : cache.pushAll ext pushes = some last) {again : InitEnv} (hagain : again.Succeeds) :
    Reopens ext config.hash path last.disk again config.strings
      ↔ OpensAgain ext config (prior.getD FileData.empty) (lengths ext pushes) := by
  have hreopens : ∀ bytes, cache.Keeps config.hash bytes →
      (Reopens ext config.hash path last.disk again config.strings
        ↔ ((lengths ext pushes).foldl Room.push cache.room).Enough
          ∧ ext.config.parse bytes = some config.strings) := by
    intro bytes hkeeps
    obtain ⟨hlast, hroom⟩ := hkeeps.pushAll henvs hpushes
    rw [reopens_iff_kept hagain hlast.whole.capability config.hash_eq, hlast.kept_iff,
      hlast.storedConfig, hroom]
  by_cases hkept : Kept config.hash (prior.getD FileData.empty)
  · have hsome : openAt ext config.hash path (some config) prior env
        = openAt ext config.hash path (some config) (some (prior.getD FileData.empty)) env := by
      rw [openAt, openAt, Option.getD_some]
    rw [hsome] at hopen
    obtain ⟨hkeeps, hroom⟩ := keeps_of_kept hkept henv hopen
    rw [hreopens _ hkeeps, hroom]
    exact ⟨fun h => ⟨absurd hkept, fun _ => h.symm⟩, fun h => (h.kept hkept).symm⟩
  · obtain ⟨hkeeps, hroom⟩ := keeps_of_not_kept hkept hfits henv hopen
    rw [hreopens _ hkeeps, hroom, hlossless config.strings]
    exact ⟨fun h => ⟨fun _ => h.1, fun hyes => absurd hyes hkept⟩, fun h => ⟨h.written hkept, rfl⟩⟩

theorem reopens_after_push : ∃ cache last,
    openAt wireFormat plainConfig.hash [] (some plainConfig) none InitEnv.ideal = (true, cache)
      ∧ cache.pushAll wireFormat [(PushEnv.ideal, plainMessage [118])] = some last
      ∧ Reopens wireFormat plainConfig.hash [] last.disk InitEnv.ideal plainConfig.strings := by
  have hfits : ConfigFits wireFormat plainConfig.strings := by
    unfold ConfigFits
    decide
  obtain ⟨cache, hopen, hholds, _, hsize⟩ :=
    openAt_absent plainConfig.hash_eq hfits InitEnv.ideal_succeeds []
  have hroom := (hholds.keeps hsize).2
  have hnext : cache.nextSize wireFormat (plainMessage [118])
      = (newRoom wireFormat plainConfig).used + 20
        + (plainMessage [118]).getSerializeSize wireFormat := by
    rw [nextSize_eq, ← hroom]
    rfl
  have hsmall : cache.nextSize wireFormat (plainMessage [118]) ≤ maxCacheSize := by
    rw [hnext]
    decide
  obtain ⟨grown, _, hpush, _⟩ := hholds.whole.push PushEnv.ideal_succeeds hsmall
  have hall : cache.pushAll wireFormat [(PushEnv.ideal, plainMessage [118])]
      = some (grown.storeAll (grown.pushStores wireFormat (plainMessage [118]))) := by
    rw [pushAll, List.foldlM_cons]
    dsimp only
    rw [hpush]
    rfl
  refine ⟨cache, _, hopen, hall, (reopens_iff_opensAgain wireFormat wireFormat_lossless.config
    plainConfig hfits [] none InitEnv.ideal_succeeds hopen ?_ hall InitEnv.ideal_succeeds).mpr ?_⟩
  · intro push hmem
    rw [List.mem_singleton.mp hmem]
    exact PushEnv.ideal_succeeds
  · refine ⟨fun _ => ?_, fun hkept => absurd hkept.capability (by decide)⟩
    unfold Room.Enough
    decide

/-- A file whose header is that of a cache, but for the size of the configuration. -/
def strippedFile : FileData :=
  (FileData.empty.resize cacheCapability).pwrite 0
    (CacheHeader.bytes ⟨cacheMagic, cacheVersionCode, plainConfig.hash, 0, 0, 0⟩)

/-- **The file is kept, and is lost at the next start.** -/
theorem stripped_does_not_reopen :
    (openAt wireFormat plainConfig.hash [] (some plainConfig) (some strippedFile) InitEnv.ideal).1
        = true
      ∧ ¬ Reopens wireFormat plainConfig.hash [] (openAt wireFormat plainConfig.hash []
          (some plainConfig) (some strippedFile) InitEnv.ideal).2.disk InitEnv.ideal
          plainConfig.strings := by
  refine ⟨by decide +kernel, fun h => ?_⟩
  have hfails : (openAt wireFormat plainConfig.hash [] none (some (openAt wireFormat
      plainConfig.hash [] (some plainConfig) (some strippedFile) InitEnv.ideal).2.disk)
      InitEnv.ideal).1 = false := by decide +kernel
  rw [Reopens, hfails] at h
  exact Bool.false_ne_true h.1

end OpenCache

end TapSdk.Tracker
