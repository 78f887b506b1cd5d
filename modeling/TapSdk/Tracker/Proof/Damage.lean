import TapSdk.Tracker.Proof.Branches
import TapSdk.Tracker.Proof.History
import TapSdk.Tracker.Proof.LoadSafety

/-!
# Damaged records

Bytes of some records change while the header, the configuration and every length field stay as they
are. A damaged record fails the test of its magic or of its hash. `Load` passes over it and returns
the other messages, in order, from a mapped file and from one that could not be mapped.
-/

namespace TapSdk.Tracker

open Library

variable {ext : Externals}

/-- The area behind `memory_start`, in a file whose configuration ends at `start`. -/
def areaFrom (disk : FileData) (start : Nat) : Memory := fun i => disk.byte (start + i)

def recordOffset (ext : Externals) (messages : List TrackMessageImpl) (k : Nat) : Nat :=
  (areaBytes ext (messages.take k)).length

/-- How the record area `damage` differs from `area`, which holds the records of `messages`: the
records in `damaged` fail one of the two tests of `Load`, the others are untouched, and no length
field is. -/
structure Damage (ext : Externals) (messages : List TrackMessageImpl) (damaged : Nat → Bool)
    (area damage : Memory) : Prop where
  untouched : ∀ k message, messages[k]? = some message → damaged k = false →
    damage.read (recordOffset ext messages k) (recordBytes ext message).length
      = area.read (recordOffset ext messages k) (recordBytes ext message).length
  length : ∀ k message, messages[k]? = some message →
    damage.read (recordOffset ext messages k + 12) 4
      = area.read (recordOffset ext messages k + 12) 4
  broken : ∀ k message, messages[k]? = some message → damaged k = true →
    damage.read (recordOffset ext messages k) 4 ≠ recordMagic
      ∨ fromLe64 (damage.read (recordOffset ext messages k + 4) 8)
        ≠ cityHash64 (damage.read (recordOffset ext messages k + recordHeaderSize)
          (message.getSerializeSize ext))

/-- The undamaged messages, in order, each stamped with the time of the iteration that finds it. -/
def survivors (config : Option TrackerConfig) (clock : Nat → UInt32) (damaged : Nat → Bool)
    (first : Nat) (messages : List TrackMessageImpl) : List TrackMessageImpl :=
  ((messages.zipIdx first).filter fun entry => !damaged entry.2).map fun entry =>
    ⟨config, clock entry.2, entry.1.proto⟩

/-! ### The loop over damaged records -/

section Loop

variable {area damage : Memory} {config : Option TrackerConfig} {clock : Nat → UInt32}
  {damaged : Nat → Bool} {messages : List TrackMessageImpl} {message : TrackMessageImpl}

/-- What `damage` holds from record `i` on, which starts at `offset`. -/
inductive RecordsAt (ext : Externals) (damage : Memory) (damaged : Nat → Bool) :
    Nat → Nat → List TrackMessageImpl → Prop where
  | nil (i offset : Nat) : RecordsAt ext damage damaged i offset []
  | intact {i offset : Nat} {message : TrackMessageImpl} {rest : List TrackMessageImpl} :
      damaged i = false →
      damage.read offset (recordBytes ext message).length = recordBytes ext message →
      RecordsAt ext damage damaged (i + 1) (offset + (recordBytes ext message).length) rest →
      RecordsAt ext damage damaged i offset (message :: rest)
  | broken {i offset : Nat} {message : TrackMessageImpl} {rest : List TrackMessageImpl} :
      damaged i = true →
      (RecordHeader.decode damage offset).length = UInt32.ofNat (message.getSerializeSize ext) →
      (damage.read offset 4 ≠ recordMagic
        ∨ fromLe64 (damage.read (offset + 4) 8) ≠ cityHash64
          (damage.read (offset + recordHeaderSize) (message.getSerializeSize ext))) →
      RecordsAt ext damage damaged (i + 1) (offset + (recordBytes ext message).length) rest →
      RecordsAt ext damage damaged i offset (message :: rest)

/-- A record as `Push` writes it, seen through its header. -/
theorem decode_of_recordBytes {offset : Nat}
    (hread : area.read offset (recordBytes ext message).length = recordBytes ext message) :
    RecordHeader.decode area offset = recordHeader ext message
      ∧ area.read (offset + recordHeaderSize) (message.getSerializeSize ext)
        = ext.message.serialize message.proto := by
  have hheaderLength := recordHeader_bytes_length ext message
  rw [recordBytes_length, Memory.read_add, recordBytes] at hread
  obtain ⟨hheader, hdata⟩ := List.append_inj hread (by simp [hheaderLength])
  exact ⟨RecordHeader.decode_of_read rfl hheader, hdata⟩

theorem toNat_getSerializeSize (hword : (recordBytes ext message).length < 2 ^ 32) :
    (UInt32.ofNat (message.getSerializeSize ext)).toNat = message.getSerializeSize ext := by
  rw [recordBytes_length] at hword
  rw [UInt32.toNat_ofNat', Nat.mod_eq_of_lt (by omega)]

open LoadState in
theorem loaded_of_recordBytes (hlossless : ext.message.Lossless) {i offset : Nat}
    (hword : (recordBytes ext message).length < 2 ^ 32)
    (hread : damage.read offset (recordBytes ext message).length = recordBytes ext message) :
    loaded ext damage config clock i (RecordHeader.decode damage offset) offset
      = [⟨config, clock i, message.proto⟩] := by
  obtain ⟨hheader, hdata⟩ := decode_of_recordBytes hread
  have hlength : (recordHeader ext message).length.toNat = message.getSerializeSize ext :=
    toNat_getSerializeSize hword
  have hmagic : ¬ (recordHeader ext message).magic ≠ recordMagic := not_not_intro rfl
  have hhash : ¬ (recordHeader ext message).hash
      ≠ cityHash64 (ext.message.serialize message.proto) := not_not_intro rfl
  unfold loaded
  simp only [hheader, hlength, hdata]
  rw [if_neg hmagic, if_neg hhash, hlossless message.proto]

open LoadState in
theorem loaded_of_broken {i offset : Nat} (hword : (recordBytes ext message).length < 2 ^ 32)
    (hlength : (RecordHeader.decode damage offset).length
      = UInt32.ofNat (message.getSerializeSize ext))
    (hbroken : damage.read offset 4 ≠ recordMagic
      ∨ fromLe64 (damage.read (offset + 4) 8) ≠ cityHash64
        (damage.read (offset + recordHeaderSize) (message.getSerializeSize ext))) :
    loaded ext damage config clock i (RecordHeader.decode damage offset) offset = [] := by
  unfold loaded
  simp only [hlength, toNat_getSerializeSize hword]
  rcases hbroken with hmagic | hhash
  · exact if_pos hmagic
  · have hdecoded : (RecordHeader.decode damage offset).hash ≠ cityHash64
        (damage.read (offset + recordHeaderSize) (message.getSerializeSize ext)) := hhash
    rw [if_pos hdecoded, ite_self]

/-- The loop keeps step with the records, whichever of them are damaged. -/
theorem loadLoop_recordsAt (hlossless : ext.message.Lossless) {i offset : Nat}
    (h : RecordsAt ext damage damaged i offset messages)
    (hword : offset + (areaBytes ext messages).length < 2 ^ 32) :
    loadLoop ext damage (offset + (areaBytes ext messages).length) config clock messages.length i
        offset offset
      = survivors config clock damaged i messages := by
  -- one round at a record whose length field is right, whatever else became of it
  have hround : ∀ {i offset : Nat} {message : TrackMessageImpl} {rest : List TrackMessageImpl},
      offset + (areaBytes ext (message :: rest)).length < 2 ^ 32 →
      (RecordHeader.decode damage offset).length = UInt32.ofNat (message.getSerializeSize ext) →
      loadLoop ext damage (offset + (areaBytes ext (message :: rest)).length) config clock
          (message :: rest).length i offset offset
        = LoadState.loaded ext damage config clock i (RecordHeader.decode damage offset) offset
          ++ loadLoop ext damage (offset + (recordBytes ext message).length
              + (areaBytes ext rest).length) config clock rest.length (i + 1)
            (offset + (recordBytes ext message).length)
            (offset + (recordBytes ext message).length) := by
    intro i offset message rest hword hlength
    rw [areaBytes_cons, List.length_append] at hword ⊢
    have hsize := recordBytes_length ext message
    have hpos : 0 < recordHeaderSize := by decide
    have htoNat : (UInt32.ofNat (message.getSerializeSize ext)).toNat
        = message.getSerializeSize ext := toNat_getSerializeSize (by omega)
    rw [List.length_cons, LoadState.loadLoop_succ, hlength, htoNat, ← hsize, if_pos (by omega),
      if_neg (by omega), Nat.add_assoc offset]
  induction h with
  | nil i offset => rfl
  | @intact i offset message rest hkept hread _ ih =>
      have hlong : (recordBytes ext message).length < 2 ^ 32 := by
        rw [areaBytes_cons, List.length_append] at hword
        omega
      rw [hround hword (by rw [(decode_of_recordBytes hread).1]; rfl),
        loaded_of_recordBytes hlossless hlong hread, ih ?_]
      · simp only [survivors, List.zipIdx_cons, List.filter_cons, hkept, Bool.not_false, if_true,
          List.map_cons, List.singleton_append]
      · rw [areaBytes_cons, List.length_append] at hword
        omega
  | @broken i offset message rest hbad hlength hbroken _ ih =>
      have hlong : (recordBytes ext message).length < 2 ^ 32 := by
        rw [areaBytes_cons, List.length_append] at hword
        omega
      rw [hround hword hlength, loaded_of_broken hlong hlength hbroken, ih ?_]
      · simp only [survivors, List.zipIdx_cons, List.filter_cons, hbad, Bool.not_true,
          Bool.false_eq_true, if_false, List.nil_append]
      · rw [areaBytes_cons, List.length_append] at hword
        omega

theorem read_record {before rest : List TrackMessageImpl}
    (hread : area.read 0 (areaBytes ext (before ++ message :: rest)).length
      = areaBytes ext (before ++ message :: rest)) :
    area.read (areaBytes ext before).length (recordBytes ext message).length
      = recordBytes ext message := by
  have hsplit : areaBytes ext (before ++ message :: rest)
      = areaBytes ext before ++ (recordBytes ext message ++ areaBytes ext rest) := by
    rw [areaBytes, List.flatMap_append, List.flatMap_cons]
    rfl
  rw [hsplit, List.length_append, List.length_append, Memory.read_add, Memory.read_add,
    Nat.zero_add] at hread
  exact (List.append_inj (List.append_inj hread (by simp)).2 (by simp)).1

theorem Damage.recordsAt (h : Damage ext messages damaged area damage)
    (hread : area.read 0 (areaBytes ext messages).length = areaBytes ext messages)
    (rest before : List TrackMessageImpl) (hsplit : messages = before ++ rest) :
    RecordsAt ext damage damaged before.length (areaBytes ext before).length rest := by
  induction rest generalizing before with
  | nil => exact .nil _ _
  | cons message rest ih =>
      have hk : messages[before.length]? = some message := by
        rw [hsplit, List.getElem?_append_right (Nat.le_refl _), Nat.sub_self,
          List.getElem?_cons_zero]
      have hoffset : recordOffset ext messages before.length = (areaBytes ext before).length := by
        rw [recordOffset, hsplit, List.take_left]
      have hrecord := read_record (hsplit ▸ hread)
      have hrest := ih (before ++ [message]) (by rw [hsplit, List.append_assoc]; rfl)
      rw [areaBytes_append, List.length_append, List.length_append, List.length_singleton] at hrest
      have hlengthField := h.length _ _ hk
      rw [hoffset] at hlengthField
      cases hbad : damaged before.length with
      | false =>
          have huntouched := h.untouched _ _ hk hbad
          rw [hoffset, hrecord] at huntouched
          exact .intact hbad huntouched hrest
      | true =>
          have hbroken := h.broken _ _ hk hbad
          rw [hoffset] at hbroken
          refine .broken hbad ?_ hbroken hrest
          calc (RecordHeader.decode damage (areaBytes ext before).length).length
              = fromLe32 (damage.read ((areaBytes ext before).length + 12) 4) := rfl
            _ = (RecordHeader.decode area (areaBytes ext before).length).length := by
                rw [hlengthField]
                rfl
            _ = UInt32.ofNat (message.getSerializeSize ext) := by
                rw [(decode_of_recordBytes hrecord).1]
                rfl

end Loop

/-! ### What `Load` needs of a cache -/

namespace OpenCache

/-- The header counts the messages and their bytes, and their records are in the file; `start` is
where the configuration ends. -/
structure Stores (ext : Externals) (cache : OpenCache) (start : Nat)
    (messages : List TrackMessageImpl) : Prop where
  start_eq : start = cacheHeaderSize + cache.header.configSize.toNat
  count : cache.header.recordCount.toNat = messages.length
  recordSize : cache.header.recordSize.toNat = (areaBytes ext messages).length
  fits : cache.areaEnd ≤ cache.size
  area : ∀ i, i < (areaBytes ext messages).length → cache.area i = areaFrom cache.disk start i

variable {cache : OpenCache} {start : Nat} {messages : List TrackMessageImpl}
  {damaged : Nat → Bool} {intact : Memory}

/-- `Load` on a cache whose record area is `intact` with some records damaged. -/
theorem Stores.load_survivors (h : cache.Stores ext start messages) (hlossless : ext.Lossless)
    (hread : intact.read 0 (areaBytes ext messages).length = areaBytes ext messages)
    (hdamage : Damage ext messages damaged intact (areaFrom cache.disk start))
    (clock : Nat → UInt32) :
    cache.load ext clock = survivors cache.object.config clock damaged 0 messages := by
  have hword : 0 + (areaBytes ext messages).length < 2 ^ 32 := by
    rw [Nat.zero_add, ← h.recordSize]
    exact cache.header.recordSize.toNat_lt
  have hrecords := hdamage.recordsAt hread messages [] rfl
  have hloop := @loadLoop_recordsAt ext _ cache.object.config clock damaged messages
    hlossless.message 0 0 hrecords hword
  rw [Nat.zero_add] at hloop
  calc cache.load ext clock
      = loadLoop ext cache.area (areaBytes ext messages).length cache.object.config clock
          messages.length 0 0 0 := by
        rw [load, if_neg (Nat.not_lt.mpr h.fits), decodeArea, h.count, h.recordSize]
    _ = loadLoop ext (areaFrom cache.disk start) (areaBytes ext messages).length
          cache.object.config clock messages.length 0 0 0 := loadLoop_congr h.area ..
    _ = survivors cache.object.config clock damaged 0 messages := hloop

/-! ### Damaged files -/

/-- `disk` is the file of `cache` with some of its records damaged; the header and the configuration
are as they were. -/
structure DamagedFile (ext : Externals) (cache : OpenCache) (messages : List TrackMessageImpl)
    (damaged : Nat → Bool) (disk : FileData) : Prop where
  size : disk.size = cache.disk.size
  front : ∀ i, i < cacheHeaderSize + cache.header.configSize.toNat →
    disk.byte i = cache.disk.byte i
  records : Damage ext messages damaged
    (areaFrom cache.disk (cacheHeaderSize + cache.header.configSize.toNat))
    (areaFrom disk (cacheHeaderSize + cache.header.configSize.toNat))

variable {strings : TrackDiskCacheConfig} {disk : FileData}

theorem read_areaFrom (disk : FileData) (start offset size : Nat) :
    (areaFrom disk start).read offset size = disk.byte.read (start + offset) size := by
  simp only [Memory.read, areaFrom, Nat.add_assoc]

/-- A zero over the first byte of the area damages the first record and no other. -/
theorem damagedFile_pwrite_zero
    (hroom : cacheHeaderSize + cache.header.configSize.toNat + 1 ≤ cache.disk.size) :
    cache.DamagedFile ext messages (· == 0)
      (cache.disk.pwrite (cacheHeaderSize + cache.header.configSize.toNat) [0]) := by
  refine ⟨FileData.pwrite_size hroom, ?_, ?_, ?_, ?_⟩
  · intro i hi
    rw [FileData.pwrite_byte, Memory.write_of_outside (Or.inl hi)]
  · intro k message hk hkept
    have hpositive : 1 ≤ recordOffset ext messages k := by
      have hk0 : k ≠ 0 := by simpa using hkept
      obtain ⟨k, rfl⟩ := Nat.exists_eq_succ_of_ne_zero hk0
      cases messages with
      | nil => cases hk
      | cons first rest =>
          rw [recordOffset, List.take_succ_cons, areaBytes_cons, List.length_append,
            recordBytes_length]
          have hheader : recordHeaderSize = 20 := rfl
          omega
    rw [read_areaFrom, read_areaFrom, FileData.pwrite_byte,
      Memory.read_write_disjoint (by rw [List.length_singleton]; omega)]
  · intro k message _
    rw [read_areaFrom, read_areaFrom, FileData.pwrite_byte,
      Memory.read_write_disjoint (by rw [List.length_singleton]; omega)]
  · intro k message _ hbad
    left
    have hk0 : k = 0 := by simpa using hbad
    have hfirst : recordOffset ext messages k = 0 := by
      rw [hk0, recordOffset, List.take_zero]
      rfl
    rw [hfirst, read_areaFrom, FileData.pwrite_byte]
    intro hmagic
    have hbyte := congrArg List.head? hmagic
    simp [Memory.read, Memory.write, recordMagic, List.range_succ] at hbyte

theorem Holds.configSize (h : cache.Holds ext strings messages) :
    cache.header.configSize.toNat = (ext.config.serialize strings).length := by
  rw [h.whole.header_eq, h.layout.configSize]

theorem Holds.records_areaFrom (h : cache.Holds ext strings messages) :
    (areaFrom cache.disk (cacheHeaderSize + cache.header.configSize.toNat)).read 0
      (areaBytes ext messages).length = areaBytes ext messages := by
  rw [read_areaFrom, Nat.add_zero, h.configSize]
  exact h.closed.layout.records

/-- The damage is seen through the mapping of a cache that is open. -/
theorem Holds.stores_damaged (h : cache.Holds ext strings messages)
    (hdisk : DamagedFile ext cache messages damaged disk) :
    ({ cache with disk := disk } : OpenCache).Stores ext
      (cacheHeaderSize + cache.header.configSize.toNat) messages := by
  have hsame := hdisk.size
  have hfits := h.layout.fits
  have hareaEnd := h.areaEnd
  have hwhole : ({ cache with disk := disk } : OpenCache).WholeMapped := by
    obtain ⟨⟨⟨beyond, hptr⟩, hle⟩, hcur, hcap⟩ := h.whole
    exact ⟨⟨⟨beyond, by rw [hsame]; exact hptr⟩, Nat.le_refl _⟩, by rw [hsame]; exact hcur,
      by rw [hsame]; exact hcap⟩
  have hheader : ({ cache with disk := disk } : OpenCache).header = cache.header := by
    rw [hwhole.header_eq, h.whole.header_eq]
    refine CacheHeader.decode_congr fun i hi => ?_
    have hin : i < cache.disk.size := by
      have hhead := cache.cacheHeaderSize_le_areaEnd
      omega
    rw [hwhole.mapped.memory_of_lt (by rw [hsame]; exact hin), h.whole.mapped.memory_of_lt hin]
    exact hdisk.front i (by omega)
  refine ⟨by rw [hheader], ?_, ?_, ?_, ?_⟩
  · rw [hheader, h.whole.header_eq, h.layout.recordCount]
  · rw [hheader, h.whole.header_eq, h.layout.recordSize]
  · rw [OpenCache.areaEnd, hheader, hwhole.size_eq, hsame]
    rw [← hareaEnd, OpenCache.areaEnd] at hfits
    exact hfits
  · intro i hi
    have hin : cacheHeaderSize + cache.header.configSize.toNat + i < disk.size := by
      rw [layoutEnd] at hfits
      rw [h.configSize, hsame]
      omega
    simp only [area, hwhole.mapped.isMapped, if_true, hheader]
    exact hwhole.mapped.memory_of_lt hin

section Reopen

variable {hash : UInt64} {path : Str} {config : Option TrackerConfig} {env : InitEnv}

theorem attachedTo_facts (hcap : cacheCapability ≤ disk.size) (hread : env.readHeader = none) :
    (attachedTo hash path config disk env).disk = disk
      ∧ (attachedTo hash path config disk env).size = disk.size
      ∧ (attachedTo hash path config disk env).header = CacheHeader.decode disk.byte
      ∧ (attachedTo hash path config disk env).object.hash = hash
      ∧ (attachedTo hash path config disk env).object.config = config
      ∧ ∀ i, i < disk.size →
          (attachedTo hash path config disk env).configMemory i = disk.byte i := by
  have hpos : 0 < disk.size := Nat.lt_of_lt_of_le (by decide) hcap
  have hhead : cacheHeaderSize ≤ disk.size := Nat.le_trans (by decide) hcap
  have hsize : File.size ⟨disk.size⟩ disk = disk.size := by
    rw [File.size, if_pos (by simp; omega)]
  cases hmap : env.map with
  | some beyond =>
      have hmemory : ∀ i, i < disk.size →
          (attachedTo hash path config disk env).memory i = disk.byte i := by
        intro i hi
        simp only [attachedTo, attach, hmap, memory, setPtr, OpenCache.size, hsize, hi, if_true]
      have hmapped : (attachedTo hash path config disk env).isMapped = true := by
        simp only [attachedTo, attach, hmap, setPtr, isMapped]
      have hheader : (attachedTo hash path config disk env).header
          = CacheHeader.decode (attachedTo hash path config disk env).memory := by
        simp only [attachedTo, attach, hmap, setPtr, header]
      refine ⟨?_, ?_, ?_, ?_, ?_, ?_⟩
      · simp only [attachedTo, attach, hmap, setPtr]
      · simp only [attachedTo, attach, hmap, setPtr, OpenCache.size, hsize]
      · rw [hheader]
        exact CacheHeader.decode_congr fun i hi => hmemory i (by omega)
      · simp only [attachedTo, attach, hmap, setPtr, DiskCache.construct]
      · simp only [attachedTo, attach, hmap, setPtr, DiskCache.construct]
      · intro i hi
        rw [configMemory, hmapped, if_pos rfl]
        exact hmemory i hi
  | none =>
      refine ⟨?_, ?_, ?_, ?_, ?_, ?_⟩
      · simp only [attachedTo, attach, hmap, setHeaderBuf]
      · simp only [attachedTo, attach, hmap, setHeaderBuf, OpenCache.size, hsize]
      · simp only [attachedTo, attach, hmap, setHeaderBuf, header, hread, Option.getD_none,
          DiskCache.construct]
      · simp only [attachedTo, attach, hmap, setHeaderBuf, DiskCache.construct]
      · simp only [attachedTo, attach, hmap, setHeaderBuf, DiskCache.construct]
      · intro i _
        simp only [attachedTo, attach, hmap, setHeaderBuf, configMemory, isMapped,
          DiskCache.construct, Bool.false_eq_true, if_false]

/-- The damage is seen by a cache that opens the file anew, mapped or not. -/
theorem Holds.openAt_damaged (h : cache.Holds ext strings messages) (hlossless : ext.Lossless)
    (hdisk : DamagedFile ext cache messages damaged disk)
    (hopen : env.openFile = true) (hread : env.readHeader = none) :
    ∃ reopened, openAt ext cache.object.hash path config (some disk) env = (true, reopened)
      ∧ reopened.Stores ext (cacheHeaderSize + cache.header.configSize.toNat) messages
      ∧ reopened.disk = disk
      ∧ reopened.object.config = some (config.getD strings.toConfig) := by
  have hcap : cacheCapability ≤ disk.size := by
    rw [hdisk.size]
    exact h.whole.capability
  have hfile := h.closed.layout
  have hheader : CacheHeader.decode disk.byte = expectedHeader ext strings messages := by
    rw [← hfile.header]
    exact CacheHeader.decode_congr fun i hi => hdisk.front i (by omega)
  have hconfigSize : (CacheHeader.decode disk.byte).configSize.toNat
      = (ext.config.serialize strings).length := by
    rw [hheader, ← hfile.header, hfile.configSize]
  have hrecordSize : (CacheHeader.decode disk.byte).recordSize.toNat
      = (areaBytes ext messages).length := by
    rw [hheader, ← hfile.header, hfile.recordSize]
  have hrecordCount : (CacheHeader.decode disk.byte).recordCount.toNat = messages.length := by
    rw [hheader, ← hfile.header, hfile.recordCount]
  have hend : cacheHeaderSize + (ext.config.serialize strings).length
      + (areaBytes ext messages).length ≤ disk.size := by
    rw [hdisk.size]
    exact hfile.fits
  obtain ⟨hsame, hsize, hattached, hhash, _, hmemory⟩ :=
    @attachedTo_facts disk cache.object.hash path config env hcap hread
  have hvalid : (attachedTo cache.object.hash path config disk env).checkValid = true := by
    have hexpected := (hattached.trans hheader).trans
      (expectedHeader_recordCount strings messages).symm
    refine checkValid_of_expected hexpected (hhash.trans h.hash) ?_
    rw [OpenCache.areaEnd, hattached, hconfigSize, hrecordSize, hsize]
    exact hend
  have hsaved : (attachedTo cache.object.hash path config disk env).configMemory.read
      cacheHeaderSize (ext.config.serialize strings).length = ext.config.serialize strings := by
    have hfront : ∀ i, cacheHeaderSize ≤ i →
        i < cacheHeaderSize + (ext.config.serialize strings).length →
        (attachedTo cache.object.hash path config disk env).configMemory i = cache.disk.byte i := by
      intro i _ hi
      rw [hmemory i (by omega)]
      exact hdisk.front i (by rw [h.configSize]; exact hi)
    exact (Memory.read_congr hfront).trans hfile.config
  refine ⟨_, openAt_valid hopen hcap hlossless h.hash hvalid
    (by rw [hattached, hconfigSize]) hsaved,
    ⟨?_, ?_, ?_, ?_, ?_⟩, hsame, rfl⟩
  · refine (congrArg (cacheHeaderSize + ·) ?_)
    exact h.configSize.trans ((congrArg (·.configSize.toNat) hattached).trans hconfigSize).symm
  · exact (congrArg (·.recordCount.toNat) hattached).trans hrecordCount
  · exact (congrArg (·.recordSize.toNat) hattached).trans hrecordSize
  · exact areaEnd_le_of_checkValid hvalid
  · intro i hi
    have hin : cacheHeaderSize + cache.header.configSize.toNat + i < disk.size := by
      rw [h.configSize]
      omega
    have hstart : (attachedTo cache.object.hash path config disk env).area i
        = (attachedTo cache.object.hash path config disk env).configMemory
          (cacheHeaderSize + cache.header.configSize.toNat + i) := by
      rw [h.configSize, ← hconfigSize, ← hattached, configMemory, OpenCache.area]
      split <;> rfl
    calc (attachedTo cache.object.hash path config disk env).area i
        = (attachedTo cache.object.hash path config disk env).configMemory
          (cacheHeaderSize + cache.header.configSize.toNat + i) := hstart
      _ = disk.byte (cacheHeaderSize + cache.header.configSize.toNat + i) := hmemory _ hin
      _ = areaFrom (attachedTo cache.object.hash path config disk env).disk
          (cacheHeaderSize + cache.header.configSize.toNat) i := by rw [hsame]; rfl

end Reopen

/-! ### A cache that is not mapped -/

/-- The header is in `header_buf`, and the file holds the records of `messages`. -/
structure Appended (ext : Externals) (cache : OpenCache) (strings : TrackDiskCacheConfig)
    (messages : List TrackMessageImpl) : Prop where
  ptr : cache.object.cacheHeader = .headerBuf
  curSize : cache.object.file.curSize = cache.disk.size
  capability : cacheCapability ≤ cache.disk.size
  headerBuf : cache.object.headerBuf = expectedHeader ext strings messages
  records : cache.disk.byte.read (cacheHeaderSize + (ext.config.serialize strings).length)
    (areaBytes ext messages).length = areaBytes ext messages
  fits : layoutEnd ext strings messages ≤ cache.disk.size
  bounded : layoutEnd ext strings messages ≤ maxCacheSize

theorem expectedHeader_toNat (hbounded : layoutEnd ext strings messages ≤ maxCacheSize) :
    (expectedHeader ext strings messages).configSize.toNat = (ext.config.serialize strings).length
      ∧ (expectedHeader ext strings messages).recordSize.toNat = (areaBytes ext messages).length
      ∧ (expectedHeader ext strings messages).recordCount.toNat = messages.length := by
  have hlimit : maxCacheSize < 2 ^ 32 := by decide
  have hcount := length_le_areaBytes ext messages
  have hheader : recordHeaderSize = 20 := rfl
  rw [hheader] at hcount
  unfold layoutEnd at hbounded
  simp only [expectedHeader, UInt32.toNat_ofNat']
  omega

namespace Appended

variable {message : TrackMessageImpl}

theorem isMapped (h : cache.Appended ext strings messages) : cache.isMapped = false := by
  simp only [OpenCache.isMapped, h.ptr]

theorem header_eq (h : cache.Appended ext strings messages) :
    cache.header = expectedHeader ext strings messages := by
  simp only [OpenCache.header, h.ptr, h.headerBuf]

theorem size_eq (h : cache.Appended ext strings messages) : cache.size = cache.disk.size := by
  have hpos : 0 < cache.disk.size := Nat.lt_of_lt_of_le (by decide) h.capability
  rw [OpenCache.size, File.size, h.curSize, if_pos (by omega)]

theorem areaEnd (h : cache.Appended ext strings messages) :
    cache.areaEnd = layoutEnd ext strings messages := by
  obtain ⟨hconfig, hrecord, _⟩ := expectedHeader_toNat h.bounded
  rw [OpenCache.areaEnd, h.header_eq, hconfig, hrecord, layoutEnd]

theorem nextSize (h : cache.Appended ext strings messages) :
    cache.nextSize ext message = layoutEnd ext strings (messages ++ [message]) := by
  rw [nextSize_eq, h.areaEnd, layoutEnd_append]

theorem grow (h : cache.Appended ext strings messages) {env : PushEnv} (henv : env.Unmaps)
    (nextSize : Nat) :
    ∃ grown, cache.grow env nextSize = (true, grown) ∧ grown.Appended ext strings messages
      ∧ grown.disk.size = (if nextSize > cache.size then cache.size + cacheCapability
        else cache.size)
      ∧ grown.object.config = cache.object.config := by
  have hsize := h.size_eq
  have hfits := h.fits
  by_cases hlarge : nextSize > cache.size
  · have hmapped : (cache.resize (cache.size + cacheCapability)).isMapped = false := h.isMapped
    have hcap := h.capability
    refine ⟨cache.resize (cache.size + cacheCapability), ?_, ⟨h.ptr, rfl, ?_, h.headerBuf, ?_, ?_,
      h.bounded⟩, ?_, rfl⟩
    · simp only [OpenCache.grow, hlarge, henv.resize, hmapped, if_true,
        Bool.false_eq_true, if_false]
    · simp only [resize, FileData.resize_size]
      omega
    · simp only [resize]
      rw [FileData.resize_byte_of_le (by omega)]
      exact h.records
    · simp only [resize, FileData.resize_size]
      omega
    · simp only [resize, FileData.resize_size, hlarge, if_true]
  · refine ⟨cache, ?_, h, ?_, rfl⟩
    · simp only [OpenCache.grow, hlarge, if_false]
    · rw [if_neg hlarge, hsize]

/-- The two writes of a record put it behind the others; the pointer goes over the file's header. -/
theorem append (h : cache.Appended ext strings messages) {env : PushEnv} (henv : env.Unmaps)
    (hmax : layoutEnd ext strings (messages ++ [message]) ≤ maxCacheSize)
    (hroom : layoutEnd ext strings (messages ++ [message]) ≤ cache.disk.size) :
    ∃ next, cache.appendUnmapped ext env message = (true, next)
      ∧ next.Appended ext strings (messages ++ [message])
      ∧ next.object.config = cache.object.config := by
  have hareaEnd := h.areaEnd
  have hend := @layoutEnd_append ext strings messages message
  have hheaderLength := recordHeader_bytes_length ext message
  have hcontent : (ext.message.serialize message.proto).length = message.getSerializeSize ext := rfl
  have hpointer := henv.pointer
  have hoffset : cacheHeaderSize = 28 := rfl
  have hstart : layoutEnd ext strings messages = cacheHeaderSize
    + (ext.config.serialize strings).length + (areaBytes ext messages).length := rfl
  let disk₁ := cache.disk.pwrite cache.areaEnd (recordHeader ext message).bytes
  let disk₂ := disk₁.pwrite (cache.areaEnd + recordHeaderSize)
    (ext.message.serialize message.proto)
  let disk₃ := disk₂.pwrite 0 env.pointer
  have hsize₁ : disk₁.size = cache.disk.size := FileData.pwrite_size (by omega)
  have hsize₂ : disk₂.size = cache.disk.size := (FileData.pwrite_size (by omega)).trans hsize₁
  have hsize₃ : disk₃.size = cache.disk.size := (FileData.pwrite_size (by omega)).trans hsize₂
  have hbyte : disk₃.byte = ((cache.disk.byte.write cache.areaEnd
      (recordHeader ext message).bytes).write (cache.areaEnd + recordHeaderSize)
      (ext.message.serialize message.proto)).write 0 env.pointer := by
    simp only [disk₃, disk₂, disk₁, FileData.pwrite_byte]
  let next : OpenCache := { cache.setHeaderBuf
    (cache.header.addRecord (message.getSerializeSize ext)) with disk := disk₃ }
  refine ⟨next, ?_, ⟨h.ptr, ?_, ?_, ?_, ?_, ?_, hmax⟩, rfl⟩
  · simp only [appendUnmapped, henv.serialize, FileData.write, henv.writeRecordHeader,
      henv.writeContent, henv.writeCacheHeader, henv.flush, Bool.not_true, Bool.false_eq_true,
      if_false, next, disk₃, disk₂, disk₁]
  · exact h.curSize.trans hsize₃.symm
  · exact Nat.le_trans h.capability (Nat.le_of_eq hsize₃.symm)
  · rw [show next.object.headerBuf = cache.header.addRecord (message.getSerializeSize ext) from rfl,
      h.header_eq, expectedHeader_addRecord]
  · rw [show next.disk.byte = disk₃.byte from rfl, hbyte, areaBytes_append, List.length_append,
      Memory.read_add, recordBytes_length, Memory.read_add]
    have hbefore := h.records
    rw [Memory.read_write_disjoint (by omega), Memory.read_write_disjoint (by omega),
      Memory.read_write_disjoint (by omega), hbefore, recordBytes]
    rw [hareaEnd, hstart]
    rw [Memory.read_write_disjoint (by omega), Memory.read_write_disjoint (by omega),
      Memory.read_write_of_length hheaderLength, Memory.read_write_disjoint (by omega),
      Memory.read_write_of_length hcontent]
  · exact Nat.le_trans hroom (Nat.le_of_eq hsize₃.symm)

/-- A push of a record of at most 64 KiB appends, or is over the limit and does nothing. -/
theorem push (h : cache.Appended ext strings messages) {env : PushEnv} (henv : env.Unmaps)
    (hsmall : recordHeaderSize + message.getSerializeSize ext ≤ 65536) :
    cache.push ext env message = (false, cache)
      ∨ ∃ next, cache.push ext env message = (true, next)
        ∧ next.Appended ext strings (messages ++ [message])
        ∧ next.object.config = cache.object.config := by
  by_cases hmax : cache.nextSize ext message > maxCacheSize
  · exact .inl (push_of_gt hmax env)
  · right
    obtain ⟨grown, hgrow, hgrown, hsize, hconfig⟩ := h.grow henv (cache.nextSize ext message)
    have hnext : cache.nextSize ext message = layoutEnd ext strings (messages ++ [message]) :=
      h.nextSize
    have hend := @layoutEnd_append ext strings messages message
    have hfits := h.fits
    have hold := h.size_eq
    have hcap : cacheCapability = 65536 := rfl
    have hroom : layoutEnd ext strings (messages ++ [message]) ≤ grown.disk.size := by
      rw [hsize]
      split <;> omega
    obtain ⟨next, happend, hnextHolds, hsame⟩ := hgrown.append henv (by omega) hroom
    refine ⟨next, ?_, hnextHolds, hsame.trans hconfig⟩
    simp only [OpenCache.push, hmax, if_false, hgrow, hgrown.isMapped, Bool.false_eq_true, happend]

theorem records_areaFrom (h : cache.Appended ext strings messages) :
    (areaFrom cache.disk (cacheHeaderSize + cache.header.configSize.toNat)).read 0
      (areaBytes ext messages).length = areaBytes ext messages := by
  rw [read_areaFrom, Nat.add_zero, h.header_eq, (expectedHeader_toNat h.bounded).1]
  exact h.records

theorem stores_damaged (h : cache.Appended ext strings messages) (disk : FileData) :
    ({ cache with disk := disk } : OpenCache).Stores ext
      (cacheHeaderSize + cache.header.configSize.toNat) messages := by
  obtain ⟨_, hrecord, hcount⟩ := expectedHeader_toNat h.bounded
  have hheader : ({ cache with disk := disk } : OpenCache).header
      = expectedHeader ext strings messages := by
    simp only [OpenCache.header, h.ptr, h.headerBuf]
  have hend : ({ cache with disk := disk } : OpenCache).areaEnd = cache.areaEnd := by
    rw [OpenCache.areaEnd, hheader, ← h.header_eq, OpenCache.areaEnd]
  have hpos : 0 < cache.disk.size := Nat.lt_of_lt_of_le (by decide) h.capability
  refine ⟨by rw [hheader, h.header_eq], by rw [hheader, hcount], by rw [hheader, hrecord], ?_, ?_⟩
  · rw [hend, h.areaEnd, OpenCache.size, File.size, h.curSize, if_pos (by omega)]
    exact h.fits
  · intro i _
    have hunmapped : ({ cache with disk := disk } : OpenCache).isMapped = false := h.isMapped
    simp only [area, hunmapped, Bool.false_eq_true, if_false, areaFrom, hheader, h.header_eq]

end Appended

theorem EmptyBuffered.appended (h : cache.EmptyBuffered ext strings)
    (hfits : ConfigFits ext strings) : cache.Appended ext strings [] := by
  have hend : layoutEnd ext strings [] = cacheHeaderSize + (ext.config.serialize strings).length :=
    rfl
  have hroom : (ext.config.serialize strings).length ≤ cacheCapability - cacheHeaderSize := hfits
  have hlarge : cacheHeaderSize ≤ cacheCapability := by decide
  have hlimit : cacheCapability ≤ maxCacheSize := by decide
  have hsize := h.size
  exact ⟨h.ptr, h.curSize.trans hsize.symm, Nat.le_of_eq hsize.symm, h.headerBuf, rfl, by omega,
    by omega⟩

end OpenCache

/-! ### Caches produced by pushing -/

/-- Everything but mapping succeeds, so that the file is written by the unmapped branch. -/
def CacheOp.UnmappedPush : CacheOp → Prop
  | .push env _ => env.Unmaps
  | _ => False

namespace History

variable {history : History} {config : TrackerConfig}

theorem run_appended {ops : List CacheOp} (hops : ∀ op ∈ ops, op.UnmappedPush ∧ op.Small ext)
    (happended : history.cache.Appended ext config.strings history.accepted) :
    ∃ last, ops.foldlM (step ext) history = some last
      ∧ last.cache.Appended ext config.strings last.accepted := by
  induction ops generalizing history with
  | nil => exact ⟨history, rfl, happended⟩
  | cons op ops ih =>
      obtain ⟨hunmapped, hsmall⟩ := hops op List.mem_cons_self
      have hrest : ∀ op ∈ ops, op.UnmappedPush ∧ op.Small ext :=
        fun op hop => hops op (List.mem_cons_of_mem _ hop)
      cases op with
      | push env message =>
          rw [List.foldlM_cons]
          rcases happended.push hunmapped hsmall with hpush | ⟨next, hpush, hnext, _⟩
          · have hstep : history.step ext (.push env message) = some history := by
              simp only [step, OpenCache.perform, hpush]
            rw [hstep]
            exact ih hrest happended
          · have hstep : history.step ext (.push env message)
                = some ⟨next, history.accepted ++ [message]⟩ := by
              simp only [step, OpenCache.perform, hpush]
            rw [hstep]
            exact ih hrest hnext
      | clear env => exact hunmapped.elim
      | reopen given env => exact hunmapped.elim

/-- **A damaged record costs only itself.** A cache is filled with records of at most 64 KiB, mapped
or unmapped; then any set of its records is damaged. `Load` returns exactly the other messages, in
their order: from the object that filled the cache, and, where the file was mapped, from any object
that opens it again. -/
theorem load_damaged (hlossless : ext.Lossless) (config : TrackerConfig)
    (hfits : (ext.config.serialize config.strings).length ≤ 65536 - 28) (path : Str)
    (env : InitEnv) (ops : List CacheOp)
    (hops : env.Succeeds ∧ (∀ op ∈ ops, op.Regular config ∧ op.Small ext)
      ∨ env.Unmaps ∧ ∀ op ∈ ops, op.UnmappedPush ∧ op.Small ext) :
    ∃ history, run ext config path env ops = some history
      ∧ ∀ damaged disk, history.cache.DamagedFile ext history.accepted damaged disk → ∀ clock,
          ({ history.cache with disk := disk } : OpenCache).load ext clock
              = survivors history.cache.object.config clock damaged 0 history.accepted
          ∧ (env.Succeeds → ∀ given reopenEnv,
              reopenEnv.Succeeds ∨ reopenEnv.Unmaps →
              ∃ reopened, OpenCache.openAt ext history.cache.object.hash path given (some disk)
                  reopenEnv = (true, reopened)
                ∧ reopened.load ext clock
                  = survivors (some (given.getD config.strings.toConfig)) clock damaged 0
                    history.accepted) := by
  rcases hops with ⟨henv, hops⟩ | ⟨henv, hops⟩
  · obtain ⟨first, hstart, hfirst⟩ := start_sound hfits henv path
    obtain ⟨history, hrun, hsound⟩ := run_sound hlossless hfits hops hfirst
    refine ⟨history, by rw [run, hstart]; exact hrun, ?_⟩
    intro damaged disk hdisk clock
    refine ⟨(hsound.stores_damaged hdisk).load_survivors hlossless hsound.records_areaFrom
      hdisk.records clock, ?_⟩
    intro _ given reopenEnv hreopen
    have hopen : reopenEnv.openFile = true := hreopen.elim (·.openFile) (·.openFile)
    have hread : reopenEnv.readHeader = none := hreopen.elim (·.readHeader) (·.readHeader)
    obtain ⟨reopened, hopened, hstores, hsame, hgiven⟩ :=
      @OpenCache.Holds.openAt_damaged ext history.cache history.accepted damaged config.strings disk
        path given reopenEnv hsound hlossless hdisk hopen hread
    refine ⟨reopened, hopened, ?_⟩
    rw [hstores.load_survivors hlossless hsound.records_areaFrom
      (by rw [hsame]; exact hdisk.records), hgiven]
  · obtain ⟨opened, hopened, hgiven, hopen⟩ := @OpenCache.openAt_absent_buffered ext config env henv
      path
    obtain ⟨cache, hreset, hempty⟩ := hopened.reset henv.reset hgiven rfl hfits
    have hstart : start ext config path env = some ⟨cache, []⟩ := by
      rw [start, hopen, hreset]
    obtain ⟨history, hrun, happended⟩ := @run_appended ext ⟨cache, []⟩ config ops hops
      (hempty.appended hfits)
    refine ⟨history, by rw [run, hstart]; exact hrun, ?_⟩
    intro damaged disk hdisk clock
    refine ⟨(happended.stores_damaged disk).load_survivors hlossless happended.records_areaFrom
      hdisk.records clock, ?_⟩
    intro hmaps
    have hmap := hmaps.map
    rw [henv.map] at hmap
    cases hmap

theorem load_damaged_first_of_two : ∃ history,
    run wireFormat plainConfig [] InitEnv.ideal
        [.push PushEnv.ideal (plainMessage [118]), .push PushEnv.ideal (plainMessage [119])]
      = some history
    ∧ ∃ disk, history.cache.DamagedFile wireFormat history.accepted (· == 0) disk
      ∧ ∀ clock, (({ history.cache with disk := disk } : OpenCache).load wireFormat clock).map
          (·.proto) = [(plainMessage [119]).proto] := by
  have hops : ∀ op ∈ [CacheOp.push PushEnv.ideal (plainMessage [118]),
      .push PushEnv.ideal (plainMessage [119])],
      op.Regular plainConfig ∧ op.Small wireFormat := by
    intro op hop
    rcases List.mem_cons.mp hop with rfl | hop
    · exact ⟨PushEnv.ideal_succeeds, by simp only [CacheOp.Small]; decide⟩
    · rw [List.mem_singleton.mp hop]
      exact ⟨PushEnv.ideal_succeeds, by simp only [CacheOp.Small]; decide⟩
  obtain ⟨history, hrun, hload⟩ := load_damaged wireFormat_lossless plainConfig (by decide) []
    InitEnv.ideal _ (.inl ⟨InitEnv.ideal_succeeds, hops⟩)
  have hfacts : (run wireFormat plainConfig [] InitEnv.ideal
      [.push PushEnv.ideal (plainMessage [118]), .push PushEnv.ideal (plainMessage [119])]).any
        (fun (last : History) =>
          decide (last.accepted = [plainMessage [118], plainMessage [119]])
            && decide (cacheHeaderSize + last.cache.header.configSize.toNat + 1
              ≤ last.cache.disk.size)) = true := by
    decide +kernel
  rw [hrun, Option.any_some, Bool.and_eq_true, decide_eq_true_eq, decide_eq_true_eq] at hfacts
  have hdamaged := @OpenCache.damagedFile_pwrite_zero wireFormat history.cache history.accepted
    hfacts.2
  refine ⟨history, hrun, _, hdamaged, fun clock => ?_⟩
  rw [(hload _ _ hdamaged clock).1, hfacts.1]
  rfl

end History

end TapSdk.Tracker
