import TapSdk.Tracker.DiskCache

/-!
# Headers in memory, and the mapped file

How the header changes under a store, and what a cache whose mapping covers its whole file sees: the
bytes of the file, through every store, growth and shrinking that succeeds.
-/

namespace TapSdk.Tracker

open Library

/-! ### Header fields under stores -/

section Decode

variable {memory memory' : Memory}

theorem CacheHeader.decode_congr (h : ∀ i, i < cacheHeaderSize → memory i = memory' i) :
    CacheHeader.decode memory = CacheHeader.decode memory' := by
  have hread : ∀ offset size, offset + size ≤ cacheHeaderSize →
      memory.read offset size = memory'.read offset size := by
    intro offset size hle
    exact Memory.read_congr fun i _ hi => h i (by omega)
  simp only [CacheHeader.decode, cacheHeaderSize] at hread ⊢
  rw [hread 0 4 (by omega), hread 4 4 (by omega), hread 8 8 (by omega), hread 16 4 (by omega),
    hread 20 4 (by omega), hread 24 4 (by omega)]

theorem CacheHeader.decode_write_of_le {offset : Nat} {bytes : List UInt8}
    (h : cacheHeaderSize ≤ offset) :
    CacheHeader.decode (memory.write offset bytes) = CacheHeader.decode memory :=
  CacheHeader.decode_congr fun _ hi => Memory.write_of_outside (Or.inl (by omega))

theorem CacheHeader.decode_write_magic {bytes : List UInt8} (h : bytes.length = 4) :
    CacheHeader.decode (memory.write 0 bytes)
      = { CacheHeader.decode memory with magic := bytes } := by
  simp (disch := omega) [CacheHeader.decode, Memory.read_write_of_length h,
    Memory.read_write_disjoint]

theorem CacheHeader.decode_write_verCode (value : UInt32) :
    CacheHeader.decode (memory.write 4 (le32 value))
      = { CacheHeader.decode memory with verCode := value } := by
  have hself : (memory.write 4 (le32 value)).read 4 4 = le32 value :=
    Memory.read_write_of_length (length_le32 value)
  simp [CacheHeader.decode, hself, Memory.read_write_disjoint]

theorem CacheHeader.decode_write_configHash (value : UInt64) :
    CacheHeader.decode (memory.write 8 (le64 value))
      = { CacheHeader.decode memory with configHash := value } := by
  have hself : (memory.write 8 (le64 value)).read 8 8 = le64 value :=
    Memory.read_write_of_length (length_le64 value)
  simp [CacheHeader.decode, hself, Memory.read_write_disjoint]

theorem CacheHeader.decode_write_configSize (value : UInt32) :
    CacheHeader.decode (memory.write 16 (le32 value))
      = { CacheHeader.decode memory with configSize := value } := by
  have hself : (memory.write 16 (le32 value)).read 16 4 = le32 value :=
    Memory.read_write_of_length (length_le32 value)
  simp [CacheHeader.decode, hself, Memory.read_write_disjoint]

theorem CacheHeader.decode_write_recordCount (value : UInt32) :
    CacheHeader.decode (memory.write 20 (le32 value))
      = { CacheHeader.decode memory with recordCount := value } := by
  have hself : (memory.write 20 (le32 value)).read 20 4 = le32 value :=
    Memory.read_write_of_length (length_le32 value)
  simp [CacheHeader.decode, hself, Memory.read_write_disjoint]

theorem CacheHeader.decode_write_recordSize (value : UInt32) :
    CacheHeader.decode (memory.write 24 (le32 value))
      = { CacheHeader.decode memory with recordSize := value } := by
  have hself : (memory.write 24 (le32 value)).read 24 4 = le32 value :=
    Memory.read_write_of_length (length_le32 value)
  simp [CacheHeader.decode, hself, Memory.read_write_disjoint]

/-- The header is its bytes. -/
theorem CacheHeader.bytes_decode : (CacheHeader.decode memory).bytes
    = memory.read 0 cacheHeaderSize := by
  have hsplit : memory.read 0 cacheHeaderSize = memory.read 0 4 ++ memory.read 4 4
      ++ memory.read 8 8 ++ memory.read 16 4 ++ memory.read 20 4 ++ memory.read 24 4 := by
    rw [show cacheHeaderSize = 4 + 4 + 8 + 4 + 4 + 4 from rfl, Memory.read_add, Memory.read_add,
      Memory.read_add, Memory.read_add, Memory.read_add]
  rw [hsplit]
  simp only [CacheHeader.bytes, CacheHeader.decode, le32_fromLe32 Memory.length_read,
    le64_fromLe64 Memory.length_read]

theorem CacheHeader.bytes_length {header : CacheHeader} (h : header.magic.length = 4) :
    header.bytes.length = cacheHeaderSize := by
  simp [CacheHeader.bytes, h, cacheHeaderSize]

theorem CacheHeader.bytes_inj {header header' : CacheHeader} (h : header.magic.length = 4)
    (h' : header'.magic.length = 4) (hbytes : header.bytes = header'.bytes) : header = header' := by
  unfold CacheHeader.bytes at hbytes
  obtain ⟨hbytes, hrecordSize⟩ := List.append_inj' hbytes (by simp)
  obtain ⟨hbytes, hrecordCount⟩ := List.append_inj' hbytes (by simp)
  obtain ⟨hbytes, hconfigSize⟩ := List.append_inj' hbytes (by simp)
  obtain ⟨hbytes, hconfigHash⟩ := List.append_inj' hbytes (by simp)
  obtain ⟨hmagic, hverCode⟩ := List.append_inj' hbytes (by simp)
  have hword : ∀ {value value' : UInt32}, le32 value = le32 value' → value = value' := by
    intro value value' heq
    rw [← fromLe32_le32 value, heq, fromLe32_le32]
  have hlong : header.configHash = header'.configHash := by
    rw [← fromLe64_le64 header.configHash, hconfigHash, fromLe64_le64]
  obtain ⟨_, _, _, _, _, _⟩ := header
  obtain ⟨_, _, _, _, _, _⟩ := header'
  simp only [CacheHeader.mk.injEq]
  exact ⟨hmagic, hword hverCode, hlong, hword hconfigSize, hword hrecordCount, hword hrecordSize⟩

theorem CacheHeader.decode_write_bytes {header : CacheHeader} (h : header.magic.length = 4) :
    CacheHeader.decode (memory.write 0 header.bytes) = header := by
  apply CacheHeader.bytes_inj (by simp [CacheHeader.decode]) h
  rw [CacheHeader.bytes_decode, Memory.read_write_of_length (CacheHeader.bytes_length h)]

end Decode

/-! ### A live mapping -/

/-- `cache_header` points at a live mapping of `length` bytes, all of them inside the file. -/
structure OpenCache.MappedTo (cache : OpenCache) (length : Nat) : Prop where
  ptr : ∃ beyond, cache.object.cacheHeader = .mapping length beyond
  le_size : length ≤ cache.disk.size

namespace OpenCache

variable {cache : OpenCache} {length offset : Nat} {bytes : List UInt8}

theorem MappedTo.isMapped (h : cache.MappedTo length) : cache.isMapped = true := by
  obtain ⟨beyond, hptr⟩ := h.ptr
  simp [OpenCache.isMapped, hptr]

theorem MappedTo.header_eq (h : cache.MappedTo length) :
    cache.header = CacheHeader.decode cache.memory := by
  obtain ⟨beyond, hptr⟩ := h.ptr
  simp [OpenCache.header, hptr]

theorem MappedTo.memory_of_lt (h : cache.MappedTo length) {i : Nat} (hi : i < length) :
    cache.memory i = cache.disk.byte i := by
  obtain ⟨beyond, hptr⟩ := h.ptr
  simp [OpenCache.memory, hptr, hi]

theorem MappedTo.store (h : cache.MappedTo length) :
    (cache.store offset bytes).MappedTo length := by
  obtain ⟨beyond, hptr⟩ := h.ptr
  constructor
  · exact ⟨fun i => if i < length then beyond i else beyond.write offset bytes i, by
      simp only [OpenCache.store, hptr]⟩
  · simpa only [OpenCache.store, hptr, FileData.storeMapped_size] using h.le_size

theorem MappedTo.memory_store (h : cache.MappedTo length) :
    (cache.store offset bytes).memory = cache.memory.write offset bytes := by
  obtain ⟨beyond, hptr⟩ := h.ptr
  have hle := h.le_size
  funext i
  by_cases hi : i < length
  · have hsize : i < cache.disk.size := by omega
    simp [OpenCache.memory, OpenCache.store, hptr, FileData.storeMapped, Memory.write, hi, hsize]
  · simp [OpenCache.memory, OpenCache.store, hptr, Memory.write, hi]

/-- The parts of the object and of the file that a store leaves alone. -/
structure SameFrame (cache cache' : OpenCache) : Prop where
  hash : cache'.object.hash = cache.object.hash
  path : cache'.object.path = cache.object.path
  config : cache'.object.config = cache.object.config
  file : cache'.object.file = cache.object.file
  headerBuf : cache'.object.headerBuf = cache.object.headerBuf
  size : cache'.disk.size = cache.disk.size

theorem SameFrame.refl (cache : OpenCache) : SameFrame cache cache :=
  ⟨rfl, rfl, rfl, rfl, rfl, rfl⟩

theorem SameFrame.trans {cache' cache'' : OpenCache} (h : SameFrame cache cache')
    (h' : SameFrame cache' cache'') : SameFrame cache cache'' :=
  ⟨h'.hash.trans h.hash, h'.path.trans h.path, h'.config.trans h.config, h'.file.trans h.file,
    h'.headerBuf.trans h.headerBuf, h'.size.trans h.size⟩

theorem sameFrame_store (cache : OpenCache) (offset : Nat) (bytes : List UInt8) :
    SameFrame cache (cache.store offset bytes) := by
  unfold OpenCache.store
  split
  · exact ⟨rfl, rfl, rfl, rfl, rfl, rfl⟩
  · exact SameFrame.refl cache

theorem sameFrame_storeAll (stores : List (Nat × List UInt8)) (cache : OpenCache) :
    SameFrame cache (cache.storeAll stores) := by
  induction stores generalizing cache with
  | nil => exact SameFrame.refl cache
  | cons entry stores ih => exact (sameFrame_store cache entry.1 entry.2).trans (ih _)

theorem MappedTo.storeAll (h : cache.MappedTo length) (stores : List (Nat × List UInt8)) :
    (cache.storeAll stores).MappedTo length := by
  induction stores generalizing cache with
  | nil => exact h
  | cons entry stores ih => exact ih h.store

theorem MappedTo.memory_storeAll (h : cache.MappedTo length)
    (stores : List (Nat × List UInt8)) :
    (cache.storeAll stores).memory
      = stores.foldl (fun memory entry => memory.write entry.1 entry.2) cache.memory := by
  induction stores generalizing cache with
  | nil => rfl
  | cons entry stores ih =>
      change ((cache.store entry.1 entry.2).storeAll stores).memory = _
      rw [ih h.store, h.memory_store, List.foldl_cons]

/-! ### The whole file mapped -/

/-- The mapping covers the file, the cached size is the size, and the file has at least its initial
capacity. With all file operations and `mmap` succeeding no other state arises. -/
structure WholeMapped (cache : OpenCache) : Prop where
  mapped : cache.MappedTo cache.disk.size
  curSize : cache.object.file.curSize = cache.disk.size
  capability : cacheCapability ≤ cache.disk.size

theorem WholeMapped.size_eq (h : cache.WholeMapped) : cache.size = cache.disk.size := by
  have hpos : 0 < cacheCapability := by decide
  have hcap := h.capability
  have hcur := h.curSize
  unfold OpenCache.size File.size
  rw [if_pos (by omega), hcur]

theorem WholeMapped.header_eq (h : cache.WholeMapped) :
    cache.header = CacheHeader.decode cache.memory := h.mapped.header_eq

theorem WholeMapped.storeAll (h : cache.WholeMapped) (stores : List (Nat × List UInt8)) :
    (cache.storeAll stores).WholeMapped := by
  have hframe := sameFrame_storeAll stores cache
  constructor
  · rw [hframe.size]
    exact h.mapped.storeAll stores
  · rw [hframe.file, hframe.size, h.curSize]
  · rw [hframe.size]
    exact h.capability

theorem size_resize {newSize : Nat} (hpos : 0 < newSize) :
    (cache.resize newSize).size = newSize := by
  rw [OpenCache.size, File.size]
  exact if_pos (Nat.ne_of_gt hpos)

theorem wholeMapped_remap (cache : OpenCache) {newSize : Nat} (beyond : Memory)
    (hcap : cacheCapability ≤ newSize) :
    ((cache.resize newSize).setPtr (.mapping newSize beyond)).WholeMapped :=
  ⟨⟨⟨beyond, rfl⟩, Nat.le_refl newSize⟩, rfl, hcap⟩

theorem WholeMapped.memory_remap (h : cache.WholeMapped) {newSize i : Nat} {beyond : Memory}
    (hi : i < cache.disk.size) (hnew : i < newSize) :
    ((cache.resize newSize).setPtr (.mapping newSize beyond)).memory i = cache.memory i := by
  rw [h.mapped.memory_of_lt hi]
  simp [OpenCache.memory, setPtr, OpenCache.resize, hnew, FileData.resize_byte hnew]

end OpenCache

end TapSdk.Tracker
