import TapSdk.Tracker.Proof.RecordArea

/-!
# One push through the mapping

What a `Push` does to a cache whose file is mapped as a whole when every operation it performs
succeeds: the growth keeps every byte, the stores put the record behind the others, and the header
counts it. Whether the record lies inside the file plays no part yet.
-/

namespace TapSdk.Tracker

open Library

namespace OpenCache

variable {ext : Externals} {cache : OpenCache} {message : TrackMessageImpl} {length : Nat}

theorem cacheHeaderSize_le_areaEnd (cache : OpenCache) : cacheHeaderSize ≤ cache.areaEnd := by
  unfold areaEnd
  omega

theorem nextSize_eq (cache : OpenCache) (message : TrackMessageImpl) :
    cache.nextSize ext message
      = cache.areaEnd + recordHeaderSize + message.getSerializeSize ext := rfl

/-! ### The stores -/

theorem MappedTo.memory_pushStores (h : cache.MappedTo length) :
    (cache.storeAll (cache.pushStores ext message)).memory
      = (((cache.memory.write (cache.areaEnd + recordHeaderSize)
            (ext.message.serialize message.proto)).write cache.areaEnd
            (recordHeader ext message).bytes).write 20
            (le32 (cache.header.addRecord (message.getSerializeSize ext)).recordCount)).write 24
            (le32 (cache.header.addRecord (message.getSerializeSize ext)).recordSize) := by
  rw [h.memory_storeAll]
  rfl

theorem MappedTo.header_pushStores (h : cache.MappedTo length) :
    (cache.storeAll (cache.pushStores ext message)).header
      = cache.header.addRecord (message.getSerializeSize ext) := by
  have hend := cache.cacheHeaderSize_le_areaEnd
  rw [(h.storeAll _).header_eq, h.memory_pushStores, CacheHeader.decode_write_recordSize,
    CacheHeader.decode_write_recordCount, CacheHeader.decode_write_of_le hend,
    CacheHeader.decode_write_of_le (by omega), ← h.header_eq]
  rfl

theorem MappedTo.memory_pushStores_of_lt (h : cache.MappedTo length) {i : Nat}
    (hlow : cacheHeaderSize ≤ i) (hhigh : i < cache.areaEnd) :
    (cache.storeAll (cache.pushStores ext message)).memory i = cache.memory i := by
  have hsize : cacheHeaderSize = 28 := rfl
  rw [h.memory_pushStores, Memory.write_of_outside (by simp; omega),
    Memory.write_of_outside (by simp; omega), Memory.write_of_outside (Or.inl hhigh),
    Memory.write_of_outside (Or.inl (by omega))]

theorem MappedTo.read_pushStores (h : cache.MappedTo length) :
    (cache.storeAll (cache.pushStores ext message)).memory.read cache.areaEnd
      (recordBytes ext message).length = recordBytes ext message := by
  have hend := cache.cacheHeaderSize_le_areaEnd
  have hsize : cacheHeaderSize = 28 := rfl
  have hheader := recordHeader_bytes_length ext message
  have hdata : (ext.message.serialize message.proto).length = message.getSerializeSize ext := rfl
  rw [h.memory_pushStores, Memory.read_write_disjoint (by simp; omega),
    Memory.read_write_disjoint (by simp; omega), recordBytes_length, Memory.read_add]
  rw [Memory.read_write_of_length hheader, Memory.read_write_disjoint (by omega),
    Memory.read_write_of_length hdata, recordBytes]

/-- Below the limit the 32-bit counters do not wrap. -/
theorem addRecord_recordSize (header : CacheHeader) (cacheSize : Nat)
    (h : header.recordSize.toNat + recordHeaderSize + cacheSize < 2 ^ 32) :
    (header.addRecord cacheSize).recordSize.toNat
      = header.recordSize.toNat + recordHeaderSize + cacheSize := by
  simp only [CacheHeader.addRecord, UInt32.toNat_add, UInt32.toNat_ofNat']
  omega

theorem MappedTo.areaEnd_pushStores (h : cache.MappedTo length)
    (hmax : cache.nextSize ext message ≤ maxCacheSize) :
    (cache.storeAll (cache.pushStores ext message)).areaEnd = cache.nextSize ext message := by
  have hlimit : maxCacheSize < 2 ^ 32 := by decide
  have hnext : cache.nextSize ext message = cacheHeaderSize + cache.header.configSize.toNat
    + cache.header.recordSize.toNat + recordHeaderSize + message.getSerializeSize ext := rfl
  have hsum := addRecord_recordSize cache.header (message.getSerializeSize ext) (by omega)
  have hconfig : (cache.header.addRecord (message.getSerializeSize ext)).configSize
      = cache.header.configSize := rfl
  rw [areaEnd, h.header_pushStores, hsum, hconfig, hnext]
  omega

/-- No store of a push goes past the end of its record. -/
theorem end_le_of_mem_pushStores {entry : Nat × List UInt8}
    (hentry : entry ∈ cache.pushStores ext message) :
    entry.1 + entry.2.length ≤ cache.nextSize ext message := by
  have hlow := cache.cacheHeaderSize_le_areaEnd
  have hoffset : cacheHeaderSize = 28 := rfl
  have hheader := recordHeader_bytes_length ext message
  have hdata : (ext.message.serialize message.proto).length = message.getSerializeSize ext := rfl
  rw [nextSize_eq]
  simp only [pushStores, recordStores, List.mem_cons, List.not_mem_nil, or_false] at hentry
  rcases hentry with rfl | rfl | rfl | rfl
  · simp only
    omega
  · simp only
    omega
  · simp only [length_le32]
    omega
  · simp only [length_le32]
    omega

/-! ### The growth -/

/-- What growing leaves alone: everything but the size of the file and the mapping. -/
structure GrownFrom (cache grown : OpenCache) : Prop where
  hash : grown.object.hash = cache.object.hash
  path : grown.object.path = cache.object.path
  config : grown.object.config = cache.object.config
  headerBuf : grown.object.headerBuf = cache.object.headerBuf
  size_le : cache.disk.size ≤ grown.disk.size
  byte : grown.disk.byte = cache.disk.byte
  memory : ∀ i, i < cache.disk.size → grown.memory i = cache.memory i

def grownSize (cache : OpenCache) (nextSize : Nat) : Nat :=
  if nextSize > cache.size then cache.size + cacheCapability else cache.size

/-- Growing succeeds, by one step, and the whole file is mapped again. -/
theorem WholeMapped.grow (h : cache.WholeMapped) {env : PushEnv} (henv : env.Succeeds)
    (nextSize : Nat) :
    ∃ grown, cache.grow env nextSize = (true, grown) ∧ grown.WholeMapped
      ∧ GrownFrom cache grown ∧ grown.disk.size = cache.grownSize nextSize := by
  obtain ⟨beyond, hbeyond⟩ := Option.isSome_iff_exists.mp henv.map
  have hsize := h.size_eq
  by_cases hgrow : nextSize > cache.size
  · let newSize := cache.size + cacheCapability
    let grown := (cache.resize newSize).setPtr (.mapping newSize beyond)
    have hnew : cache.disk.size ≤ newSize := by
      change cache.disk.size ≤ cache.size + cacheCapability
      omega
    refine ⟨grown, ?_, wholeMapped_remap cache beyond ?_, ?_, ?_⟩
    · have hmapped : (cache.resize newSize).isMapped = true := h.mapped.isMapped
      simp only [OpenCache.grow, hgrow, if_true, henv.resize, hmapped, hbeyond, henv.unmap,
        newSize, grown]
    · exact Nat.le_add_left _ _
    · exact ⟨rfl, rfl, rfl, rfl, hnew, FileData.resize_byte_of_le hnew,
        fun i hi => h.memory_remap hi (by omega)⟩
    · rw [grownSize, if_pos hgrow]
      rfl
  · refine ⟨cache, ?_, h, ⟨rfl, rfl, rfl, rfl, Nat.le_refl _, rfl, fun _ _ => rfl⟩, ?_⟩
    · simp only [OpenCache.grow, hgrow, if_false]
    · rw [grownSize, if_neg hgrow, hsize]

variable {grown : OpenCache}

theorem WholeMapped.header_grownFrom (h : cache.WholeMapped) (hgrown : grown.WholeMapped)
    (hfrom : GrownFrom cache grown) : grown.header = cache.header := by
  have hcap := h.capability
  have hsmall : cacheHeaderSize ≤ cacheCapability := by decide
  rw [hgrown.header_eq, h.header_eq]
  exact CacheHeader.decode_congr fun i hi => hfrom.memory i (by omega)

/-- **A push below the limit**: it succeeds, and is the growth followed by the stores. -/
theorem WholeMapped.push (h : cache.WholeMapped) {env : PushEnv} (henv : env.Succeeds)
    (hmax : cache.nextSize ext message ≤ maxCacheSize) :
    ∃ grown, cache.grow env (cache.nextSize ext message) = (true, grown)
      ∧ cache.push ext env message = (true, grown.storeAll (grown.pushStores ext message))
      ∧ grown.WholeMapped ∧ GrownFrom cache grown ∧ grown.header = cache.header
      ∧ grown.disk.size = cache.grownSize (cache.nextSize ext message) := by
  obtain ⟨grown, hgrow, hwhole, hfrom, hsize⟩ := h.grow henv (cache.nextSize ext message)
  refine ⟨grown, hgrow, ?_, hwhole, hfrom, h.header_grownFrom hwhole hfrom, hsize⟩
  have hfits : ¬ cache.nextSize ext message > maxCacheSize := by omega
  simp only [OpenCache.push, hfits, if_false, hgrow, hwhole.mapped.isMapped, if_true,
    appendMapped, henv.serialize, henv.commit]

theorem push_of_gt (hmax : cache.nextSize ext message > maxCacheSize) (env : PushEnv) :
    cache.push ext env message = (false, cache) := by
  simp only [OpenCache.push, hmax, if_true]

end OpenCache

end TapSdk.Tracker
