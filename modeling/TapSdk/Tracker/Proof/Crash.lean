import TapSdk.Tracker.Crash
import TapSdk.Tracker.Proof.PushFailure

/-!
# What a kill leaves behind

A push only stores behind the records until it counts the new one, and the count may run ahead of
the record size: `Load` then stops at the record size, and later pushes keep the distance. Clearing
goes wrong between its two counters. The count is zero there while the records are still in the
file, so that the next pushes are counted from zero and go behind records nobody counts.
-/

namespace TapSdk

open Library

variable {disk : FileData}

theorem FileData.ext_byte {disk' : FileData} (hsize : disk'.size = disk.size)
    (hbyte : ∀ i, disk'.byte i = disk.byte i) : disk' = disk := by
  obtain ⟨size, byte, _⟩ := disk
  obtain ⟨size', byte', _⟩ := disk'
  simp only at hsize hbyte
  subst hsize
  have hsame : byte' = byte := funext hbyte
  subst hsame
  rfl

theorem FileData.byte_effect_store {offset i : Nat} {bytes : List UInt8} (hi : i < disk.size) :
    (disk.effect (.store offset bytes)).byte i = disk.byte.write offset bytes i := by
  simp [FileData.effect, FileData.storeMapped, hi]

theorem FileData.byte_effect_store_of_le {offset i : Nat} {bytes : List UInt8}
    (hi : disk.size ≤ i) : (disk.effect (.store offset bytes)).byte i = disk.byte i := by
  simp [FileData.effect, FileData.storeMapped, Nat.not_lt.mpr hi]

/-- Storing what is there already changes nothing. -/
theorem FileData.effect_store_same {offset : Nat} {bytes : List UInt8}
    (h : disk.byte.read offset bytes.length = bytes) :
    disk.effect (.store offset bytes) = disk := by
  refine FileData.ext_byte ?_ fun i => ?_
  · rfl
  · by_cases hi : i < disk.size
    · rw [FileData.byte_effect_store hi, Memory.write_of_read h]
    · exact FileData.byte_effect_store_of_le (Nat.not_lt.mp hi)

/-- Storing byte by byte ends where one store would. -/
theorem foldl_byteStores (offset : Nat) (bytes : List UInt8) (disk : FileData) :
    (byteStores offset bytes).foldl FileData.effect disk = disk.effect (.store offset bytes) := by
  induction bytes generalizing offset disk with
  | nil => exact (FileData.effect_store_same rfl).symm
  | cons byte bytes ih =>
      rw [byteStores, List.foldl_cons, ih]
      refine FileData.ext_byte ?_ fun i => ?_
      · rfl
      · by_cases hi : i < disk.size
        · have hnext : i < (disk.effect (.store offset [byte])).size := hi
          rw [FileData.byte_effect_store hnext, FileData.byte_effect_store hi, Memory.write_cons]
          exact Memory.write_congr (FileData.byte_effect_store hi)
        · have hnext : (disk.effect (.store offset [byte])).size ≤ i := Nat.not_lt.mp hi
          rw [FileData.byte_effect_store_of_le hnext,
            FileData.byte_effect_store_of_le (Nat.not_lt.mp hi),
            FileData.byte_effect_store_of_le (Nat.not_lt.mp hi)]

theorem exists_of_mem_byteStores {offset : Nat} {bytes : List UInt8} {effect : FileEffect}
    (h : effect ∈ byteStores offset bytes) :
    ∃ (i : Nat) (hi : i < bytes.length), effect = .store (offset + i) [bytes[i]] := by
  induction bytes generalizing offset with
  | nil => cases h
  | cons byte bytes ih =>
      rcases List.mem_cons.mp h with rfl | hrest
      · exact ⟨0, Nat.zero_lt_succ _, rfl⟩
      · obtain ⟨i, hi, rfl⟩ := ih hrest
        refine ⟨i + 1, Nat.succ_lt_succ hi, ?_⟩
        rw [List.getElem_cons_succ, show offset + 1 + i = offset + (i + 1) by omega]

end TapSdk

namespace TapSdk.Tracker

open Library

variable {ext : Externals} {disk : FileData} {strings : TrackDiskCacheConfig}
  {messages : List TrackMessageImpl} {message : TrackMessageImpl} {count : UInt32}

/-! ### Stores into a file at rest -/

/-- A store into the header. -/
theorem CountedLayout.of_header {memory memory' : Memory} {size : Nat}
    {messages' : List TrackMessageImpl} {count' : UInt32}
    (h : CountedLayout ext memory size strings messages count)
    (hstart : messages' <+: messages)
    (hheader : CacheHeader.decode memory'
      = { expectedHeader ext strings messages' with recordCount := count' })
    (hagree : ∀ i, cacheHeaderSize ≤ i → memory' i = memory i) :
    CountedLayout ext memory' size strings messages' count' := by
  obtain ⟨rest, rfl⟩ := hstart
  have hrecords := h.records
  have hfits := h.fits
  have hbounded := h.bounded
  have hsplit : areaBytes ext (messages' ++ rest) = areaBytes ext messages' ++ areaBytes ext rest :=
    List.flatMap_append
  simp only [layoutEnd, hsplit, List.length_append] at hrecords hfits hbounded
  rw [Memory.read_add] at hrecords
  refine ⟨hheader, ?_, ?_, ?_, ?_⟩
  · exact (Memory.read_congr fun i hlow _ => hagree i hlow).trans h.config
  · refine (Memory.read_congr fun i hlow _ => hagree i (by omega)).trans ?_
    exact (List.append_inj hrecords (by simp)).1
  · unfold layoutEnd
    omega
  · unfold layoutEnd
    omega

namespace FileCounts

theorem effect_of_header {messages' : List TrackMessageImpl} {count' : UInt32} {offset : Nat}
    {bytes : List UInt8} (h : FileCounts ext disk strings messages count)
    (hstart : messages' <+: messages) (hinside : offset + bytes.length ≤ cacheHeaderSize)
    (hheader : CacheHeader.decode (disk.byte.write offset bytes)
      = { expectedHeader ext strings messages' with recordCount := count' }) :
    FileCounts ext (disk.effect (.store offset bytes)) strings messages' count' := by
  have hlayout : CountedLayout ext (disk.byte.write offset bytes) disk.size strings messages'
      count' := by
    refine h.layout.of_header hstart hheader fun i hi => ?_
    exact Memory.write_of_outside (Or.inr (by omega))
  refine ⟨h.capability, hlayout.congr hlayout.fits fun i hi => ?_⟩
  exact FileData.byte_effect_store (Nat.lt_of_lt_of_le hi hlayout.fits)

theorem effect_recordCount (h : FileCounts ext disk strings messages count) (value : UInt32) :
    FileCounts ext (disk.effect (.store 20 (le32 value))) strings messages value := by
  apply h.effect_of_header (List.prefix_refl _) (by simp [cacheHeaderSize])
  rw [CacheHeader.decode_write_recordCount, h.layout.header]

theorem effect_recordSize (h : FileCounts ext disk strings messages count) :
    FileCounts ext (disk.effect (.store 24 (le32 0))) strings [] count := by
  apply h.effect_of_header List.nil_prefix (by simp [cacheHeaderSize])
  rw [CacheHeader.decode_write_recordSize, h.layout.header]
  simp [expectedHeader]

theorem effect_beyond (h : FileCounts ext disk strings messages count) {offset : Nat}
    {bytes : List UInt8} (hoffset : layoutEnd ext strings messages ≤ offset) :
    FileCounts ext (disk.effect (.store offset bytes)) strings messages count := by
  refine ⟨h.capability, h.layout.congr h.layout.fits fun i hi => ?_⟩
  rw [FileData.byte_effect_store (Nat.lt_of_lt_of_le hi h.layout.fits)]
  exact Memory.write_of_outside (Or.inl (Nat.lt_of_lt_of_le hi hoffset))

theorem effect_resize (h : FileCounts ext disk strings messages count) {newSize : Nat}
    (hcap : cacheCapability ≤ newSize) (hfits : layoutEnd ext strings messages ≤ newSize) :
    FileCounts ext (disk.effect (.resize newSize)) strings messages count := by
  refine ⟨hcap, h.layout.congr hfits fun i hi => ?_⟩
  exact FileData.resize_byte (Nat.lt_of_lt_of_le hi hfits)

end FileCounts

namespace OpenCache

variable {cache : OpenCache} {env : PushEnv}

/-! ### Killed in a push -/

theorem WholeMapped.disk_store (h : cache.WholeMapped) (offset : Nat) (bytes : List UInt8) :
    (cache.store offset bytes).disk = cache.disk.effect (.store offset bytes) := by
  obtain ⟨beyond, hptr⟩ := h.mapped.ptr
  simp only [OpenCache.store, hptr, FileData.effect]

theorem WholeMapped.disk_storeAll (h : cache.WholeMapped) (stores : List (Nat × List UInt8)) :
    (cache.storeAll stores).disk
      = stores.foldl (fun disk entry => disk.effect (.store entry.1 entry.2)) cache.disk := by
  induction stores generalizing cache with
  | nil => rfl
  | cons entry stores ih =>
      have hnext : (cache.store entry.1 entry.2).WholeMapped := h.storeAll [entry]
      rw [List.foldl_cons, ← h.disk_store]
      exact ih hnext

theorem WholeMapped.disk_grow (h : cache.WholeMapped) (env : PushEnv) (nextSize : Nat) :
    (cache.grow env nextSize).2.disk
      = (cache.growEffects env nextSize).foldl FileData.effect cache.disk := by
  have hmapped : (cache.resize (cache.size + cacheCapability)).isMapped = true := h.mapped.isMapped
  by_cases hgrow : nextSize > cache.size
  · cases hresize : env.resize with
    | false => simp [OpenCache.grow, growEffects, hgrow, hresize]
    | true =>
        simp only [OpenCache.grow, growEffects, hgrow, hresize, hmapped, if_true, and_self,
          List.foldl_cons, List.foldl_nil]
        split
        · split <;> rfl
        · rfl
  · simp [OpenCache.grow, growEffects, hgrow]

theorem WholeMapped.grow_true (h : cache.WholeMapped) {nextSize : Nat} {grown : OpenCache}
    (hgrow : cache.grow env nextSize = (true, grown)) :
    grown.WholeMapped ∧ GrownFrom cache grown ∧ grown.disk.size = cache.grownSize nextSize := by
  have hgrows : cache.Grows env nextSize := grow_true_iff env nextSize |>.mp (by rw [hgrow])
  by_cases hsize : nextSize > cache.size
  · obtain ⟨hresize, hmap⟩ := hgrows.resolve_left (Nat.not_le.mpr hsize)
    obtain ⟨hmap, hunmap⟩ := hmap h.mapped.isMapped
    let ideal : PushEnv := ⟨true, env.map, true, .full, true, .full, .full, .full, [], true⟩
    have hideal : ideal.Succeeds := ⟨rfl, hmap, rfl, rfl, rfl, rfl, rfl, rfl, rfl⟩
    have hsame : cache.grow ideal nextSize = cache.grow env nextSize := by
      simp only [OpenCache.grow, ideal, hresize, hunmap]
    obtain ⟨grown', hgrow', hspec⟩ := h.grow hideal nextSize
    rw [hsame, hgrow] at hgrow'
    cases hgrow'
    exact hspec
  · have hcache : cache = grown := by
      simp only [OpenCache.grow, hsize, if_false] at hgrow
      exact (Prod.mk.inj hgrow).2
    subst hcache
    refine ⟨h, ⟨rfl, rfl, rfl, rfl, Nat.le_refl _, rfl, fun _ _ => rfl⟩, ?_⟩
    rw [grownSize, if_neg hsize, h.size_eq]

theorem foldl_recordEffects (hserialize : env.serialize = .full) (disk : FileData) :
    (cache.recordEffects ext env message).foldl FileData.effect disk
      = (cache.pushStores ext message).foldl
          (fun disk entry => disk.effect (.store entry.1 entry.2)) disk := by
  simp only [recordEffects, hserialize, pushStores, recordStores, List.foldl_append,
    foldl_byteStores, List.foldl_cons, List.foldl_nil]

theorem recordEffects_congr {grown : OpenCache} (hheader : grown.header = cache.header) :
    grown.recordEffects ext env message = cache.recordEffects ext env message := by
  simp only [recordEffects, OpenCache.areaEnd, hheader]

/-- The effects are those of `Push`: not killed, it leaves what all of them leave. -/
theorem WholeMapped.disk_push (h : cache.WholeMapped) (env : PushEnv)
    (message : TrackMessageImpl) :
    (cache.push ext env message).2.disk
      = (cache.pushEffects ext env message).foldl FileData.effect cache.disk := by
  by_cases hmax : cache.nextSize ext message > maxCacheSize
  · simp [push_of_gt hmax, pushEffects, hmax]
  · have hdisk := h.disk_grow env (cache.nextSize ext message)
    rcases hgrow : cache.grow env (cache.nextSize ext message) with ⟨ok, grown⟩
    rw [hgrow] at hdisk
    simp only [pushEffects, hmax, if_false, hgrow, List.foldl_append, ← hdisk]
    cases ok with
    | false => simp [OpenCache.push, hmax, hgrow]
    | true =>
        obtain ⟨hwhole, hfrom, _⟩ := h.grow_true hgrow
        have hheader := h.header_grownFrom hwhole hfrom
        simp only [OpenCache.push, hmax, if_false, hgrow, hwhole.mapped.isMapped, if_true,
          appendMapped, ← recordEffects_congr hheader]
        cases hserialize : env.serialize with
        | full => rw [foldl_recordEffects hserialize, hwhole.disk_storeAll]
        | short count =>
            simp only [recordEffects, hserialize, foldl_byteStores]
            exact hwhole.disk_store _ _

/-- What a kill inside a push leaves: the old records, with the count perhaps one too high already,
or the new record as well. -/
def LeavesPush (ext : Externals) (disk : FileData) (strings : TrackDiskCacheConfig)
    (messages : List TrackMessageImpl) (message : TrackMessageImpl) (count : UInt32) : Prop :=
  FileCounts ext disk strings messages count
    ∨ FileCounts ext disk strings messages (count + 1)
    ∨ FileCounts ext disk strings (messages ++ [message]) (count + 1)

theorem Counts.effect_byteStores (h : cache.Counts ext strings messages count) {offset : Nat}
    {bytes : List UInt8} {effect : FileEffect} (hoffset : cache.areaEnd ≤ offset)
    (hmem : effect ∈ byteStores offset bytes) {disk : FileData}
    (hdisk : FileCounts ext disk strings messages count) :
    FileCounts ext (disk.effect effect) strings messages count := by
  obtain ⟨i, _, rfl⟩ := exists_of_mem_byteStores hmem
  apply hdisk.effect_beyond
  rw [← h.areaEnd]
  omega

theorem Counts.cut_recordEffects (h : cache.Counts ext strings messages count)
    (hmax : cache.nextSize ext message ≤ maxCacheSize)
    (hfits : cache.nextSize ext message ≤ cache.disk.size) (env : PushEnv) (stop : Nat) :
    LeavesPush ext (cut FileData.effect (cache.recordEffects ext env message) stop cache.disk)
      strings messages message count := by
  have hcontent : cache.areaEnd ≤ cache.areaEnd + recordHeaderSize := Nat.le_add_right _ _
  cases hserialize : env.serialize with
  | short written =>
      left
      simp only [recordEffects, hserialize]
      apply cut_invariant (fun disk => FileCounts ext disk strings messages count) _ h.closed
      intro disk effect hmem hdisk
      exact h.effect_byteStores hcontent hmem hdisk
  | full =>
      let record := byteStores (cache.areaEnd + recordHeaderSize)
          (ext.message.serialize message.proto)
        ++ byteStores cache.areaEnd (recordHeader ext message).bytes
      let header := cache.header.addRecord (message.getSerializeSize ext)
      have heffects : cache.recordEffects ext env message
          = record
            ++ [.store 20 (le32 header.recordCount), .store 24 (le32 header.recordSize)] := by
        simp only [recordEffects, hserialize, record, header]
      have hcount : header.recordCount = count + 1 := by
        change cache.header.recordCount + 1 = count + 1
        rw [h.whole.header_eq, h.layout.header]
      -- up to the counters every store goes behind the records
      have hrecord : ∀ stop,
          FileCounts ext (cut FileData.effect record stop cache.disk) strings messages count := by
        intro stop
        apply cut_invariant (fun disk => FileCounts ext disk strings messages count) _ h.closed
        intro disk effect hmem hdisk
        rcases List.mem_append.mp hmem with hmem | hmem
        · exact h.effect_byteStores hcontent hmem hdisk
        · exact h.effect_byteStores (Nat.le_refl _) hmem hdisk
      rw [heffects]
      rcases Nat.le_total stop record.length with hle | hge
      · left
        rw [cut_append_of_le hle]
        exact hrecord stop
      · have hstored := hrecord record.length
        rw [cut_of_length_le (Nat.le_refl _)] at hstored
        rw [cut_append_of_ge hge]
        rcases hrest : stop - record.length with _ | _ | rest
        · left
          exact hstored
        · right
          left
          have hcounted := hstored.effect_recordCount header.recordCount
          rw [hcount] at hcounted
          rw [hcount]
          exact hcounted
        · right
          right
          have hall := h.storeAll_pushStores hmax hfits
          have hdisk := h.whole.disk_storeAll (cache.pushStores ext message)
          rw [← foldl_recordEffects hserialize, heffects, List.foldl_append] at hdisk
          rw [cut_of_length_le (by simp), ← hdisk]
          exact hall.closed

/-- A growth step makes room for a small record. -/
theorem Counts.grow_true (h : cache.Counts ext strings messages count)
    (hsmall : recordHeaderSize + message.getSerializeSize ext ≤ cacheCapability)
    {grown : OpenCache} (hgrow : cache.grow env (cache.nextSize ext message) = (true, grown)) :
    grown.Counts ext strings messages count
      ∧ grown.nextSize ext message = cache.nextSize ext message
      ∧ grown.nextSize ext message ≤ grown.disk.size := by
  have hareaEnd := h.areaEnd
  have hfits := h.layout.fits
  have hsize := h.whole.size_eq
  have hnext := @nextSize_eq ext cache message
  obtain ⟨hwhole, hfrom, hgrownSize⟩ := h.whole.grow_true hgrow
  have hcounts := h.grownFrom hwhole hfrom
  have hsame : grown.nextSize ext message = cache.nextSize ext message := by
    rw [hcounts.nextSize, h.nextSize]
  refine ⟨hcounts, hsame, ?_⟩
  rw [hsame, hgrownSize, grownSize]
  split <;> omega

theorem Counts.leavesPush (h : cache.Counts ext strings messages count)
    (hsmall : recordHeaderSize + message.getSerializeSize ext ≤ cacheCapability) (env : PushEnv)
    (stop : Nat) :
    LeavesPush ext (cache.killedPush ext env message stop) strings messages message count := by
  have hareaEnd := h.areaEnd
  have hfits := h.layout.fits
  have hcap := h.whole.capability
  have hsize := h.whole.size_eq
  by_cases hmax : cache.nextSize ext message > maxCacheSize
  · left
    simp only [OpenCache.killedPush, pushEffects, hmax, if_true, cut, List.take_nil, List.foldl_nil]
    exact h.closed
  -- growing keeps the records, wherever it is cut
  have hgrowing : ∀ stop, FileCounts ext (cut FileData.effect
      (cache.growEffects env (cache.nextSize ext message)) stop cache.disk) strings messages
      count := by
    intro stop
    apply cut_invariant (fun disk => FileCounts ext disk strings messages count) _ h.closed
    intro disk effect hmem hdisk
    unfold growEffects at hmem
    split at hmem
    · rw [List.mem_singleton.mp hmem]
      exact hdisk.effect_resize (by omega) (by omega)
    · cases hmem
  simp only [OpenCache.killedPush, pushEffects, hmax, if_false]
  rcases Nat.le_total stop (cache.growEffects env (cache.nextSize ext message)).length with
    hle | hge
  · left
    rw [cut_append_of_le hle]
    exact hgrowing stop
  · have hgrown := hgrowing (cache.growEffects env (cache.nextSize ext message)).length
    rw [cut_of_length_le (Nat.le_refl _), ← h.whole.disk_grow] at hgrown
    rw [cut_append_of_ge hge, ← h.whole.disk_grow]
    rcases hgrow : cache.grow env (cache.nextSize ext message) with ⟨ok, grown⟩
    rw [hgrow] at hgrown
    cases ok with
    | false =>
        left
        simp only [Bool.false_eq_true, if_false, cut, List.take_nil, List.foldl_nil]
        exact hgrown
    | true =>
        obtain ⟨hwhole, hfrom, _⟩ := h.whole.grow_true hgrow
        have hheader := h.whole.header_grownFrom hwhole hfrom
        obtain ⟨hcounts, hsame, hroom⟩ := h.grow_true hsmall hgrow
        simp only [if_true]
        rw [← recordEffects_congr hheader]
        exact hcounts.cut_recordEffects (by omega) hroom env _

/-! ### Killed while clearing -/

variable {reset : ResetEnv}

theorem WholeMapped.shrink_true (h : cache.WholeMapped) {shrunk : OpenCache}
    (hshrink : cache.shrink reset = (true, shrunk)) :
    shrunk.WholeMapped ∧ shrunk.object.hash = cache.object.hash
      ∧ shrunk.object.config = cache.object.config := by
  by_cases hbig : cache.size > cacheCapability
  · simp only [OpenCache.shrink, hbig, if_true, h.mapped.isMapped] at hshrink
    cases hunmap : reset.unmap with
    | false => simp [hunmap] at hshrink
    | true =>
        cases hresize : reset.resize with
        | false => simp [hunmap, hresize] at hshrink
        | true =>
            cases hmap : reset.map with
            | none => simp [hunmap, hresize, hmap] at hshrink
            | some beyond =>
                simp only [hunmap, hresize, hmap, Bool.not_true, Bool.false_eq_true, if_false,
                  Prod.mk.injEq, true_and] at hshrink
                rw [← hshrink]
                exact ⟨wholeMapped_remap cache beyond (Nat.le_refl _), rfl, rfl⟩
  · simp only [OpenCache.shrink, hbig, if_false, Prod.mk.injEq, true_and] at hshrink
    rw [← hshrink]
    exact ⟨h, rfl, rfl⟩

theorem WholeMapped.disk_shrink (h : cache.WholeMapped) (reset : ResetEnv) :
    (cache.shrink reset).2.disk
      = (cache.shrinkEffects reset).foldl FileData.effect cache.disk := by
  by_cases hbig : cache.size > cacheCapability
  · cases hunmap : reset.unmap with
    | false => simp [OpenCache.shrink, shrinkEffects, hbig, h.mapped.isMapped, hunmap]
    | true =>
        cases hresize : reset.resize with
        | false =>
            simp [OpenCache.shrink, shrinkEffects, hbig, h.mapped.isMapped, hunmap, hresize, setPtr]
        | true =>
            simp only [OpenCache.shrink, shrinkEffects, hbig, h.mapped.isMapped, hunmap, hresize,
              if_true, Bool.not_true, Bool.false_eq_true, if_false, and_self, List.foldl_cons,
              List.foldl_nil]
            split <;> rfl
  · simp [OpenCache.shrink, shrinkEffects, hbig]

theorem WholeMapped.disk_saveConfig (h : cache.WholeMapped) (reset : ResetEnv) :
    (cache.saveConfig ext reset).2.disk
      = (cache.saveEffects ext reset).foldl FileData.effect cache.disk := by
  cases hconfig : cache.object.config with
  | none => simp [OpenCache.saveConfig, saveEffects, hconfig]
  | some config =>
      by_cases hhash : config.hash ≠ cache.object.hash
      · simp [OpenCache.saveConfig, saveEffects, hconfig, hhash]
      · by_cases hroom : (ext.config.serialize config.strings).length > cache.size - cacheHeaderSize
        · simp [OpenCache.saveConfig, saveEffects, hconfig, hhash, hroom]
        · cases hserialize : reset.serialize with
          | false => simp [OpenCache.saveConfig, saveEffects, hconfig, hhash, hroom, hserialize]
          | true =>
              simp only [OpenCache.saveConfig, saveEffects, hconfig, hhash, hroom, hserialize,
                h.mapped.isMapped, if_true, if_false, Bool.not_true, Bool.false_eq_true, or_self,
                reduceCtorEq, List.foldl_append, foldl_byteStores, h.disk_storeAll]
              rfl

theorem WholeMapped.resetHeader_eq (h : cache.WholeMapped) (reset : ResetEnv) :
    cache.resetHeader reset = (reset.commit, cache.storeAll
      [(0, cacheMagic), (4, le32 cacheVersionCode), (20, le32 0), (24, le32 0)]) := by
  simp only [OpenCache.resetHeader, h.mapped.isMapped, if_true]

/-- The effects are those of `Clear`. -/
theorem WholeMapped.disk_reset (h : cache.WholeMapped) (reset : ResetEnv) :
    (cache.reset ext reset).2.disk
      = (cache.resetEffects ext reset).foldl FileData.effect cache.disk := by
  let stores := [(0, cacheMagic), (4, le32 cacheVersionCode), (20, le32 0), (24, le32 0)]
  have hwhole := h.storeAll stores
  have hheader : (cache.storeAll stores).disk
      = headerEffects.foldl FileData.effect cache.disk := h.disk_storeAll stores
  simp only [OpenCache.reset, resetEffects, h.resetHeader_eq, List.foldl_append, ← hheader]
  cases reset.commit with
  | false => rfl
  | true =>
      simp only [List.foldl_append]
      rw [← hwhole.disk_shrink]
      rcases hshrink : (cache.storeAll stores).shrink reset with ⟨ok, shrunk⟩
      cases ok with
      | false => rfl
      | true =>
          obtain ⟨hwhole', _⟩ := hwhole.shrink_true hshrink
          exact hwhole'.disk_saveConfig reset

/-- Saving the configuration again changes nothing, byte by byte. -/
theorem effect_saveEffects {config : TrackerConfig} (hconfig : cache.object.config = some config)
    (hhash : cache.object.hash = config.strings.freshHash) {effect : FileEffect}
    (hmem : effect ∈ cache.saveEffects ext reset) {disk : FileData}
    (h : FileCounts ext disk config.strings messages count) :
    FileCounts ext (disk.effect effect) config.strings messages count := by
  simp only [saveEffects, hconfig] at hmem
  split at hmem
  · cases hmem
  · rcases List.mem_append.mp hmem with hmem | hmem
    · obtain ⟨i, hi, rfl⟩ := exists_of_mem_byteStores hmem
      have hbyte := Memory.eq_getElem_of_read h.layout.config hi
      rw [FileData.effect_store_same]
      · exact h
      · simp [Memory.read, hbyte]
    · rcases List.mem_cons.mp hmem with rfl | hmem
      · apply h.effect_of_header (List.prefix_refl _) (by simp [cacheHeaderSize])
        rw [CacheHeader.decode_write_configSize, h.layout.header]
        simp only [expectedHeader]
      · rw [List.mem_singleton.mp hmem]
        apply h.effect_of_header (List.prefix_refl _) (by simp [cacheHeaderSize])
        rw [CacheHeader.decode_write_configHash, h.layout.header, hhash]
        simp only [expectedHeader]

theorem Counts.cut_headerEffects (h : cache.Counts ext strings messages count) :
    FileCounts ext (cut FileData.effect headerEffects 1 cache.disk) strings messages count
      ∧ FileCounts ext (cut FileData.effect headerEffects 2 cache.disk) strings messages count
      ∧ FileCounts ext (cut FileData.effect headerEffects 3 cache.disk) strings messages 0
      ∧ FileCounts ext (cut FileData.effect headerEffects 4 cache.disk) strings [] 0 := by
  have hmagic :
    FileCounts ext (cache.disk.effect (.store 0 cacheMagic)) strings messages count := by
    apply h.closed.effect_of_header (List.prefix_refl _) (by decide)
    rw [CacheHeader.decode_write_magic rfl, h.closed.layout.header]
    simp only [expectedHeader]
  have hversion : FileCounts ext ((cache.disk.effect (.store 0 cacheMagic)).effect
      (.store 4 (le32 cacheVersionCode))) strings messages count := by
    apply hmagic.effect_of_header (List.prefix_refl _) (by simp [cacheHeaderSize])
    rw [CacheHeader.decode_write_verCode, hmagic.layout.header]
    simp only [expectedHeader]
  have hcounter := hversion.effect_recordCount 0
  exact ⟨hmagic, hversion, hcounter, hcounter.effect_recordSize⟩

/-- What a kill inside a clear leaves, by the number of effects that were done. -/
theorem Counts.killedClear (h : cache.Counts ext strings messages count)
    (hfits : ConfigFits ext strings) (reset : ResetEnv) (stop : Nat) :
    (stop ≤ 2 → FileCounts ext (cache.killedClear ext reset stop) strings messages count)
      ∧ (stop = 3 → FileCounts ext (cache.killedClear ext reset stop) strings messages 0)
      ∧ (4 ≤ stop → FileCounts ext (cache.killedClear ext reset stop) strings [] 0) := by
  obtain ⟨hone, htwo, hthree, hfour⟩ := h.cut_headerEffects
  have hlength : headerEffects.length = 4 := rfl
  unfold OpenCache.killedClear resetEffects
  refine ⟨fun hle => ?_, fun heq => ?_, fun hge => ?_⟩
  · rw [cut_append_of_le (by omega)]
    rcases stop with _ | _ | _ | stop
    · exact h.closed
    · exact hone
    · exact htwo
    · omega
  · subst heq
    rw [cut_append_of_le (by omega)]
    exact hthree
  · rw [cut_of_length_le (Nat.le_of_eq hlength)] at hfour
    rw [cut_append_of_ge (by omega)]
    -- from here on the file holds nothing, and every effect leaves it so
    apply cut_invariant (fun disk => FileCounts ext disk strings [] 0) _ hfour
    intro disk effect hmem hdisk
    obtain ⟨config, hconfig, hstrings⟩ := h.config
    subst hstrings
    rw [h.whole.resetHeader_eq] at hmem
    cases hcommit : reset.commit with
    | false =>
        rw [hcommit] at hmem
        cases hmem
    | true =>
        simp only [hcommit] at hmem
        have hframe := sameFrame_storeAll
          [(0, cacheMagic), (4, le32 cacheVersionCode), (20, le32 0), (24, le32 0)] cache
        rcases List.mem_append.mp hmem with hmem | hmem
        · unfold shrinkEffects at hmem
          split at hmem
          · rw [List.mem_singleton.mp hmem]
            apply hdisk.effect_resize (Nat.le_refl _)
            have hsmall : cacheHeaderSize ≤ cacheCapability := by decide
            have hbytes : (ext.config.serialize config.strings).length
              ≤ cacheCapability - cacheHeaderSize := hfits
            simp only [layoutEnd, areaBytes_nil, List.length_nil]
            omega
          · cases hmem
        · split at hmem
          · cases hmem
          · rename_i shrunk hshrink
            obtain ⟨_, hhash', hconfig'⟩ := (h.whole.storeAll _).shrink_true hshrink
            refine effect_saveEffects ?_ ?_ hmem hdisk
            · rw [hconfig', hframe.config, hconfig]
            · rw [hhash', hframe.hash, h.hash]

/-! ### Reopening, and pushing on -/

theorem Counts.push_true (h : cache.Counts ext strings messages count)
    (hsmall : recordHeaderSize + message.getSerializeSize ext ≤ cacheCapability)
    {next : OpenCache} (hpush : cache.push ext env message = (true, next)) :
    next.Counts ext strings (messages ++ [message]) (count + 1) := by
  obtain ⟨hcounters, _⟩ := push_true_iff.mp (congrArg Prod.fst hpush)
  have hmax : ¬ cache.nextSize ext message > maxCacheSize := Nat.not_lt.mpr hcounters.bounded
  have hok := (grow_true_iff env (cache.nextSize ext message)).mpr hcounters.grows
  rcases hgrow : cache.grow env (cache.nextSize ext message) with ⟨ok, grown⟩
  rw [hgrow] at hok
  cases hok
  obtain ⟨hcounts, hsame, hroom⟩ := h.grow_true hsmall hgrow
  simp only [OpenCache.push, hmax, if_false, hgrow, hcounts.whole.mapped.isMapped, if_true,
    appendMapped, hcounters.serialize] at hpush
  rw [← (Prod.mk.inj hpush).2]
  exact hcounts.storeAll_pushStores (by omega) hroom

theorem Counts.pushAll {pushes : List (PushEnv × TrackMessageImpl)}
    (h : cache.Counts ext strings messages count)
    (hsmall : ∀ entry ∈ pushes, recordHeaderSize + entry.2.getSerializeSize ext ≤ cacheCapability)
    {last : OpenCache} (hpushes : cache.pushAll ext pushes = some last) :
    last.Counts ext strings (messages ++ pushes.map Prod.snd)
      (count + UInt32.ofNat pushes.length) := by
  induction pushes generalizing cache messages count with
  | nil =>
      cases hpushes
      simpa using h
  | cons entry pushes ih =>
      rw [OpenCache.pushAll, List.foldlM_cons] at hpushes
      obtain ⟨next, hnext, hrest⟩ := Option.bind_eq_some_iff.mp hpushes
      split at hnext
      · rename_i hpush
        cases hnext
        have hcounts := h.push_true (hsmall entry List.mem_cons_self) hpush
        have hlast := ih hcounts (fun other hother => hsmall other (List.mem_cons_of_mem _ hother))
          hrest
        rw [List.append_assoc, List.singleton_append] at hlast
        rw [List.map_cons, List.length_cons, UInt32.ofNat_add, UInt32.add_comm (UInt32.ofNat _),
          ← UInt32.add_assoc]
        exact hlast
      · cases hnext

theorem Counts.loaded (h : cache.Counts ext strings messages count) (hlossless : ext.Lossless)
    (clock : Nat → UInt32) :
    cache.loaded ext clock = (messages.take count.toNat).map (·.proto) := by
  rw [OpenCache.loaded, h.load hlossless, restamp_proto]

end OpenCache

/-! ### Whole lives -/

/-- The operations succeed, and the file is opened again with its configuration or with none. A
clear is not killed between its two counters. -/
def CrashOp.Regular (config : TrackerConfig) : CrashOp → Prop
  | .perform op => op.Regular config
  | .killPush _ _ _ given init => init.Succeeds ∧ (given = none ∨ given = some config)
  | .killClear _ stop given init =>
      stop ≠ 3 ∧ init.Succeeds ∧ (given = none ∨ given = some config)

def CrashOp.Small (ext : Externals) : CrashOp → Prop
  | .perform op => op.Small ext
  | .killPush _ message _ _ _ => recordHeaderSize + message.getSerializeSize ext ≤ 65536
  | .killClear .. => True

def CrashOp.killsPush : CrashOp → Bool
  | .killPush .. => true
  | _ => false

namespace OpenCache

variable {cache : OpenCache} {config : TrackerConfig} {kills : Nat}

/-- The invariant that survives kills: the count is not behind the records, and ahead of them by no
more than the number of killed pushes. -/
def Survives (ext : Externals) (config : TrackerConfig) (kills : Nat) (cache : OpenCache) : Prop :=
  ∃ messages count, cache.Counts ext config.strings messages count
    ∧ messages.length ≤ count.toNat ∧ count.toNat ≤ messages.length + kills

theorem Holds.survives {messages : List TrackMessageImpl}
    (h : cache.Holds ext config.strings messages) : cache.Survives ext config kills := by
  have hlength := h.layout.counted.length_le
  have hword : (UInt32.ofNat messages.length).toNat = messages.length := by
    rw [UInt32.toNat_ofNat']
    omega
  exact ⟨messages, _, h.counts, by omega, by omega⟩

theorem FileCounts.reopenAfter {disk : FileData} {messages : List TrackMessageImpl}
    {count : UInt32} (hfile : FileCounts ext disk config.strings messages count)
    (hlossless : ext.Lossless) (hhash : cache.object.hash = config.strings.freshHash)
    {given : Option TrackerConfig} (hgiven : given = none ∨ given = some config) {init : InitEnv}
    (hinit : init.Succeeds) :
    ∃ reopened, cache.reopenAfter ext disk given init = (true, reopened)
      ∧ reopened.Counts ext config.strings messages count := by
  have hsame := strings_of_given hgiven
  obtain ⟨reopened, hopen, hcounts, _⟩ := openAt_counts hfile hlossless hhash hsame hinit
    cache.object.path
  exact ⟨reopened, hopen, hcounts⟩

theorem toNat_add_one {count : UInt32} (h : count.toNat + 1 < 2 ^ 32) :
    (count + 1).toNat = count.toNat + 1 := by
  rw [UInt32.toNat_add]
  exact Nat.mod_eq_of_lt h

theorem Survives.perform (h : cache.Survives ext config kills) (hlossless : ext.Lossless)
    (hfits : ConfigFits ext config.strings) (hkills : kills < 2 ^ 32 - 2 ^ 16) {op : CacheOp}
    (hregular : op.Regular config) (hsmall : op.Small ext) :
    ∃ next, cache.survive ext (.perform op) = some next ∧ next.Survives ext config kills := by
  obtain ⟨messages, count, hcounts, hlow, hhigh⟩ := h
  have hlength := hcounts.layout.length_le
  cases op with
  | push env message =>
      by_cases hmax : cache.nextSize ext message > maxCacheSize
      · refine ⟨cache, ?_, messages, count, hcounts, hlow, hhigh⟩
        simp only [survive, cacheSystem, OpenCache.perform, push_of_gt hmax]
      · have hroom : cache.nextSize ext message ≤ cache.size + cacheCapability := by
          have hareaEnd := hcounts.areaEnd
          have hend := hcounts.layout.fits
          have hsize := hcounts.whole.size_eq
          have hrecord : recordHeaderSize + message.getSerializeSize ext ≤ cacheCapability := hsmall
          rw [nextSize_eq]
          omega
        obtain ⟨next, hpush, hnext, _⟩ := hcounts.push hregular (Nat.not_lt.mp hmax) hroom
        have hword := @toNat_add_one count (by omega)
        refine ⟨next, ?_, messages ++ [message], count + 1, hnext, ?_, ?_⟩
        · simp only [survive, cacheSystem, OpenCache.perform, hpush]
        · rw [hword, List.length_append, List.length_singleton]
          omega
        · rw [hword, List.length_append, List.length_singleton]
          omega
  | clear env =>
      obtain ⟨given, hgiven, hstrings⟩ := hcounts.config
      obtain ⟨next, hreset, hholds, _⟩ := hcounts.whole.reset hregular hgiven
        (by rw [hstrings]; exact hcounts.hash) (by rw [hstrings]; exact hfits)
      rw [hstrings] at hholds
      refine ⟨next, ?_, hholds.survives⟩
      simp only [survive, cacheSystem, OpenCache.perform, hreset]
  | reopen given env =>
      obtain ⟨henv, hgiven⟩ := hregular
      obtain ⟨next, hopen, hnext⟩ :=
        FileCounts.reopenAfter hcounts.closed hlossless hcounts.hash hgiven henv
      unfold OpenCache.reopenAfter at hopen
      refine ⟨next, ?_, messages, count, hnext, hlow, hhigh⟩
      simp only [survive, cacheSystem, OpenCache.perform, hopen]

theorem LeavesPush.reopenAfter {disk : FileData} {messages : List TrackMessageImpl}
    {message : TrackMessageImpl} {count : UInt32}
    (hleaves : LeavesPush ext disk config.strings messages message count)
    (hlow : messages.length ≤ count.toNat) (hhigh : count.toNat ≤ messages.length + kills)
    (hlength : messages.length < 2 ^ 16) (hkills : kills < 2 ^ 32 - 2 ^ 16)
    (hlossless : ext.Lossless) (hhash : cache.object.hash = config.strings.freshHash)
    {given : Option TrackerConfig} (hgiven : given = none ∨ given = some config) {init : InitEnv}
    (hinit : init.Succeeds) :
    ∃ reopened kept count', cache.reopenAfter ext disk given init = (true, reopened)
      ∧ (kept = messages ∨ kept = messages ++ [message])
      ∧ reopened.Counts ext config.strings kept count'
      ∧ kept.length ≤ count'.toNat ∧ count'.toNat ≤ kept.length + (kills + 1) := by
  have hword := @toNat_add_one count (by omega)
  rcases hleaves with hfile | hfile | hfile
  · obtain ⟨reopened, hopen, hcounts⟩ := FileCounts.reopenAfter hfile hlossless hhash hgiven hinit
    exact ⟨reopened, messages, count, hopen, Or.inl rfl, hcounts, hlow, by omega⟩
  · obtain ⟨reopened, hopen, hcounts⟩ := FileCounts.reopenAfter hfile hlossless hhash hgiven hinit
    exact ⟨reopened, messages, count + 1, hopen, Or.inl rfl, hcounts, by omega, by omega⟩
  · obtain ⟨reopened, hopen, hcounts⟩ := FileCounts.reopenAfter hfile hlossless hhash hgiven hinit
    refine ⟨reopened, messages ++ [message], count + 1, hopen, Or.inr rfl, hcounts, ?_, ?_⟩
    · rw [List.length_append, List.length_singleton]
      omega
    · rw [List.length_append, List.length_singleton]
      omega

theorem Survives.step (h : cache.Survives ext config kills) (hlossless : ext.Lossless)
    (hfits : ConfigFits ext config.strings) (hkills : kills < 2 ^ 32 - 2 ^ 16) {op : CrashOp}
    (hregular : op.Regular config) (hsmall : op.Small ext) :
    ∃ next, cache.survive ext op = some next
      ∧ next.Survives ext config (kills + if op.killsPush then 1 else 0) := by
  cases op with
  | perform op => exact h.perform hlossless hfits hkills hregular hsmall
  | killPush env message stop given init =>
      obtain ⟨messages, count, hcounts, hlow, hhigh⟩ := h
      obtain ⟨reopened, kept, count', hopen, _, hkept⟩ :=
        (hcounts.leavesPush hsmall env stop).reopenAfter hlow hhigh hcounts.layout.length_le hkills
          hlossless hcounts.hash hregular.2 hregular.1
      refine ⟨reopened, ?_, kept, count', hkept⟩
      simp only [survive, hopen]
  | killClear env stop given init =>
      obtain ⟨messages, count, hcounts, hlow, hhigh⟩ := h
      obtain ⟨hstop, hinit, hgiven⟩ := hregular
      obtain ⟨hearly, _, hlate⟩ := hcounts.killedClear hfits env stop
      rcases Nat.lt_or_ge stop 3 with hlt | hge
      · obtain ⟨reopened, hopen, hnext⟩ :=
          FileCounts.reopenAfter (hearly (by omega)) hlossless hcounts.hash hgiven hinit
        refine ⟨reopened, ?_, messages, count, hnext, hlow, hhigh⟩
        simp only [survive, hopen]
      · obtain ⟨reopened, hopen, hnext⟩ :=
          FileCounts.reopenAfter (hlate (by omega)) hlossless hcounts.hash hgiven hinit
        refine ⟨reopened, ?_, [], 0, hnext, Nat.le_refl _, Nat.zero_le _⟩
        simp only [survive, hopen]

theorem Survives.run (hlossless : ext.Lossless) (hfits : ConfigFits ext config.strings)
    {ops : List CrashOp} (hops : ∀ op ∈ ops, op.Regular config ∧ op.Small ext)
    (hkills : kills + ops.countP CrashOp.killsPush < 2 ^ 32 - 2 ^ 16)
    (h : cache.Survives ext config kills) :
    ∃ last, ops.foldlM (OpenCache.survive ext) cache = some last
      ∧ last.Survives ext config (kills + ops.countP CrashOp.killsPush) := by
  induction ops generalizing cache kills with
  | nil => exact ⟨cache, rfl, h⟩
  | cons op ops ih =>
      obtain ⟨hregular, hsmall⟩ := hops op List.mem_cons_self
      rw [List.countP_cons] at hkills
      obtain ⟨next, hstep, hnext⟩ := h.step hlossless hfits (by omega) hregular hsmall
      obtain ⟨last, hrun, hlast⟩ := ih (fun op hop => hops op (List.mem_cons_of_mem _ hop))
        (by omega) hnext
      refine ⟨last, ?_, ?_⟩
      · rw [List.foldlM_cons, hstep]
        exact hrun
      · rw [List.countP_cons, Nat.add_comm (List.countP _ _), ← Nat.add_assoc]
        exact hlast

theorem survivor_survives (hlossless : ext.Lossless) (hfits : ConfigFits ext config.strings)
    {env : InitEnv} (henv : env.Succeeds) (path : Str) {ops : List CrashOp}
    (hops : ∀ op ∈ ops, op.Regular config ∧ op.Small ext)
    (hkills : ops.countP CrashOp.killsPush < 2 ^ 32 - 2 ^ 16) :
    ∃ cache, survivor ext config path env ops = some cache
      ∧ cache.Survives ext config (ops.countP CrashOp.killsPush) := by
  obtain ⟨first, hopen, hholds, _⟩ := openAt_absent config.hash_eq hfits henv path
  obtain ⟨cache, hrun, hsurvives⟩ := Survives.run hlossless hfits hops (by omega)
    (@Holds.survives ext first config 0 [] hholds)
  rw [Nat.zero_add] at hsurvives
  refine ⟨cache, ?_, hsurvives⟩
  simp only [survivor, hopen]
  exact hrun

/-- The count stays at or above the number of records while pushes go on, and does not wrap. -/
theorem Counts.loaded_pushAll {messages : List TrackMessageImpl} {count : UInt32}
    (h : cache.Counts ext config.strings messages count) (hlossless : ext.Lossless)
    (hlow : messages.length ≤ count.toNat)
    (hhigh : count.toNat ≤ messages.length + (2 ^ 32 - 2 ^ 16))
    {pushes : List (PushEnv × TrackMessageImpl)}
    (hsmall : ∀ entry ∈ pushes, recordHeaderSize + entry.2.getSerializeSize ext ≤ 65536)
    {last : OpenCache} (hpushes : cache.pushAll ext pushes = some last) (clock : Nat → UInt32) :
    last.loaded ext clock = messages.map (·.proto) ++ pushes.map (·.2.proto) := by
  have hlast := h.pushAll hsmall hpushes
  have hlength := hlast.layout.length_le
  rw [List.length_append, List.length_map] at hlength
  have hword : (count + UInt32.ofNat pushes.length).toNat = count.toNat + pushes.length := by
    rw [UInt32.toNat_add, UInt32.toNat_ofNat']
    omega
  rw [hlast.loaded hlossless, hword, List.take_of_length_le, List.map_append, List.map_map]
  · rfl
  · rw [List.length_append, List.length_map]
    omega

/-- Records that are not counted any more push the new ones out of what is loaded. -/
theorem Counts.loaded_of_uncounted {messages : List TrackMessageImpl}
    (h : cache.Counts ext config.strings messages 0) (hlossless : ext.Lossless)
    {pushes : List (PushEnv × TrackMessageImpl)}
    (hsmall : ∀ entry ∈ pushes, recordHeaderSize + entry.2.getSerializeSize ext ≤ 65536)
    {last : OpenCache} (hpushes : cache.pushAll ext pushes = some last) (clock : Nat → UInt32) :
    last.loaded ext clock
      = (messages.map (·.proto) ++ pushes.map (·.2.proto)).take pushes.length := by
  have hlast := h.pushAll hsmall hpushes
  have hlength := hlast.layout.length_le
  rw [List.length_append, List.length_map] at hlength
  have hword : (0 + UInt32.ofNat pushes.length).toNat = pushes.length := by
    rw [UInt32.zero_add, UInt32.toNat_ofNat']
    omega
  rw [hlast.loaded hlossless, hword, List.map_take, List.map_append, List.map_map]
  rfl

/-- **A push is atomic under kills.** Wherever the process is killed inside it, the file that is
opened again holds the records from before, or these and the new one, and pushes go on from there.
Earlier pushes may have been killed as well, fewer of them than the 32-bit count has room for. -/
theorem push_crash_atomic (hlossless : ext.Lossless) (config : TrackerConfig)
    (hfits : (ext.config.serialize config.strings).length ≤ 65536 - 28) (path : Str)
    (env : InitEnv) (henv : env.Succeeds) (ops : List CrashOp)
    (hops : ∀ op ∈ ops, op.Regular config ∧ op.Small ext)
    (hkills : ops.countP CrashOp.killsPush < 2 ^ 32 - 2 ^ 16) :
    ∃ cache, survivor ext config path env ops = some cache
      ∧ ∀ (clock : Nat → UInt32) (push : PushEnv) (message : TrackMessageImpl) (stop : Nat)
          (given : Option TrackerConfig) (init : InitEnv),
          recordHeaderSize + message.getSerializeSize ext ≤ 65536 →
          given = none ∨ given = some config → init.Succeeds →
          ∃ reopened kept,
            cache.reopenAfter ext (cache.killedPush ext push message stop) given init
                = (true, reopened)
              ∧ (kept = cache.loaded ext clock ∨ kept = cache.loaded ext clock ++ [message.proto])
              ∧ (∀ clock, reopened.loaded ext clock = kept)
              ∧ ∀ pushes last,
                  (∀ entry ∈ pushes, recordHeaderSize + entry.2.getSerializeSize ext ≤ 65536) →
                  reopened.pushAll ext pushes = some last →
                  ∀ clock, last.loaded ext clock = kept ++ pushes.map (·.2.proto) := by
  obtain ⟨cache, hrun, messages, count, hcounts, hlow, hhigh⟩ :=
    survivor_survives hlossless hfits henv path hops hkills
  refine ⟨cache, hrun, ?_⟩
  intro clock push message stop given init hsmall hgiven hinit
  have hbefore : cache.loaded ext clock = messages.map (·.proto) := by
    rw [hcounts.loaded hlossless, List.take_of_length_le hlow]
  obtain ⟨reopened, kept, count', hopen, hkept, hcounts', hlow', hhigh'⟩ :=
    (hcounts.leavesPush hsmall push stop).reopenAfter hlow hhigh hcounts.layout.length_le hkills
      hlossless hcounts.hash hgiven hinit
  refine ⟨reopened, kept.map (·.proto), hopen, ?_, ?_, ?_⟩
  · rw [hbefore]
    rcases hkept with rfl | rfl
    · exact Or.inl rfl
    · exact Or.inr (List.map_append ..)
  · intro clock
    rw [hcounts'.loaded hlossless, List.take_of_length_le hlow']
  · intro pushes last hpushes hlast clock
    exact hcounts'.loaded_pushAll hlossless hlow' (by omega) hpushes hlast clock

/-- Twice a process is killed after it has stored `record_count` and before `record_size`. -/
theorem push_crash_atomic_counted : ∃ cache reopened kept,
    survivor wireFormat plainConfig [] InitEnv.ideal
        [.killPush PushEnv.ideal (plainMessage [118]) 29 none InitEnv.ideal] = some cache
      ∧ cache.reopenAfter wireFormat
          (cache.killedPush wireFormat PushEnv.ideal (plainMessage [119]) 29) none InitEnv.ideal
        = (true, reopened)
      ∧ (kept = cache.loaded wireFormat (fun _ => 0)
        ∨ kept = cache.loaded wireFormat (fun _ => 0) ++ [(plainMessage [119]).proto])
      ∧ ∀ clock, reopened.loaded wireFormat clock = kept := by
  have hops : ∀ op ∈ [CrashOp.killPush PushEnv.ideal (plainMessage [118]) 29 none InitEnv.ideal],
      op.Regular plainConfig ∧ op.Small wireFormat := by
    intro op hop
    rw [List.mem_singleton.mp hop]
    exact ⟨⟨InitEnv.ideal_succeeds, Or.inl rfl⟩, by simp only [CrashOp.Small]; decide⟩
  obtain ⟨cache, hrun, hatomic⟩ := push_crash_atomic wireFormat_lossless plainConfig (by decide) []
    InitEnv.ideal InitEnv.ideal_succeeds _ hops (by decide)
  obtain ⟨reopened, kept, hopen, hkept, hloaded, _⟩ := hatomic (fun _ => 0) PushEnv.ideal
    (plainMessage [119]) 29 none InitEnv.ideal (by decide) (Or.inl rfl) InitEnv.ideal_succeeds
  exact ⟨cache, reopened, kept, hrun, hopen, hkept, hloaded⟩

/-- **Clearing is atomic under kills exactly when** the process is not killed after the store of
`record_count` and before that of `record_size`, or nothing comes of it because the first records of
the old and the new ones together are the new ones. -/
theorem clear_crash_atomic_iff (hlossless : ext.Lossless) (config : TrackerConfig)
    (hfits : (ext.config.serialize config.strings).length ≤ 65536 - 28) (path : Str)
    (env : InitEnv) (henv : env.Succeeds) (ops : List CrashOp)
    (hops : ∀ op ∈ ops, op.Regular config ∧ op.Small ext)
    (hkills : ops.countP CrashOp.killsPush < 2 ^ 32 - 2 ^ 16) :
    ∃ cache, survivor ext config path env ops = some cache
      ∧ ∀ (clock : Nat → UInt32) (reset : ResetEnv) (stop : Nat) (given : Option TrackerConfig)
          (init : InitEnv), given = none ∨ given = some config → init.Succeeds →
          ∃ reopened,
            cache.reopenAfter ext (cache.killedClear ext reset stop) given init = (true, reopened)
              ∧ ∀ pushes last,
                  (∀ entry ∈ pushes, recordHeaderSize + entry.2.getSerializeSize ext ≤ 65536) →
                  reopened.pushAll ext pushes = some last →
                  (last.loaded ext clock = cache.loaded ext clock ++ pushes.map (·.2.proto)
                      ∨ last.loaded ext clock = pushes.map (·.2.proto)
                    ↔ stop ≠ 3
                      ∨ (cache.loaded ext clock ++ pushes.map (·.2.proto)).take pushes.length
                        = pushes.map (·.2.proto)) := by
  obtain ⟨cache, hrun, messages, count, hcounts, hlow, hhigh⟩ :=
    survivor_survives hlossless hfits henv path hops hkills
  refine ⟨cache, hrun, ?_⟩
  intro clock reset stop given init hgiven hinit
  have hbefore : cache.loaded ext clock = messages.map (·.proto) := by
    rw [hcounts.loaded hlossless, List.take_of_length_le hlow]
  obtain ⟨hearly, hwindow, hlate⟩ := hcounts.killedClear hfits reset stop
  rcases Nat.lt_trichotomy stop 3 with hlt | heq | hgt
  · obtain ⟨reopened, hopen, hnext⟩ :=
      FileCounts.reopenAfter (hearly (by omega)) hlossless hcounts.hash hgiven hinit
    refine ⟨reopened, hopen, fun pushes last hsmall hlast => ?_⟩
    rw [hnext.loaded_pushAll hlossless hlow (by omega) hsmall hlast clock, hbefore]
    exact ⟨fun _ => Or.inl (by omega), fun _ => Or.inl rfl⟩
  · obtain ⟨reopened, hopen, hnext⟩ :=
      FileCounts.reopenAfter (hwindow heq) hlossless hcounts.hash hgiven hinit
    refine ⟨reopened, hopen, fun pushes last hsmall hlast => ?_⟩
    rw [hnext.loaded_of_uncounted hlossless hsmall hlast clock, hbefore]
    constructor
    · rintro (hall | hnew)
      · right
        -- a prefix that is the whole leaves no room for old records
        have hlength := congrArg List.length hall
        rw [List.length_take, List.length_append, List.length_map, List.length_map] at hlength
        have hnil : messages = [] := List.length_eq_zero_iff.mp (by omega)
        rw [hnil, List.map_nil, List.nil_append, List.take_of_length_le (by simp)]
      · exact Or.inr hnew
    · rintro (hne | hnew)
      · exact absurd heq hne
      · exact Or.inr hnew
  · obtain ⟨reopened, hopen, hnext⟩ :=
      FileCounts.reopenAfter (hlate (by omega)) hlossless hcounts.hash hgiven hinit
    refine ⟨reopened, hopen, fun pushes last hsmall hlast => ?_⟩
    rw [hnext.loaded_pushAll hlossless (Nat.zero_le _) (Nat.zero_le _) hsmall hlast clock]
    exact ⟨fun _ => Or.inl (by omega), fun _ => Or.inr rfl⟩

theorem plainPush_regular (value : Str)
    (hsmall : recordHeaderSize + (plainMessage value).getSerializeSize wireFormat ≤ 65536) :
    ∀ op ∈ [CrashOp.perform (.push PushEnv.ideal (plainMessage value))],
      op.Regular plainConfig ∧ op.Small wireFormat := by
  intro op hop
  rw [List.mem_singleton.mp hop]
  exact ⟨PushEnv.ideal_succeeds, hsmall⟩

theorem clear_crash_atomic_iff_pushed : ∃ cache reopened,
    survivor wireFormat plainConfig [] InitEnv.ideal
        [.perform (.push PushEnv.ideal (plainMessage [118]))] = some cache
      ∧ cache.reopenAfter wireFormat (cache.killedClear wireFormat ResetEnv.ideal 2) none
          InitEnv.ideal = (true, reopened)
      ∧ ∀ last, reopened.pushAll wireFormat [(PushEnv.ideal, plainMessage [119])] = some last →
          last.loaded wireFormat (fun _ => 0)
              = cache.loaded wireFormat (fun _ => 0) ++ [(plainMessage [119]).proto]
            ∨ last.loaded wireFormat (fun _ => 0) = [(plainMessage [119]).proto] := by
  obtain ⟨cache, hrun, hatomic⟩ := clear_crash_atomic_iff wireFormat_lossless plainConfig
    (by decide) [] InitEnv.ideal InitEnv.ideal_succeeds _ (plainPush_regular [118] (by decide))
    (by decide)
  obtain ⟨reopened, hopen, hiff⟩ := hatomic (fun _ => 0) ResetEnv.ideal 2 none InitEnv.ideal
    (Or.inl rfl) InitEnv.ideal_succeeds
  refine ⟨cache, reopened, hrun, hopen, fun last hlast => ?_⟩
  refine (hiff [(PushEnv.ideal, plainMessage [119])] last ?_ hlast).mpr (Or.inl (by decide))
  intro entry hentry
  rw [List.mem_singleton.mp hentry]
  decide

/-- One record in the file, a clear killed between its counters, one push: what is loaded is the
record that was to be cleared, and the new one is not there. -/
theorem clear_crash_keeps_old_record : ∃ cache reopened last,
    survivor wireFormat plainConfig [] InitEnv.ideal
        [.perform (.push PushEnv.ideal (plainMessage [118]))] = some cache
      ∧ cache.reopenAfter wireFormat (cache.killedClear wireFormat ResetEnv.ideal 3) none
          InitEnv.ideal = (true, reopened)
      ∧ reopened.pushAll wireFormat [(PushEnv.ideal, plainMessage [119])] = some last
      ∧ ∀ clock, cache.loaded wireFormat clock = [(plainMessage [118]).proto]
        ∧ last.loaded wireFormat clock = [(plainMessage [118]).proto]
        ∧ ¬ (last.loaded wireFormat clock
              = cache.loaded wireFormat clock ++ [(plainMessage [119]).proto]
            ∨ last.loaded wireFormat clock = [(plainMessage [119]).proto]) := by
  obtain ⟨first, hopen, hfirst, _⟩ := openAt_absent plainConfig.hash_eq History.plainConfig_fits
    InitEnv.ideal_succeeds []
  have hfirstNext : first.nextSize wireFormat (plainMessage [118]) ≤ cacheCapability := by
    rw [hfirst.nextSize]
    decide
  have hlimit : cacheCapability ≤ maxCacheSize := by decide
  obtain ⟨cache, hpush, hcache, _⟩ := hfirst.push PushEnv.ideal_succeeds
    (Nat.le_trans hfirstNext hlimit) (by omega)
  obtain ⟨_, hwindow, _⟩ := hcache.counts.killedClear History.plainConfig_fits ResetEnv.ideal 3
  obtain ⟨reopened, hreopen, hreopened⟩ := FileCounts.reopenAfter (hwindow rfl)
    wireFormat_lossless hcache.hash (Or.inl rfl) InitEnv.ideal_succeeds
  have hnext : reopened.nextSize wireFormat (plainMessage [119]) ≤ cacheCapability := by
    rw [hreopened.nextSize]
    decide
  obtain ⟨last, hlast, hcounts, _⟩ := hreopened.push PushEnv.ideal_succeeds
    (Nat.le_trans hnext hlimit) (by omega)
  have hpushes : reopened.pushAll wireFormat [(PushEnv.ideal, plainMessage [119])] = some last := by
    simp only [pushAll, List.foldlM_cons, List.foldlM_nil, hlast, Option.bind_eq_bind,
      Option.bind_some, Option.pure_def]
  refine ⟨cache, reopened, last, ?_, hreopen, hpushes, fun clock => ?_⟩
  · simp only [survivor, hopen, List.foldlM_cons, List.foldlM_nil, survive, cacheSystem, perform,
      hpush, Option.bind_eq_bind, Option.bind_some, Option.pure_def]
  · have hbefore : cache.loaded wireFormat clock = [(plainMessage [118]).proto] := by
      rw [hcache.counts.loaded wireFormat_lossless]
      rfl
    have hafter : last.loaded wireFormat clock = [(plainMessage [118]).proto] := by
      rw [hcounts.loaded wireFormat_lossless]
      rfl
    refine ⟨hbefore, hafter, ?_⟩
    rw [hbefore, hafter]
    decide

end OpenCache

end TapSdk.Tracker
