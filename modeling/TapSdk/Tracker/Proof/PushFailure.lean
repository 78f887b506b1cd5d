import TapSdk.Tracker.History
import TapSdk.Tracker.Proof.PushBounds

/-!
# A push that fails

File operations may now fail in any pattern. `Covered` is what is left of the invariant: the header
is in its buffer, or the record area lies inside a live mapping that lies inside the file. It holds
as long as no push stores past the end of its mapping. From it follows which failures of a push go
unnoticed by `GetCount` and `Load`: those that happen before the counters are updated, except that a
file that is not mapped may have grown over records it did not cover before.
-/

namespace TapSdk.Tracker

open Library

variable {ext : Externals}

namespace OpenCache

variable {cache next : OpenCache} {length newSize : Nat}

/-! ### The same records -/

/-- The records of `cache` are still there, as far as the file of `next` covers them. -/
structure SameRecords (cache next : OpenCache) : Prop where
  header : next.header = cache.header
  config : next.object.config = cache.object.config
  area : cache.areaEnd ≤ next.size → ∀ i, i < cache.header.recordSize.toNat →
    next.area i = cache.area i

theorem SameRecords.refl (cache : OpenCache) : SameRecords cache cache :=
  ⟨rfl, rfl, fun _ _ _ => rfl⟩

theorem SameRecords.areaEnd (h : SameRecords cache next) : next.areaEnd = cache.areaEnd := by
  rw [OpenCache.areaEnd, OpenCache.areaEnd, h.header]

theorem SameRecords.load (h : SameRecords cache next) (clock : Nat → UInt32) :
    next.load ext clock
      = if cache.areaEnd > next.size then [] else cache.decodeArea ext clock := by
  rw [OpenCache.load, h.areaEnd]
  split
  · rfl
  · rename_i hcovered
    rw [decodeArea, decodeArea, h.header, h.config]
    exact loadLoop_congr (h.area (Nat.not_lt.mp hcovered)) _ _ _ _

theorem SameRecords.getCount (h : SameRecords cache next) : next.getCount = cache.getCount := by
  rw [OpenCache.getCount, OpenCache.getCount, h.header]

/-! ### Mapped files that grow -/

theorem MappedTo.resize (h : cache.MappedTo length) (hle : length ≤ newSize) :
    (cache.resize newSize).MappedTo length := ⟨h.ptr, hle⟩

theorem MappedTo.memory_resize (h : cache.MappedTo length) (hle : length ≤ newSize) :
    (cache.resize newSize).memory = cache.memory := by
  obtain ⟨beyond, hptr⟩ := h.ptr
  funext i
  by_cases hi : i < length
  · rw [(h.resize hle).memory_of_lt hi, h.memory_of_lt hi]
    exact FileData.resize_byte (by omega)
  · simp [OpenCache.memory, OpenCache.resize, hptr, hi]

/-- The mapping after an attempt to grow covers at least what it covered before. -/
structure Regrown (cache next : OpenCache) (length : Nat) : Prop where
  mapped : ∃ length', length ≤ length' ∧ length' ≤ next.size ∧ next.MappedTo length'
  size : cache.size ≤ next.size
  memory : ∀ i, i < length → next.memory i = cache.memory i
  config : next.object.config = cache.object.config
  curSize : cache.object.file.curSize ≠ 0 → next.object.file.curSize ≠ 0

theorem MappedTo.grow (h : cache.MappedTo length) (hle : length ≤ cache.size) (env : PushEnv)
    (nextSize : Nat) : Regrown cache (cache.grow env nextSize).2 length := by
  have hsame : Regrown cache cache length :=
    ⟨⟨length, Nat.le_refl _, hle, h⟩, Nat.le_refl _, fun _ _ => rfl, rfl, id⟩
  have hpos : 0 < cache.size + cacheCapability := Nat.add_pos_right _ (by decide)
  have hfits : length ≤ cache.size + cacheCapability := Nat.le_add_right_of_le hle
  have hsize := @size_resize cache _ hpos
  have hold : Regrown cache (cache.resize (cache.size + cacheCapability)) length :=
    ⟨⟨length, Nat.le_refl _, by rw [hsize]; exact hfits, h.resize hfits⟩,
      by rw [hsize]; exact Nat.le_add_right _ _, fun i _ => congrFun (h.memory_resize hfits) i, rfl,
      fun _ => Nat.pos_iff_ne_zero.mp hpos⟩
  simp only [OpenCache.grow, (h.resize hfits).isMapped, if_true]
  split
  · split
    · cases hmap : env.map with
      | none => exact hold
      | some beyond =>
          by_cases hunmap : env.unmap = true
          · simp only [hunmap, if_true]
            refine ⟨⟨_, hfits, ?_, ⟨⟨beyond, rfl⟩, Nat.le_refl _⟩⟩, hold.size, ?_, rfl,
              hold.curSize⟩
            · exact Nat.le_of_eq hsize.symm
            · intro i hi
              rw [← hold.memory i hi, (h.resize hfits).memory_of_lt hi]
              simp only [OpenCache.memory, setPtr, OpenCache.resize]
              rw [if_pos (by omega)]
          · simp only [hunmap]
            exact hold
    · exact hsame
  · exact hsame

theorem Regrown.header (h : Regrown cache next length) (hmapped : cache.MappedTo length)
    (hcap : cacheHeaderSize ≤ length) : next.header = cache.header := by
  obtain ⟨length', _, _, hnext⟩ := h.mapped
  rw [hnext.header_eq, hmapped.header_eq]
  exact CacheHeader.decode_congr fun i hi => h.memory i (by omega)

theorem Regrown.sameRecords (h : Regrown cache next length) (hmapped : cache.MappedTo length)
    (hcap : cacheHeaderSize ≤ length) (hend : cache.areaEnd ≤ length) :
    SameRecords cache next := by
  have hheader := h.header hmapped hcap
  obtain ⟨length', _, _, hnext⟩ := h.mapped
  refine ⟨hheader, h.config, fun _ i hi => ?_⟩
  unfold OpenCache.areaEnd at hend
  simp only [area, hnext.isMapped, hmapped.isMapped, if_true, hheader]
  exact h.memory _ (by omega)

theorem MappedTo.sameRecords_store (h : cache.MappedTo length) {offset : Nat}
    {bytes : List UInt8} (hoffset : cache.areaEnd ≤ offset) :
    SameRecords cache (cache.store offset bytes) := by
  have hlow := cache.cacheHeaderSize_le_areaEnd
  have hheader : (cache.store offset bytes).header = cache.header := by
    rw [h.store.header_eq, h.memory_store, CacheHeader.decode_write_of_le (by omega), h.header_eq]
  refine ⟨hheader, (sameFrame_store cache offset bytes).config, fun _ i hi => ?_⟩
  unfold OpenCache.areaEnd at hoffset
  simp only [area, h.store.isMapped, h.isMapped, if_true, hheader, h.memory_store]
  exact Memory.write_of_outside (Or.inl (by omega))

theorem SameRecords.trans {last : OpenCache} (h : SameRecords cache next)
    (h' : SameRecords next last) (hsize : last.size ≤ next.size) : SameRecords cache last := by
  refine ⟨h'.header.trans h.header, h'.config.trans h.config, fun hcovered i hi => ?_⟩
  rw [h'.area (by rw [h.areaEnd]; exact hcovered) i (by rw [h.header]; exact hi)]
  exact h.area (by omega) i hi

/-! ### Files that are not mapped -/

theorem isMapped_of_headerBuf (h : cache.object.cacheHeader = .headerBuf) :
    cache.isMapped = false := by
  simp [OpenCache.isMapped, h]

theorem pwrite_byte_of_lt {disk : FileData} {offset i : Nat} (bytes : List UInt8)
    (hi : i < offset) : (disk.pwrite offset bytes).byte i = disk.byte i := by
  rw [FileData.pwrite_byte, Memory.write_of_outside (Or.inl hi)]

theorem sameRecords_disk (h : cache.object.cacheHeader = .headerBuf) {disk : FileData}
    (hbyte : ∀ i, i < cache.areaEnd → disk.byte i = cache.disk.byte i) :
    SameRecords cache { cache with disk := disk } := by
  have hheader : ({ cache with disk := disk } : OpenCache).header = cache.header := by
    simp only [OpenCache.header, h]
  refine ⟨hheader, rfl, fun _ i hi => ?_⟩
  have hmapped := isMapped_of_headerBuf h
  have hmapped' : ({ cache with disk := disk } : OpenCache).isMapped = false := hmapped
  unfold OpenCache.areaEnd at hbyte
  simp only [area, hmapped, hmapped', hheader]
  exact hbyte _ (by omega)

theorem sameRecords_resize (h : cache.object.cacheHeader = .headerBuf) (hpos : 0 < newSize) :
    SameRecords cache (cache.resize newSize) := by
  have hheader : (cache.resize newSize).header = cache.header := by
    simp only [OpenCache.header, OpenCache.resize, h]
  refine ⟨hheader, rfl, fun hcovered i hi => ?_⟩
  have hmapped := isMapped_of_headerBuf h
  have hmapped' : (cache.resize newSize).isMapped = false := hmapped
  rw [size_resize hpos] at hcovered
  unfold OpenCache.areaEnd at hcovered
  simp only [area, hmapped, hmapped', hheader]
  exact FileData.resize_byte (by omega)

/-! ### Early and late failures -/

def Grows (cache : OpenCache) (env : PushEnv) (nextSize : Nat) : Prop :=
  nextSize ≤ cache.size ∨ (env.resize = true
    ∧ (cache.isMapped = true → env.map.isSome = true ∧ env.unmap = true))

theorem grow_true_iff (env : PushEnv) (nextSize : Nat) :
    (cache.grow env nextSize).1 = true ↔ cache.Grows env nextSize := by
  have hmapped : (cache.resize (cache.size + cacheCapability)).isMapped = cache.isMapped := rfl
  have hlt : nextSize > cache.size ↔ ¬ nextSize ≤ cache.size := Nat.not_le.symm
  simp only [OpenCache.grow, Grows, hmapped, hlt]
  by_cases hsize : nextSize ≤ cache.size
  · simp [hsize]
  · cases hresize : env.resize <;> cases hisMapped : cache.isMapped <;> cases hmap : env.map <;>
      cases hunmap : env.unmap <;> simp [hsize]

/-- Every operation of the push up to the update of the counters succeeds. -/
structure ReachesCounters (ext : Externals) (cache : OpenCache) (env : PushEnv)
    (message : TrackMessageImpl) : Prop where
  bounded : cache.nextSize ext message ≤ maxCacheSize
  grows : cache.Grows env (cache.nextSize ext message)
  serialize : env.serialize = .full
  writes : cache.isMapped = false → env.writeRecordHeader = .full ∧ env.writeContent = .full

variable {env : PushEnv} {message : TrackMessageImpl}

theorem push_of_grow {ok : Bool} {grown : OpenCache}
    (hmax : cache.nextSize ext message ≤ maxCacheSize)
    (hgrow : cache.grow env (cache.nextSize ext message) = (ok, grown)) :
    cache.push ext env message = if ok then
      (if grown.isMapped then grown.appendMapped ext env message
        else grown.appendUnmapped ext env message) else (false, grown) := by
  have hfits : ¬ cache.nextSize ext message > maxCacheSize := Nat.not_lt.mpr hmax
  cases ok <;> simp only [OpenCache.push, hfits, if_false, hgrow] <;> rfl

/-- What growing a file that is not mapped does. -/
structure Lengthened (cache next : OpenCache) (env : PushEnv) (nextSize : Nat) : Prop where
  ptr : next.object.cacheHeader = .headerBuf
  curSize : next.object.file.curSize ≠ 0
  records : SameRecords cache next
  size : next.size
    = if nextSize > cache.size ∧ env.resize = true then cache.size + cacheCapability else cache.size

theorem lengthened_grow (h : cache.object.cacheHeader = .headerBuf)
    (hcur : cache.object.file.curSize ≠ 0) (env : PushEnv) (nextSize : Nat) :
    Lengthened cache (cache.grow env nextSize).2 env nextSize := by
  have hmapped : (cache.resize (cache.size + cacheCapability)).isMapped = false :=
    isMapped_of_headerBuf h
  have hpos : 0 < cache.size + cacheCapability := Nat.add_pos_right _ (by decide)
  have hgrow : cache.grow env nextSize = if nextSize > cache.size then
      (if env.resize then (true, cache.resize (cache.size + cacheCapability)) else (false, cache))
      else (true, cache) := by
    simp only [OpenCache.grow, hmapped, Bool.false_eq_true, if_false]
  by_cases hsize : nextSize > cache.size
  · by_cases hresize : env.resize = true
    · rw [hgrow, if_pos hsize, if_pos hresize]
      refine ⟨h, Nat.pos_iff_ne_zero.mp hpos, sameRecords_resize h hpos, ?_⟩
      rw [if_pos ⟨hsize, hresize⟩, size_resize hpos]
    · rw [hgrow, if_pos hsize, if_neg hresize]
      refine ⟨h, hcur, SameRecords.refl cache, ?_⟩
      rw [if_neg fun both => hresize both.2]
  · rw [hgrow, if_neg hsize]
    refine ⟨h, hcur, SameRecords.refl cache, ?_⟩
    rw [if_neg fun both => hsize both.1]

theorem appendUnmapped_early (h : cache.object.cacheHeader = .headerBuf)
    (hcur : cache.object.file.curSize ≠ 0)
    (hearly : ¬ (env.serialize = .full ∧ env.writeRecordHeader = .full
      ∧ env.writeContent = .full)) :
    SameRecords cache (cache.appendUnmapped ext env message).2
      ∧ (cache.appendUnmapped ext env message).2.size = cache.size := by
  have hsize : ∀ disk, ({ cache with disk := disk } : OpenCache).size = cache.size := by
    intro disk
    simp only [OpenCache.size, File.size, if_pos hcur]
  unfold appendUnmapped
  cases hserialize : env.serialize with
  | short count => exact ⟨SameRecords.refl cache, rfl⟩
  | full =>
      cases hheader : env.writeRecordHeader with
      | short count =>
          refine ⟨sameRecords_disk h fun i hi => ?_, hsize _⟩
          exact pwrite_byte_of_lt _ hi
      | full =>
          cases hcontent : env.writeContent with
          | short count =>
              refine ⟨sameRecords_disk h fun i hi => ?_, hsize _⟩
              exact (pwrite_byte_of_lt _ (Nat.lt_add_right _ hi)).trans (pwrite_byte_of_lt _ hi)
          | full => exact absurd ⟨hserialize, hheader, hcontent⟩ hearly

theorem appendUnmapped_header (h : cache.object.cacheHeader = .headerBuf)
    (hserialize : env.serialize = .full) (hheader : env.writeRecordHeader = .full)
    (hcontent : env.writeContent = .full) :
    (cache.appendUnmapped ext env message).2.header
      = cache.header.addRecord (message.getSerializeSize ext) := by
  have hbuf : ∀ disk, ({ cache.setHeaderBuf (cache.header.addRecord
      (message.getSerializeSize ext)) with disk := disk } : OpenCache).header
      = cache.header.addRecord (message.getSerializeSize ext) := by
    intro disk
    simp only [OpenCache.header, setHeaderBuf, h]
  simp only [appendUnmapped, hserialize, hheader, hcontent, FileData.write, Bool.not_true,
    Bool.false_eq_true, if_false]
  split <;> exact hbuf _

/-! ### The invariant -/

/-- The header is in its buffer, or in a live mapping inside the file. -/
structure Anchored (cache : OpenCache) : Prop where
  curSize : cache.object.file.curSize ≠ 0
  ptr : cache.object.cacheHeader = .headerBuf
    ∨ ∃ length, cacheCapability ≤ length ∧ length ≤ cache.size ∧ cache.MappedTo length

/-- Moreover the mapping, when there is one, covers the record area. -/
structure Covered (cache : OpenCache) : Prop where
  curSize : cache.object.file.curSize ≠ 0
  ptr : cache.object.cacheHeader = .headerBuf
    ∨ ∃ length, cacheCapability ≤ length ∧ length ≤ cache.size ∧ cache.MappedTo length
      ∧ cache.areaEnd ≤ length

theorem Covered.anchored (h : cache.Covered) : cache.Anchored := by
  refine ⟨h.curSize, h.ptr.imp_right ?_⟩
  rintro ⟨length, hcap, hle, hmapped, _⟩
  exact ⟨length, hcap, hle, hmapped⟩

theorem cacheHeaderSize_le_of_cap (h : cacheCapability ≤ length) : cacheHeaderSize ≤ length :=
  Nat.le_trans (by decide) h

/-- A push that gets as far as the counters counts the record, whatever it returns. -/
theorem Covered.header_push (h : cache.Covered)
    (hcounters : cache.ReachesCounters ext env message) :
    (cache.push ext env message).2.header
      = cache.header.addRecord (message.getSerializeSize ext) := by
  have hok := (grow_true_iff env _).mpr hcounters.grows
  cases hgrow : cache.grow env (cache.nextSize ext message) with
  | mk ok grown =>
      rw [hgrow] at hok
      simp only at hok
      rw [push_of_grow hcounters.bounded hgrow, if_pos hok]
      rcases h.ptr with hbuf | ⟨length, hcap, hle, hmapped, _⟩
      · have hgrown := lengthened_grow hbuf h.curSize env (cache.nextSize ext message)
        simp only [hgrow] at hgrown
        obtain ⟨hheader, hcontent⟩ := hcounters.writes (isMapped_of_headerBuf hbuf)
        simp only [isMapped_of_headerBuf hgrown.ptr, Bool.false_eq_true, if_false]
        rw [appendUnmapped_header hgrown.ptr hcounters.serialize hheader hcontent,
          hgrown.records.header]
      · have hregrown := hmapped.grow hle env (cache.nextSize ext message)
        simp only [hgrow] at hregrown
        obtain ⟨length', _, _, hnext⟩ := hregrown.mapped
        simp only [hnext.isMapped, if_true, appendMapped, hcounters.serialize]
        rw [hnext.header_pushStores,
          hregrown.header hmapped (cacheHeaderSize_le_of_cap hcap)]

theorem MappedTo.push_early (hmapped : cache.MappedTo length) (hcap : cacheCapability ≤ length)
    (hle : length ≤ cache.size) (hend : cache.areaEnd ≤ length)
    (hearly : ¬ cache.ReachesCounters ext env message) :
    SameRecords cache (cache.push ext env message).2
      ∧ cache.size ≤ (cache.push ext env message).2.size := by
  by_cases hmax : cache.nextSize ext message ≤ maxCacheSize
  · have hregrown := hmapped.grow hle env (cache.nextSize ext message)
    have hiff := @grow_true_iff cache env (cache.nextSize ext message)
    cases hgrow : cache.grow env (cache.nextSize ext message) with
    | mk ok grown =>
        simp only [hgrow] at hregrown hiff
        have hsame := hregrown.sameRecords hmapped (cacheHeaderSize_le_of_cap hcap) hend
        obtain ⟨length', _, _, hnext⟩ := hregrown.mapped
        rw [push_of_grow hmax hgrow]
        by_cases hok : ok = true
        · cases hserialize : env.serialize with
          | full =>
              have hunmapped : cache.isMapped = false →
                  env.writeRecordHeader = .full ∧ env.writeContent = .full := by
                intro hfalse
                rw [hmapped.isMapped] at hfalse
                cases hfalse
              exact absurd ⟨hmax, hiff.mp hok, hserialize, hunmapped⟩ hearly
          | short count =>
              simp only [hok, hnext.isMapped, if_true, appendMapped, hserialize]
              have hstored := @MappedTo.sameRecords_store grown length' hnext _
                ((ext.message.serialize message.proto).take count)
                (Nat.le_add_right grown.areaEnd recordHeaderSize)
              have hsize : (grown.store (grown.areaEnd + recordHeaderSize)
                  ((ext.message.serialize message.proto).take count)).size = grown.size := by
                have hframe := sameFrame_store grown (grown.areaEnd + recordHeaderSize)
                  ((ext.message.serialize message.proto).take count)
                rw [OpenCache.size, OpenCache.size, hframe.file, File.size, File.size, hframe.size]
              exact ⟨hsame.trans hstored (Nat.le_of_eq hsize), hsize ▸ hregrown.size⟩
        · simp only [hok]
          exact ⟨hsame, hregrown.size⟩
  · rw [push_of_gt (Nat.not_le.mp hmax)]
    exact ⟨SameRecords.refl cache, Nat.le_refl _⟩

theorem push_early_of_headerBuf (hbuf : cache.object.cacheHeader = .headerBuf)
    (hcur : cache.object.file.curSize ≠ 0) (hearly : ¬ cache.ReachesCounters ext env message) :
    SameRecords cache (cache.push ext env message).2
      ∧ (cache.push ext env message).2.size
        = if cache.nextSize ext message ≤ maxCacheSize ∧ cache.nextSize ext message > cache.size
            ∧ env.resize = true then cache.size + cacheCapability else cache.size := by
  by_cases hmax : cache.nextSize ext message ≤ maxCacheSize
  · have hgrown := lengthened_grow hbuf hcur env (cache.nextSize ext message)
    have hiff := @grow_true_iff cache env (cache.nextSize ext message)
    simp only [hmax, true_and]
    cases hgrow : cache.grow env (cache.nextSize ext message) with
    | mk ok grown =>
        simp only [hgrow] at hgrown hiff
        rw [push_of_grow hmax hgrow, ← hgrown.size]
        by_cases hok : ok = true
        · have hfails : ¬ (env.serialize = .full ∧ env.writeRecordHeader = .full
              ∧ env.writeContent = .full) := by
            rintro ⟨hserialize, hwrites⟩
            exact hearly ⟨hmax, hiff.mp hok, hserialize, fun _ => hwrites⟩
          obtain ⟨hsame, hsize⟩ :=
            @appendUnmapped_early ext grown env message hgrown.ptr hgrown.curSize hfails
          simp only [hok, isMapped_of_headerBuf hgrown.ptr, if_true, Bool.false_eq_true, if_false]
          exact ⟨hgrown.records.trans hsame (Nat.le_of_eq hsize), hsize⟩
        · simp only [hok]
          exact ⟨hgrown.records, rfl⟩
  · rw [push_of_gt (Nat.not_le.mp hmax), if_neg fun both => hmax both.1]
    exact ⟨SameRecords.refl cache, rfl⟩

/-- The growth of the file brings records inside it that `Load` did not reach before. -/
structure Uncovers (ext : Externals) (cache : OpenCache) (env : PushEnv)
    (message : TrackMessageImpl) : Prop where
  unmapped : cache.isMapped = false
  bounded : cache.nextSize ext message ≤ maxCacheSize
  resize : env.resize = true
  outside : cache.size < cache.areaEnd
  inside : cache.areaEnd ≤ cache.size + cacheCapability
  records : ∃ clock, cache.decodeArea ext clock ≠ []

theorem Covered.load_push_early (h : cache.Covered)
    (hearly : ¬ cache.ReachesCounters ext env message) :
    (cache.push ext env message).2.getCount = cache.getCount
      ∧ ((∀ clock, (cache.push ext env message).2.load ext clock = cache.load ext clock)
        ↔ ¬ cache.Uncovers ext env message) := by
  rcases h.ptr with hbuf | ⟨length, hcap, hle, hmapped, hend⟩
  · obtain ⟨hsame, hsize⟩ := push_early_of_headerBuf hbuf h.curSize hearly
    refine ⟨hsame.getCount, ?_⟩
    have hnext := @nextSize_eq ext cache message
    have hbefore : ∀ clock, cache.load ext clock
        = if cache.areaEnd > cache.size then [] else cache.decodeArea ext clock := fun _ => rfl
    constructor
    · intro hload huncovers
      obtain ⟨_, hmax, hresize, hout, hin, clock, hrecords⟩ := huncovers
      rw [if_pos ⟨hmax, by omega, hresize⟩] at hsize
      have hthis := hload clock
      rw [hsame.load, hsize, if_neg (by omega), hbefore, if_pos hout] at hthis
      exact hrecords hthis
    · intro hnot clock
      rw [hsame.load, hbefore]
      by_cases hout : cache.size < cache.areaEnd
      · rw [if_pos hout]
        split
        · rfl
        · -- the records are inside the file now, so there must be none
          rename_i hin
          split at hsize
          · rename_i hgrew
            by_contra hrecords
            exact hnot ⟨isMapped_of_headerBuf hbuf, hgrew.1, hgrew.2.2, hout, by omega, clock,
              hrecords⟩
          · omega
      · have hroom : cache.size ≤ (cache.push ext env message).2.size := by
          rw [hsize]
          split <;> omega
        rw [if_neg (by omega), if_neg (by omega)]
  · obtain ⟨hsame, hsize⟩ := hmapped.push_early hcap hle hend hearly
    have hnot : ¬ cache.Uncovers ext env message := by
      intro huncovers
      have hunmapped := huncovers.unmapped
      rw [hmapped.isMapped] at hunmapped
      cases hunmapped
    refine ⟨hsame.getCount, fun _ => hnot, fun _ clock => ?_⟩
    rw [hsame.load, OpenCache.load, if_neg (by omega), if_neg (by omega)]

/-- **Which failures of a push leave no trace**: exactly those before the counters, unless the file
has grown over records it did not cover. -/
theorem Covered.push_unchanged_iff (h : cache.Covered) :
    ((cache.push ext env message).2.getCount = cache.getCount
        ∧ ∀ clock, (cache.push ext env message).2.load ext clock = cache.load ext clock)
      ↔ ¬ cache.ReachesCounters ext env message ∧ ¬ cache.Uncovers ext env message := by
  by_cases hcounters : cache.ReachesCounters ext env message
  · have hcount : (cache.push ext env message).2.getCount ≠ cache.getCount := by
      rw [OpenCache.getCount, OpenCache.getCount, h.header_push hcounters]
      simp only [CacheHeader.addRecord]
      intro heq
      have hnat := congrArg UInt32.toNat heq
      have hlt := cache.header.recordCount.toNat_lt
      rw [UInt32.toNat_add, UInt32.toNat_one] at hnat
      omega
    exact ⟨fun hsame => absurd hsame.1 hcount, fun hnot => absurd hcounters hnot.1⟩
  · obtain ⟨hcount, hload⟩ := h.load_push_early hcounters
    exact ⟨fun hsame => ⟨hcounters, hload.mp hsame.2⟩, fun hnot => ⟨hcount, hload.mpr hnot.2⟩⟩

/-! ### The invariant along runs -/

/-- The stores of the operation stay inside the mapping they go through. -/
def Defined (ext : Externals) (cache : OpenCache) : CacheOp → Prop
  | .push env message => cache.nextSize ext message ≤ maxCacheSize →
      ∀ grown length beyond, cache.grow env (cache.nextSize ext message) = (true, grown) →
        grown.object.cacheHeader = .mapping length beyond → cache.nextSize ext message ≤ length
  | _ => True

theorem store_eq_storeAll (cache : OpenCache) (offset : Nat) (bytes : List UInt8) :
    cache.store offset bytes = cache.storeAll [(offset, bytes)] := rfl

theorem size_storeAll (cache : OpenCache) (stores : List (Nat × List UInt8)) :
    (cache.storeAll stores).size = cache.size := by
  have hframe := sameFrame_storeAll stores cache
  rw [OpenCache.size, OpenCache.size, hframe.file, File.size, File.size, hframe.size]

theorem MappedTo.covered_storeAll (h : cache.MappedTo length) (hcap : cacheCapability ≤ length)
    (hle : length ≤ cache.size) (hcur : cache.object.file.curSize ≠ 0)
    {stores : List (Nat × List UInt8)} (hend : (cache.storeAll stores).areaEnd ≤ length) :
    (cache.storeAll stores).Covered := by
  refine ⟨?_, Or.inr ⟨length, hcap, ?_, h.storeAll stores, hend⟩⟩
  · rw [(sameFrame_storeAll stores cache).file]
    exact hcur
  · rw [size_storeAll]
    exact hle

theorem appendUnmapped_object (cache : OpenCache) (env : PushEnv) (message : TrackMessageImpl) :
    (cache.appendUnmapped ext env message).2.object.cacheHeader = cache.object.cacheHeader
      ∧ (cache.appendUnmapped ext env message).2.object.file = cache.object.file := by
  unfold appendUnmapped
  split
  · exact ⟨rfl, rfl⟩
  · dsimp only
    repeat' split
    all_goals exact ⟨rfl, rfl⟩

theorem Covered.push (h : cache.Covered) (hdefined : cache.Defined ext (.push env message)) :
    (cache.push ext env message).2.Covered := by
  by_cases hmax : cache.nextSize ext message ≤ maxCacheSize
  · have hinside := hdefined hmax
    cases hgrow : cache.grow env (cache.nextSize ext message) with
    | mk ok grown =>
        rw [push_of_grow hmax hgrow]
        rcases h.ptr with hbuf | ⟨length, hcap, hle, hmapped, hend⟩
        · have hgrown := lengthened_grow hbuf h.curSize env (cache.nextSize ext message)
          simp only [hgrow] at hgrown
          obtain ⟨hptr, hfile⟩ := @appendUnmapped_object ext grown env message
          simp only [isMapped_of_headerBuf hgrown.ptr, Bool.false_eq_true, if_false]
          split
          · exact ⟨by rw [hfile]; exact hgrown.curSize, Or.inl (hptr.trans hgrown.ptr)⟩
          · exact ⟨hgrown.curSize, Or.inl hgrown.ptr⟩
        · have hregrown := hmapped.grow hle env (cache.nextSize ext message)
          simp only [hgrow] at hregrown
          have hsame := hregrown.sameRecords hmapped (cacheHeaderSize_le_of_cap hcap) hend
          obtain ⟨length', hlonger, hle', hnext⟩ := hregrown.mapped
          have hcap' := Nat.le_trans hcap hlonger
          have hcur := hregrown.curSize h.curSize
          have hend' : grown.areaEnd ≤ length' := by
            rw [hsame.areaEnd]
            exact Nat.le_trans hend hlonger
          simp only [hnext.isMapped, if_true]
          split
          · rename_i hok
            cases hserialize : env.serialize with
            | short count =>
                have hstored := @MappedTo.sameRecords_store grown length' hnext _
                  ((ext.message.serialize message.proto).take count)
                  (Nat.le_add_right grown.areaEnd recordHeaderSize)
                simp only [appendMapped, hserialize]
                rw [store_eq_storeAll] at hstored ⊢
                exact hnext.covered_storeAll hcap' hle' hcur
                  (Nat.le_trans (Nat.le_of_eq hstored.areaEnd) hend')
            | full =>
                obtain ⟨beyond, hptr⟩ := hnext.ptr
                have hnextSize : grown.nextSize ext message = cache.nextSize ext message := by
                  rw [nextSize, nextSize, hsame.header]
                simp only [appendMapped, hserialize]
                refine hnext.covered_storeAll hcap' hle' hcur ?_
                rw [hnext.areaEnd_pushStores (by omega), hnextSize]
                exact hinside grown length' beyond (by rw [hok] at hgrow; exact hgrow) hptr
          · exact ⟨hcur, Or.inr ⟨length', hcap', hle', hnext, hend'⟩⟩
  · rw [push_of_gt (Nat.not_le.mp hmax)]
    exact h

theorem MappedTo.unique {length' : Nat} (h : cache.MappedTo length) (h' : cache.MappedTo length') :
    length = length' := by
  obtain ⟨beyond, hptr⟩ := h.ptr
  obtain ⟨beyond', hptr'⟩ := h'.ptr
  rw [hptr] at hptr'
  exact (HeaderPtr.mapping.inj hptr').1

theorem not_mappedTo_of_headerBuf (h : cache.object.cacheHeader = .headerBuf) :
    ¬ cache.MappedTo length := by
  rintro ⟨⟨beyond, hptr⟩, _⟩
  rw [h] at hptr
  cases hptr

def MapsAll (cache : OpenCache) : Prop := ∀ length, cache.MappedTo length → length = cache.size

variable {reset : ResetEnv}

theorem Anchored.resetHeader_true (h : cache.Anchored)
    (hreset : cache.resetHeader reset = (true, next)) :
    next.Anchored ∧ next.header.recordSize = 0 := by
  unfold OpenCache.resetHeader at hreset
  rcases h.ptr with hbuf | ⟨length, hcap, hle, hptr⟩
  · simp only [isMapped_of_headerBuf hbuf, Bool.false_eq_true, if_false] at hreset
    split at hreset
    · cases hreset
    split at hreset
    · cases hreset
    obtain ⟨_, rfl⟩ := Prod.mk.inj hreset
    refine ⟨⟨h.curSize, Or.inl hbuf⟩, ?_⟩
    simp only [OpenCache.header, setHeaderBuf, hbuf]
  · simp only [hptr.isMapped, if_true] at hreset
    obtain ⟨_, rfl⟩ := Prod.mk.inj hreset
    refine ⟨⟨?_, Or.inr ⟨length, hcap, ?_, hptr.storeAll _⟩⟩, ?_⟩
    · rw [(sameFrame_storeAll _ cache).file]
      exact h.curSize
    · rw [size_storeAll]
      exact hle
    · rw [(hptr.storeAll _).header_eq, hptr.memory_storeAll]
      simp only [List.foldl_cons, List.foldl_nil, CacheHeader.decode_write_recordSize]

theorem Anchored.shrink_true (h : cache.Anchored) (hzero : cache.header.recordSize = 0)
    (hshrink : cache.shrink reset = (true, next)) :
    next.Anchored ∧ next.header.recordSize = 0 ∧ next.MapsAll := by
  have hpos : 0 < cacheCapability := by decide
  have hcapSize := @size_resize cache _ hpos
  unfold OpenCache.shrink at hshrink
  split at hshrink
  · rcases h.ptr with hbuf | ⟨length, hcap, hle, hptr⟩
    · simp only [isMapped_of_headerBuf hbuf, Bool.false_eq_true, if_false] at hshrink
      split at hshrink
      · cases hshrink
      obtain ⟨_, rfl⟩ := Prod.mk.inj hshrink
      refine ⟨⟨Nat.pos_iff_ne_zero.mp hpos, Or.inl hbuf⟩, ?_, ?_⟩
      · rw [(sameRecords_resize hbuf hpos).header]
        exact hzero
      · intro length hmapped
        exact absurd hmapped (not_mappedTo_of_headerBuf hbuf)
    · simp only [hptr.isMapped, if_true] at hshrink
      split at hshrink
      · cases hshrink
      split at hshrink
      · cases hshrink
      split at hshrink
      · rename_i beyond _
        obtain ⟨_, rfl⟩ := Prod.mk.inj hshrink
        have hmapped : ((cache.resize cacheCapability).setPtr
            (.mapping cacheCapability beyond)).MappedTo cacheCapability :=
          ⟨⟨beyond, rfl⟩, Nat.le_refl _⟩
        refine ⟨⟨Nat.pos_iff_ne_zero.mp hpos, Or.inr ⟨_, Nat.le_refl _, ?_, hmapped⟩⟩, ?_, ?_⟩
        · exact Nat.le_of_eq hcapSize.symm
        · rw [hmapped.header_eq, ← hzero, hptr.header_eq]
          refine congrArg CacheHeader.recordSize (CacheHeader.decode_congr fun i hi => ?_)
          have hi' : i < cacheCapability := Nat.lt_of_lt_of_le hi (by decide)
          rw [hmapped.memory_of_lt hi', hptr.memory_of_lt (by omega)]
          exact FileData.resize_byte hi'
        · intro length' hlength'
          exact (hlength'.unique hmapped).trans hcapSize.symm
      · cases hshrink
  · rename_i hsmall
    obtain ⟨_, rfl⟩ := Prod.mk.inj hshrink
    refine ⟨h, hzero, ?_⟩
    intro length hmapped
    rcases h.ptr with hbuf | ⟨length', hcap, hle, hptr⟩
    · exact absurd hmapped (not_mappedTo_of_headerBuf hbuf)
    · have heq := hmapped.unique hptr
      omega

theorem Anchored.saveConfig_true (h : cache.Anchored) (hmapped : cache.MapsAll)
    (hzero : cache.header.recordSize = 0) (hsave : cache.saveConfig ext reset = (true, next)) :
    next.Covered := by
  unfold OpenCache.saveConfig at hsave
  split at hsave
  · cases hsave
  · rename_i config hconfig
    dsimp only at hsave
    split at hsave
    · cases hsave
    split at hsave
    · cases hsave
    rename_i hroom
    split at hsave
    · cases hsave
    rcases h.ptr with hbuf | ⟨length, hcap, hle, hptr⟩
    · simp only [isMapped_of_headerBuf hbuf, Bool.false_eq_true, if_false] at hsave
      repeat' split at hsave
      all_goals obtain ⟨_, rfl⟩ := Prod.mk.inj hsave
      all_goals exact ⟨h.curSize, Or.inl hbuf⟩
    · simp only [hptr.isMapped, if_true] at hsave
      obtain ⟨_, rfl⟩ := Prod.mk.inj hsave
      refine hptr.covered_storeAll hcap hle h.curSize ?_
      have hlength := hmapped length hptr
      have hsmall := cacheHeaderSize_le_of_cap hcap
      have hmod := Nat.mod_le (ext.config.serialize config.strings).length (2 ^ 32)
      rw [OpenCache.areaEnd, (hptr.storeAll _).header_eq, hptr.memory_storeAll]
      simp only [List.foldl_cons, List.foldl_nil, CacheHeader.decode_write_configHash,
        CacheHeader.decode_write_configSize]
      rw [CacheHeader.decode_write_of_le (Nat.le_refl _), ← hptr.header_eq, hzero,
        UInt32.toNat_ofNat']
      simp only [UInt32.toNat_zero]
      omega

theorem Anchored.reset_true (h : cache.Anchored)
    (hreset : cache.reset ext reset = (true, next)) : next.Covered := by
  unfold OpenCache.reset at hreset
  cases hcleared : cache.resetHeader reset with
  | mk ok cleared =>
      cases ok with
      | false => simp [hcleared] at hreset
      | true =>
          obtain ⟨hanchored, hzero⟩ := h.resetHeader_true hcleared
          simp only [hcleared] at hreset
          cases hshrunk : cleared.shrink reset with
          | mk ok shrunk =>
              cases ok with
              | false => simp [hshrunk] at hreset
              | true =>
                  obtain ⟨hanchored', hzero', hall⟩ := hanchored.shrink_true hzero hshrunk
                  simp only [hshrunk] at hreset
                  exact hanchored'.saveConfig_true hall hzero' hreset

theorem attach_anchored {opened : OpenCache} (env : InitEnv)
    (hptr : opened.object.cacheHeader = .headerBuf)
    (hcur : opened.object.file.curSize = opened.disk.size)
    (hcap : cacheCapability ≤ opened.disk.size) :
    (opened.attach env).Anchored ∧ (opened.attach env).MapsAll := by
  have hpos : 0 < cacheCapability := by decide
  have hne : opened.object.file.curSize ≠ 0 := by omega
  have hsize : opened.size = opened.disk.size := by rw [OpenCache.size, File.size, if_pos hne, hcur]
  cases hmap : env.map with
  | none =>
      simp only [attach, hmap]
      exact ⟨⟨hne, Or.inl hptr⟩, fun _ hmapped => absurd hmapped (not_mappedTo_of_headerBuf hptr)⟩
  | some beyond =>
      simp only [attach, hmap]
      have hmapped : (opened.setPtr (.mapping opened.size beyond)).MappedTo opened.size :=
        ⟨⟨beyond, rfl⟩, Nat.le_of_eq hsize⟩
      have hlarge : cacheCapability ≤ opened.size := by omega
      exact ⟨⟨hne, Or.inr ⟨_, hlarge, Nat.le_refl _, hmapped⟩⟩, fun _ h => h.unique hmapped⟩

theorem Anchored.covered_of_checkValid (h : cache.Anchored) (hall : cache.MapsAll)
    (hvalid : cache.checkValid = true) : cache.Covered := by
  refine ⟨h.curSize, h.ptr.imp_right ?_⟩
  rintro ⟨length, hcap, hle, hmapped⟩
  simp only [checkValid, decide_eq_true_eq] at hvalid
  exact ⟨length, hcap, hle, hmapped, hall length hmapped ▸ hvalid.2.2.2⟩

theorem Covered.loadConfig_true (h : cache.Covered)
    (hload : cache.loadConfig ext = (true, next)) : next.Covered := by
  simp only [OpenCache.loadConfig] at hload
  repeat' split at hload
  all_goals cases hload
  refine ⟨h.curSize, h.ptr.imp_right ?_⟩
  rintro ⟨length, hcap, hle, hmapped, hend⟩
  exact ⟨length, hcap, hle, ⟨hmapped.ptr, hmapped.le_size⟩, hend⟩

theorem covered_openAt {hash : UInt64} {path : Str} {config : Option TrackerConfig}
    {disk : Option FileData} {env : InitEnv}
    (hopen : openAt ext hash path config disk env = (true, next)) : next.Covered := by
  let object := DiskCache.construct hash path config
  let file := disk.getD FileData.empty
  let opened : OpenCache := ⟨{ object with file := ⟨file.size⟩ }, file⟩
  simp only [openAt, OpenCache.init] at hopen
  split at hopen
  · split at hopen
    · split at hopen
      · have hattach := @attach_anchored (opened.resize cacheCapability) env rfl rfl (Nat.le_refl _)
        exact hattach.1.reset_true hopen
      · cases hopen
    · rename_i hbig
      have hattach := @attach_anchored opened env rfl rfl (Nat.not_lt.mp hbig)
      split at hopen
      · exact hattach.1.reset_true hopen
      · rename_i hvalid
        have hcovered := hattach.1.covered_of_checkValid hattach.2 (by simpa using hvalid)
        split at hopen
        · exact hcovered.loadConfig_true hopen
        · obtain ⟨_, rfl⟩ := Prod.mk.inj hopen
          exact hcovered
  · cases hopen

theorem covered_of_reaches
    (hreach : (cacheSystem ext fun _ => True).Reaches (Defined ext) cache) : cache.Covered := by
  refine hreach.invariant Covered ?_ ?_
  · rintro state ⟨hash, path, config, disk, env, _, hopen⟩
    exact covered_openAt hopen
  · intro state op next hcovered hop hstep
    cases op with
    | push env message =>
        simp only [cacheSystem, perform, Option.some.injEq] at hstep
        rw [← hstep]
        exact hcovered.push hop
    | clear env =>
        simp only [cacheSystem, perform] at hstep
        split at hstep
        · contradiction
        · cases hstep
          rename_i hreset
          exact hcovered.anchored.reset_true hreset
        · cases hstep
    | reopen config env =>
        simp only [cacheSystem, perform] at hstep
        split at hstep
        · contradiction
        · cases hstep
          rename_i hopen
          exact covered_openAt hopen
        · cases hstep

/-! ### The answer of a push -/

/-- The operation that ends a push fails: the commit, or the last write or the flush. -/
def LastFails (cache : OpenCache) (env : PushEnv) : Prop :=
  if cache.isMapped then env.commit = false
  else env.writeCacheHeader ≠ .full ∨ env.flush = false

theorem isMapped_grow (cache : OpenCache) (env : PushEnv) (nextSize : Nat) :
    (cache.grow env nextSize).2.isMapped = cache.isMapped := by
  have hresize : (cache.resize (cache.size + cacheCapability)).isMapped = cache.isMapped := rfl
  simp only [OpenCache.grow, hresize]
  split
  · split
    · by_cases hmapped : cache.isMapped = true
      · simp only [hmapped, if_true]
        split
        · split
          · rfl
          · exact hmapped
        · exact hmapped
      · rw [Bool.not_eq_true] at hmapped
        simp only [hmapped, Bool.false_eq_true, if_false]
        exact hresize.trans hmapped
    · rfl
  · rfl

theorem appendMapped_true_iff :
    (cache.appendMapped ext env message).1 = true ↔ env.serialize = .full ∧ env.commit = true := by
  unfold appendMapped
  cases env.serialize with
  | full => simp
  | short count => simp

theorem appendUnmapped_true_iff :
    (cache.appendUnmapped ext env message).1 = true
      ↔ env.serialize = .full ∧ env.writeRecordHeader = .full ∧ env.writeContent = .full
        ∧ env.writeCacheHeader = .full ∧ env.flush = true := by
  unfold appendUnmapped
  cases env.serialize <;> cases env.writeRecordHeader <;> cases env.writeContent <;>
    cases env.writeCacheHeader <;> simp [FileData.write]

theorem push_true_iff : (cache.push ext env message).1 = true
    ↔ cache.ReachesCounters ext env message ∧ ¬ cache.LastFails env := by
  by_cases hmax : cache.nextSize ext message ≤ maxCacheSize
  · have hiff := @grow_true_iff cache env (cache.nextSize ext message)
    have hmapped := cache.isMapped_grow env (cache.nextSize ext message)
    cases hgrow : cache.grow env (cache.nextSize ext message) with
    | mk ok grown =>
        simp only [hgrow] at hiff hmapped
        rw [push_of_grow hmax hgrow, LastFails, hmapped]
        by_cases hok : ok = true
        · have hgrows := hiff.mp hok
          by_cases hisMapped : cache.isMapped = true
          · simp only [hok, hisMapped, if_true, appendMapped_true_iff, Bool.not_eq_false]
            constructor
            · rintro ⟨hserialize, hcommit⟩
              exact ⟨⟨hmax, hgrows, hserialize, by simp [hisMapped]⟩, hcommit⟩
            · rintro ⟨hcounters, hcommit⟩
              exact ⟨hcounters.serialize, hcommit⟩
          · simp only [hok, hisMapped, if_true, if_false, Bool.false_eq_true,
              appendUnmapped_true_iff, not_or, not_not, Bool.not_eq_false]
            constructor
            · rintro ⟨hserialize, hheader, hcontent, hlast⟩
              exact ⟨⟨hmax, hgrows, hserialize, fun _ => ⟨hheader, hcontent⟩⟩, hlast⟩
            · rintro ⟨hcounters, hlast⟩
              obtain ⟨hheader, hcontent⟩ := hcounters.writes (by simpa using hisMapped)
              exact ⟨hcounters.serialize, hheader, hcontent, hlast⟩
        · simp only [hok, Bool.false_eq_true, if_false, false_iff, not_and]
          intro hcounters
          exact absurd (hiff.mpr hcounters.grows) hok
  · rw [push_of_gt (Nat.not_le.mp hmax)]
    simp only [Bool.false_eq_true, false_iff, not_and]
    intro hcounters
    exact absurd hcounters.bounded hmax

/-- **A push that returns `false` stores nothing exactly when** it is not its last operation that
fails, after the counters have been updated, and when an early failure has not let the file grow
over records it did not cover. -/
theorem push_false_stores_nothing_iff
    (hreach : (cacheSystem ext fun _ => True).Reaches (Defined ext) cache) (env : PushEnv)
    (message : TrackMessageImpl) :
    ((cache.push ext env message).1 = false →
        (cache.push ext env message).2.getCount = cache.getCount
          ∧ ∀ clock, (cache.push ext env message).2.load ext clock = cache.load ext clock)
      ↔ ¬ (cache.ReachesCounters ext env message ∧ cache.LastFails env)
        ∧ ¬ (¬ cache.ReachesCounters ext env message ∧ cache.Uncovers ext env message) := by
  have hsame := @Covered.push_unchanged_iff ext cache env message (covered_of_reaches hreach)
  have htrue := @push_true_iff ext cache env message
  rw [hsame, ← Bool.not_eq_true, htrue]
  constructor
  · intro h
    refine ⟨fun late => ?_, fun early => ?_⟩
    · exact (h fun ok => ok.2 late.2).1 late.1
    · exact (h fun ok => early.1 ok.1).2 early.2
  · rintro ⟨hlate, hearly⟩ hfalse
    have hcounters : ¬ cache.ReachesCounters ext env message :=
      fun hreached => hlate ⟨hreached, by_contra fun hlast => hfalse ⟨hreached, hlast⟩⟩
    exact ⟨hcounters, fun huncovers => hearly ⟨hcounters, huncovers⟩⟩

def commitFails : PushEnv := { PushEnv.ideal with commit := false }

theorem exists_new_defined :
    ∃ cache, (cacheSystem wireFormat fun _ => True).Reaches (Defined wireFormat) cache
      ∧ cache.WholeMapped ∧ cache.size = 65536 ∧ cache.areaEnd = 31 ∧ cache.getCount = 0 := by
  obtain ⟨cache, hopen, hholds, _, hsize⟩ :=
    @openAt_absent wireFormat _ plainConfig rfl History.plainConfig_fits _ InitEnv.ideal_succeeds []
  refine ⟨cache, .init ⟨_, _, _, _, _, trivial, hopen⟩, hholds.whole, ?_, ?_, ?_⟩
  · rw [hholds.whole.size_eq, hsize]
    rfl
  · rw [hholds.areaEnd]
    decide
  · exact UInt32.toNat_inj.mp hholds.getCount

theorem push_false_stores_nothing_iff_new :
    ∃ cache : OpenCache, (cache.push wireFormat { PushEnv.ideal with serialize := .short 0 }
        (plainMessage [118])).1 = false
      ∧ (cache.push wireFormat { PushEnv.ideal with serialize := .short 0 }
        (plainMessage [118])).2.getCount = cache.getCount := by
  obtain ⟨cache, hreach, hwhole, _⟩ := exists_new_defined
  let env : PushEnv := { PushEnv.ideal with serialize := .short 0 }
  have hearly : ¬ cache.ReachesCounters wireFormat env (plainMessage [118]) := by
    intro hcounters
    cases hcounters.serialize
  have huncovers : ¬ cache.Uncovers wireFormat env (plainMessage [118]) := by
    intro huncovers
    have hunmapped := huncovers.unmapped
    rw [hwhole.mapped.isMapped] at hunmapped
    cases hunmapped
  have hfalse : (cache.push wireFormat env (plainMessage [118])).1 = false := by
    rw [← Bool.not_eq_true, push_true_iff]
    exact fun both => hearly both.1
  have hnothing := (push_false_stores_nothing_iff hreach env (plainMessage [118])).mpr
    ⟨fun both => hearly both.1, fun both => huncovers both.2⟩
  exact ⟨cache, hfalse, (hnothing hfalse).1⟩

/-- **A push that fails in its commit has stored the record.** -/
theorem push_false_stored :
    ∃ cache, (cacheSystem wireFormat fun _ => True).Reaches (Defined wireFormat) cache
      ∧ (cache.push wireFormat commitFails (plainMessage [118])).1 = false
      ∧ (cache.push wireFormat commitFails (plainMessage [118])).2.getCount ≠ cache.getCount := by
  obtain ⟨cache, hreach, hwhole, hsize, hend, hcount⟩ := exists_new_defined
  have hmessage : (plainMessage [118]).getSerializeSize wireFormat = 8 := by decide
  have hheader : recordHeaderSize = 20 := rfl
  have hmax : maxCacheSize = 1048576 := rfl
  have hnext := @nextSize_eq wireFormat cache (plainMessage [118])
  have hmapped := hwhole.mapped.isMapped
  have hcounters : cache.ReachesCounters wireFormat commitFails (plainMessage [118]) :=
    ⟨by omega, Or.inl (by omega), rfl, by simp [hmapped]⟩
  have hlast : cache.LastFails commitFails := by
    rw [LastFails, if_pos hmapped]
    rfl
  refine ⟨cache, hreach, ?_, ?_⟩
  · rw [← Bool.not_eq_true, push_true_iff]
    exact fun both => both.2 hlast
  · rw [OpenCache.getCount, (covered_of_reaches hreach).header_push hcounters, hcount]
    change cache.getCount + 1 ≠ 0
    rw [hcount]
    decide

end OpenCache

end TapSdk.Tracker
