import TapSdk.Library.Run
import TapSdk.Tracker.Proof.Layout
import TapSdk.Tracker.WireFormat

/-!
# The mapping and the size of the file

A mapped cache lives by `file->Size()`: it bounds what `Push` and `Load` touch and is the length
that is unmapped. `Resize` changes the size before a new mapping is there to match it. The cache
stays within its mapping exactly as long as no growth and no shrinking is left half done.
-/

namespace TapSdk.Tracker

open Library

variable {ext : Externals}

/-- What is done with a mapped cache. `Init` goes on with `Reset` or `LoadConfig`. -/
inductive MappedOp where
  | push (env : PushEnv) (message : TrackMessageImpl)
  | reset (env : ResetEnv)
  | loadConfig

namespace OpenCache

/-- The state an operation leaves, whether it returns or throws. -/
def afterOp (ext : Externals) (cache : OpenCache) : MappedOp → OpenCache
  | .push env message => (cache.push ext env message).2
  | .reset env => (cache.reset ext env).2
  | .loadConfig => (cache.loadConfig ext).2

/-- A cache from the moment its file is mapped. Nothing more can be said of it once `cache_header`
points at no mapping. -/
def mappedSystem (ext : Externals) : System OpenCache MappedOp where
  init cache := ∃ hash path config disk env, cacheCapability ≤ disk.size
    ∧ env.map.isSome = true ∧ cache = attachedTo hash path config disk env
  step cache op :=
    match cache.object.cacheHeader with
    | .mapping .. => some (cache.afterOp ext op)
    | _ => none

/-- `cache_header` points to a live mapping that is at least as long as the file is said to be; what
`Load` and `Push` find to lie inside the file lies inside the mapping. -/
def InStep (ext : Externals) (cache : OpenCache) : Prop :=
  ∃ length beyond, cache.object.cacheHeader = .mapping length beyond
    ∧ cache.size ≤ length
    ∧ (cache.areaEnd ≤ cache.size → cache.areaEnd ≤ length)
    ∧ ∀ message, cache.nextSize ext message ≤ cache.size →
        ∀ entry ∈ cache.pushStores ext message, entry.1 + entry.2.length ≤ length

/-- The mapping is exactly as long as the file is said to be. -/
def ExactlyMapped (cache : OpenCache) : Prop :=
  ∃ beyond, cache.object.cacheHeader = .mapping cache.size beyond

/-- No growth of `Push` and no shrinking of `Reset` is left half done: when the file has been
resized the new mapping is made and the old one removed, and what has been unmapped is mapped
again. -/
def Completes (ext : Externals) (cache : OpenCache) : MappedOp → Prop
  | .push env message => cache.nextSize ext message ≤ maxCacheSize →
      cache.nextSize ext message > cache.size → env.resize = true →
      env.map.isSome = true ∧ env.unmap = true
  | .reset env => env.commit = true → cache.size > cacheCapability → env.unmap = true →
      env.resize = true ∧ env.map.isSome = true
  | .loadConfig => True

variable {cache : OpenCache}

/-! ### The pointer and the size -/

theorem InStep.covers (h : cache.InStep ext) :
    ∃ length beyond, cache.object.cacheHeader = .mapping length beyond ∧ cache.size ≤ length := by
  obtain ⟨length, beyond, hptr, hle, _⟩ := h
  exact ⟨length, beyond, hptr, hle⟩

theorem ExactlyMapped.inStep (h : cache.ExactlyMapped) : cache.InStep ext := by
  obtain ⟨beyond, hptr⟩ := h
  refine ⟨cache.size, beyond, hptr, Nat.le_refl _, id, ?_⟩
  intro message hfits entry hentry
  exact Nat.le_trans (end_le_of_mem_pushStores hentry) hfits

theorem ExactlyMapped.isMapped (h : cache.ExactlyMapped) : cache.isMapped = true := by
  obtain ⟨beyond, hptr⟩ := h
  simp only [OpenCache.isMapped, hptr]

theorem size_of_sameFrame {cache' : OpenCache} (h : SameFrame cache cache') :
    cache'.size = cache.size := by
  rw [OpenCache.size, OpenCache.size, File.size, File.size, h.file, h.size]

theorem ExactlyMapped.store (h : cache.ExactlyMapped) (offset : Nat) (bytes : List UInt8) :
    (cache.store offset bytes).ExactlyMapped := by
  obtain ⟨beyond, hptr⟩ := h
  have hsize := size_of_sameFrame (sameFrame_store cache offset bytes)
  unfold ExactlyMapped
  rw [hsize]
  exact ⟨fun i => if i < cache.size then beyond i else beyond.write offset bytes i, by
    simp only [OpenCache.store, hptr]⟩

theorem ExactlyMapped.storeAll (h : cache.ExactlyMapped) (stores : List (Nat × List UInt8)) :
    (cache.storeAll stores).ExactlyMapped := by
  induction stores generalizing cache with
  | nil => exact h
  | cons entry stores ih => exact ih (h.store entry.1 entry.2)

theorem exactlyMapped_remap {newSize : Nat} (hpos : 0 < newSize) (beyond : Memory) :
    ((cache.resize newSize).setPtr (.mapping newSize beyond)).ExactlyMapped := by
  have hsize : ((cache.resize newSize).setPtr (.mapping newSize beyond)).size = newSize :=
    size_resize hpos
  refine ⟨beyond, ?_⟩
  rw [hsize]
  rfl

/-! ### Growing -/

theorem ExactlyMapped.grow (h : cache.ExactlyMapped) {env : PushEnv} {nextSize : Nat}
    (hcompletes : nextSize > cache.size → env.resize = true →
      env.map.isSome = true ∧ env.unmap = true) :
    (cache.grow env nextSize).2.ExactlyMapped := by
  have hmapped : (cache.resize (cache.size + cacheCapability)).isMapped = true := h.isMapped
  have hpos : 0 < cache.size + cacheCapability := Nat.add_pos_right _ (by decide)
  by_cases hgrow : nextSize > cache.size
  · cases hresize : env.resize with
    | false =>
        simp only [OpenCache.grow, hgrow, hresize, if_true, Bool.false_eq_true, if_false]
        exact h
    | true =>
        obtain ⟨hmap, hunmap⟩ := hcompletes hgrow hresize
        obtain ⟨beyond, hbeyond⟩ := Option.isSome_iff_exists.mp hmap
        simp only [OpenCache.grow, hgrow, hresize, hmapped, hbeyond, hunmap, if_true]
        exact exactlyMapped_remap hpos beyond
  · simp only [OpenCache.grow, hgrow, if_false]
    exact h

/-- The old mapping is too short for the resized file. -/
theorem ExactlyMapped.grow_incomplete (h : cache.ExactlyMapped) {env : PushEnv} {nextSize : Nat}
    (hgrow : nextSize > cache.size) (hresize : env.resize = true)
    (hincomplete : ¬ (env.map.isSome = true ∧ env.unmap = true)) :
    cache.grow env nextSize = (false, cache.resize (cache.size + cacheCapability))
      ∧ ¬ (cache.resize (cache.size + cacheCapability)).InStep ext := by
  have hmapped : (cache.resize (cache.size + cacheCapability)).isMapped = true := h.isMapped
  have hpos : 0 < cacheCapability := by decide
  refine ⟨?_, fun hstep => ?_⟩
  · cases hmap : env.map with
    | none => simp only [OpenCache.grow, hgrow, hresize, hmapped, hmap, if_true]
    | some beyond =>
        have hunmap : env.unmap = false := by
          rw [← Bool.not_eq_true]
          exact fun htrue => hincomplete ⟨by rw [hmap]; rfl, htrue⟩
        simp only [OpenCache.grow, hgrow, hresize, hmapped, hmap, hunmap, if_true,
          Bool.false_eq_true, if_false]
  · obtain ⟨beyond, hptr⟩ := h
    obtain ⟨length, beyond', hptr', hle⟩ := hstep.covers
    have hsame : HeaderPtr.mapping cache.size beyond = .mapping length beyond' :=
      hptr.symm.trans hptr'
    cases hsame
    rw [size_resize (by omega)] at hle
    omega

theorem ExactlyMapped.push (h : cache.ExactlyMapped) {env : PushEnv} {message : TrackMessageImpl}
    (hcompletes : cache.Completes ext (.push env message)) :
    (cache.push ext env message).2.ExactlyMapped := by
  by_cases hmax : cache.nextSize ext message > maxCacheSize
  · rw [push_of_gt hmax]
    exact h
  · have hgrown := h.grow (hcompletes (Nat.not_lt.mp hmax))
    rw [OpenCache.push, if_neg hmax]
    rcases hgrow : cache.grow env (cache.nextSize ext message) with ⟨ok, grown⟩
    rw [hgrow] at hgrown
    cases ok with
    | false => exact hgrown
    | true =>
        simp only [ExactlyMapped.isMapped hgrown, if_true]
        unfold OpenCache.appendMapped
        split
        · exact ExactlyMapped.store hgrown _ _
        · exact ExactlyMapped.storeAll hgrown _

theorem ExactlyMapped.completes_of_push (h : cache.ExactlyMapped) {env : PushEnv}
    {message : TrackMessageImpl} (hstep : (cache.push ext env message).2.InStep ext) :
    cache.Completes ext (.push env message) := by
  intro hmax hgrow hresize
  by_contra hincomplete
  obtain ⟨hfails, hout⟩ :=
    @ExactlyMapped.grow_incomplete ext cache h env _ hgrow hresize hincomplete
  rw [OpenCache.push, if_neg (Nat.not_lt.mpr hmax), hfails] at hstep
  exact hout hstep

/-! ### Shrinking -/

theorem ExactlyMapped.resetHeader (h : cache.ExactlyMapped) (env : ResetEnv) :
    ∃ cleared, cache.resetHeader env = (env.commit, cleared) ∧ cleared.ExactlyMapped
      ∧ cleared.size = cache.size := by
  refine ⟨_, ?_, h.storeAll [(0, cacheMagic), (4, le32 cacheVersionCode), (20, le32 0),
    (24, le32 0)], size_of_sameFrame (sameFrame_storeAll _ cache)⟩
  simp only [OpenCache.resetHeader, h.isMapped, if_true]

theorem ExactlyMapped.shrink (h : cache.ExactlyMapped) {env : ResetEnv}
    (hcompletes : cache.size > cacheCapability → env.unmap = true →
      env.resize = true ∧ env.map.isSome = true) :
    (cache.shrink env).2.ExactlyMapped := by
  by_cases hlarge : cache.size > cacheCapability
  · cases hunmap : env.unmap with
    | false =>
        simp only [OpenCache.shrink, hlarge, h.isMapped, hunmap, if_true, Bool.not_false]
        exact h
    | true =>
        obtain ⟨hresize, hmap⟩ := hcompletes hlarge hunmap
        obtain ⟨beyond, hbeyond⟩ := Option.isSome_iff_exists.mp hmap
        simp only [OpenCache.shrink, hlarge, h.isMapped, hunmap, hresize, hbeyond, if_true,
          Bool.not_true, Bool.false_eq_true, if_false]
        exact exactlyMapped_remap (by decide) beyond
  · simp only [OpenCache.shrink, hlarge, if_false]
    exact h

/-- What has been unmapped is not mapped again: the pointer is left dangling, or is null. -/
theorem ExactlyMapped.shrink_incomplete (h : cache.ExactlyMapped) {env : ResetEnv}
    (hlarge : cache.size > cacheCapability) (hunmap : env.unmap = true)
    (hincomplete : ¬ (env.resize = true ∧ env.map.isSome = true)) :
    (cache.shrink env).1 = false ∧ ¬ (cache.shrink env).2.InStep ext := by
  cases hresize : env.resize with
  | false =>
      simp only [OpenCache.shrink, hlarge, h.isMapped, hunmap, hresize, if_true, Bool.not_true,
        Bool.not_false, Bool.false_eq_true, if_false, true_and]
      rintro ⟨length, beyond, hptr, _⟩
      cases hptr
  | true =>
      have hmap : env.map = none := by
        cases hmap : env.map with
        | none => rfl
        | some beyond => exact absurd ⟨hresize, by rw [hmap]; rfl⟩ hincomplete
      simp only [OpenCache.shrink, hlarge, h.isMapped, hunmap, hresize, hmap, if_true,
        Bool.not_true, Bool.false_eq_true, if_false, true_and]
      rintro ⟨length, beyond, hptr, _⟩
      cases hptr

theorem ExactlyMapped.saveConfig (h : cache.ExactlyMapped) (env : ResetEnv) :
    (cache.saveConfig ext env).2.ExactlyMapped := by
  unfold OpenCache.saveConfig
  split
  · exact h
  · simp only [h.isMapped, if_true]
    split
    · exact h
    split
    · exact h
    split
    · exact h
    · exact h.storeAll _

theorem ExactlyMapped.reset (h : cache.ExactlyMapped) {env : ResetEnv}
    (hcompletes : cache.Completes ext (.reset env)) : (cache.reset ext env).2.ExactlyMapped := by
  obtain ⟨cleared, hcleared, hmapped, hsize⟩ := h.resetHeader env
  rw [OpenCache.reset, hcleared]
  cases hcommit : env.commit with
  | false => exact hmapped
  | true =>
      have hshrunk := hmapped.shrink (fun hlarge => hcompletes hcommit (by omega))
      rcases hshrink : cleared.shrink env with ⟨ok, shrunk⟩
      rw [hshrink] at hshrunk
      cases ok with
      | false =>
          simp only [hshrink]
          exact hshrunk
      | true =>
          simp only [hshrink]
          exact ExactlyMapped.saveConfig hshrunk env

theorem ExactlyMapped.completes_of_reset (h : cache.ExactlyMapped) {env : ResetEnv}
    (hstep : (cache.reset ext env).2.InStep ext) : cache.Completes ext (.reset env) := by
  intro hcommit hlarge hunmap
  by_contra hincomplete
  obtain ⟨cleared, hcleared, hmapped, hsize⟩ := h.resetHeader env
  obtain ⟨hfails, hout⟩ :=
    @ExactlyMapped.shrink_incomplete ext cleared hmapped env (by omega) hunmap
    hincomplete
  rw [OpenCache.reset, hcleared, hcommit] at hstep
  rcases hshrink : cleared.shrink env with ⟨ok, shrunk⟩
  rw [hshrink] at hfails hout
  subst hfails
  simp only [hshrink] at hstep
  exact hout hstep

theorem ExactlyMapped.loadConfig (h : cache.ExactlyMapped) :
    (cache.loadConfig ext).2.ExactlyMapped := by
  simp only [OpenCache.loadConfig]
  split
  · exact h
  split
  · exact h
  split
  · exact h
  · exact h

/-! ### Whole lives -/

theorem exactlyMapped_attachedTo {hash : UInt64} {path : Str} {config : Option TrackerConfig}
    {disk : FileData} {env : InitEnv} (hmap : env.map.isSome = true) :
    (attachedTo hash path config disk env).ExactlyMapped := by
  obtain ⟨beyond, hbeyond⟩ := Option.isSome_iff_exists.mp hmap
  refine ⟨beyond, ?_⟩
  simp only [attachedTo, OpenCache.attach, hbeyond]
  rfl

theorem mappedSystem_step {op : MappedOp} {next : OpenCache}
    (hstep : (mappedSystem ext).step cache op = some next) : next = cache.afterOp ext op := by
  simp only [mappedSystem] at hstep
  split at hstep
  · exact (Option.some.inj hstep).symm
  · cases hstep

theorem ExactlyMapped.step (h : cache.ExactlyMapped) (op : MappedOp) :
    (mappedSystem ext).step cache op = some (cache.afterOp ext op) := by
  obtain ⟨beyond, hptr⟩ := h
  simp only [mappedSystem, hptr]

/-- Every cache whose file could be mapped when it was opened begins such a life. -/
theorem reachable_openAt {hash : UInt64} {path : Str} {config : Option TrackerConfig}
    {disk : Option FileData} {env : InitEnv} (hmap : env.map.isSome = true)
    (hopen : openAt ext hash path config disk env = (true, cache)) :
    (mappedSystem ext).Reachable cache := by
  have hstart : ∀ file : FileData, cacheCapability ≤ file.size →
      (mappedSystem ext).Reachable (attachedTo hash path config file env) :=
    fun file hcap => .init ⟨hash, path, config, file, env, hcap, hmap, rfl⟩
  have hnext : ∀ (file : FileData) (op : MappedOp), cacheCapability ≤ file.size →
      (mappedSystem ext).Reachable ((attachedTo hash path config file env).afterOp ext op) :=
    fun file op hcap => .step (hstart file hcap) trivial ((exactlyMapped_attachedTo hmap).step op)
  unfold openAt at hopen
  split at hopen
  · generalize disk.getD FileData.empty = file at hopen
    simp only [OpenCache.init] at hopen
    split at hopen
    · split at hopen
      · have hstate : (attachedTo hash path config (file.resize cacheCapability) env).afterOp ext
            (.reset env.reset) = cache := congrArg Prod.snd hopen
        rw [← hstate]
        exact hnext _ _ (Nat.le_refl _)
      · cases hopen
    · rename_i hsize
      have hcap := Nat.not_lt.mp hsize
      split at hopen
      · have hstate : (attachedTo hash path config file env).afterOp ext
            (.reset env.reset) = cache :=
          congrArg Prod.snd hopen
        rw [← hstate]
        exact hnext _ _ hcap
      · split at hopen
        · have hstate : (attachedTo hash path config file env).afterOp ext .loadConfig = cache :=
            congrArg Prod.snd hopen
          rw [← hstate]
          exact hnext _ _ hcap
        · have hstate : attachedTo hash path config file env = cache := congrArg Prod.snd hopen
          rw [← hstate]
          exact hstart _ hcap
  · cases hopen

theorem ExactlyMapped.afterOp (h : cache.ExactlyMapped) {op : MappedOp}
    (hcompletes : cache.Completes ext op) : (cache.afterOp ext op).ExactlyMapped := by
  cases op with
  | push env message => exact h.push hcompletes
  | reset env => exact h.reset hcompletes
  | loadConfig => exact h.loadConfig

theorem ExactlyMapped.completes_of_inStep (h : cache.ExactlyMapped) {op : MappedOp}
    (hstep : (cache.afterOp ext op).InStep ext) : cache.Completes ext op := by
  cases op with
  | push env message => exact h.completes_of_push hstep
  | reset env => exact h.completes_of_reset hstep
  | loadConfig => trivial

/-- **Mapping and size stay in step exactly as long as every growth and every shrinking completes.**
Over any life of a mapped cache, `cache_header` points to a live mapping that covers the size of the
file after every operation, whether it returned or threw, if and only if no operation resizes the
file without mapping it anew and removing the old mapping, or unmaps it for good. -/
theorem inStep_along_iff (ext : Externals) (cache : OpenCache)
    (hinit : (mappedSystem ext).init cache) (ops : List MappedOp) :
    (mappedSystem ext).Along (InStep ext) cache ops
      ↔ (mappedSystem ext).AlongSteps (Completes ext) cache ops := by
  obtain ⟨hash, path, config, disk, env, _, hmap, rfl⟩ := hinit
  refine @System.along_iff_alongSteps _ _ _ ExactlyMapped (InStep ext) (Completes ext)
    (fun _ h => h.inStep) ?_ ?_ _ (exactlyMapped_attachedTo hmap) ops
  · intro state op next h hstep hcompletes
    rw [mappedSystem_step hstep]
    exact ExactlyMapped.afterOp h hcompletes
  · intro state op next h hstep hnext
    rw [mappedSystem_step hstep] at hnext
    exact ExactlyMapped.completes_of_inStep h hnext

/-- A file of 64 KiB whose record area reaches to its end, just mapped. -/
def fullCache : OpenCache :=
  attachedTo plainConfig.hash [] (some plainConfig)
    ((FileData.empty.resize cacheCapability).pwrite 0
      (CacheHeader.bytes ⟨cacheMagic, cacheVersionCode, plainConfig.hash, 0, 1, 65508⟩))
    InitEnv.ideal

theorem fullCache_init : (mappedSystem wireFormat).init fullCache :=
  ⟨_, _, _, _, _, by decide, rfl, rfl⟩

theorem inStep_along_grown :
    (mappedSystem wireFormat).Along (InStep wireFormat) fullCache
      [.push PushEnv.ideal (plainMessage [118]), .reset ResetEnv.ideal] := by
  refine (inStep_along_iff wireFormat fullCache fullCache_init _).mpr ?_
  intro _ _
  refine ⟨fun _ _ _ => ⟨rfl, rfl⟩, fun _ _ => ⟨fun _ _ _ => ⟨rfl, rfl⟩, trivial⟩⟩

/-- The file has been resized when mapping it fails: the mapping is 64 KiB shorter than the size. -/
theorem not_inStep_along_unmappable :
    (mappedSystem wireFormat).init fullCache
      ∧ ¬ (mappedSystem wireFormat).Along (InStep wireFormat) fullCache
        [.push { PushEnv.ideal with map := none } (plainMessage [118])] := by
  refine ⟨fullCache_init, fun halong => ?_⟩
  have hmapped : fullCache.ExactlyMapped := exactlyMapped_attachedTo rfl
  have hnext := (halong.2 _ rfl).head
  have hcompletes := hmapped.completes_of_push hnext
  have hmax : fullCache.nextSize wireFormat (plainMessage [118]) ≤ maxCacheSize := by decide +kernel
  have hgrow : fullCache.nextSize wireFormat (plainMessage [118]) > fullCache.size := by
    decide +kernel
  exact absurd (hcompletes hmax hgrow rfl).1 Bool.false_ne_true

end OpenCache

end TapSdk.Tracker
