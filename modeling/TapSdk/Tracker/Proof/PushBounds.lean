import TapSdk.Tracker.Proof.History

/-!
# Where a push writes

With every file operation succeeding the whole file stays mapped, whatever it held at first and
however large the messages are. Where a push writes is then a matter of arithmetic: the file grows
by one step of 64 KiB, so the record lies inside it exactly when one step was enough.
-/

namespace TapSdk.Tracker

open Library

variable {ext : Externals}

namespace OpenCache

variable {cache next : OpenCache}

/-! ### The whole file stays mapped -/

theorem WholeMapped.of_object {config : Option TrackerConfig} (h : cache.WholeMapped) :
    ({ cache with object := { cache.object with config := config } } : OpenCache).WholeMapped :=
  ⟨⟨h.mapped.ptr, h.mapped.le_size⟩, h.curSize, h.capability⟩

theorem WholeMapped.saveConfig_true (h : cache.WholeMapped) {env : ResetEnv}
    (hsave : cache.saveConfig ext env = (true, next)) : next.WholeMapped := by
  simp only [OpenCache.saveConfig, h.mapped.isMapped, if_true] at hsave
  split at hsave
  · cases hsave
  · repeat' split at hsave
    all_goals obtain ⟨hok, rfl⟩ := Prod.mk.inj hsave
    · cases hok
    · cases hok
    · cases hok
    · exact h.storeAll _

theorem WholeMapped.loadConfig_true (h : cache.WholeMapped)
    (hload : cache.loadConfig ext = (true, next)) : next.WholeMapped := by
  simp only [OpenCache.loadConfig] at hload
  repeat' split at hload
  all_goals cases hload
  exact h.of_object

theorem WholeMapped.reset_true (h : cache.WholeMapped) {env : ResetEnv} (henv : env.Succeeds)
    (hreset : cache.reset ext env = (true, next)) : next.WholeMapped := by
  obtain ⟨cleared, hcleared, hwhole, _, _⟩ := h.resetHeader henv
  obtain ⟨shrunk, hshrunk, hwhole', _⟩ := hwhole.shrink henv
  simp only [OpenCache.reset, hcleared, hshrunk] at hreset
  exact hwhole'.saveConfig_true hreset

theorem wholeMapped_openAt {hash : UInt64} {path : Str} {config : Option TrackerConfig}
    {disk : Option FileData} {env : InitEnv} (henv : env.Succeeds)
    (hopen : openAt ext hash path config disk env = (true, next)) : next.WholeMapped := by
  let object := DiskCache.construct hash path config
  let file := disk.getD FileData.empty
  let opened : OpenCache := ⟨{ object with file := ⟨file.size⟩ }, file⟩
  simp only [openAt, henv.openFile, if_true, OpenCache.init, henv.resize] at hopen
  split at hopen
  · have hattach := @attach_wholeMapped (opened.resize cacheCapability) env henv rfl (Nat.le_refl _)
    exact hattach.1.reset_true henv.reset hopen
  · rename_i hbig
    have hattach := @attach_wholeMapped opened env henv rfl (Nat.not_lt.mp hbig)
    split at hopen
    · exact hattach.1.reset_true henv.reset hopen
    · split at hopen
      · exact hattach.1.loadConfig_true hopen
      · cases hopen
        exact hattach.1

theorem WholeMapped.push_any (h : cache.WholeMapped) {env : PushEnv} (henv : env.Succeeds)
    (message : TrackMessageImpl) : (cache.push ext env message).2.WholeMapped := by
  by_cases hmax : cache.nextSize ext message > maxCacheSize
  · rw [push_of_gt hmax]
    exact h
  · obtain ⟨grown, _, hpush, hwhole, _⟩ := h.push henv (Nat.not_lt.mp hmax)
    rw [hpush]
    exact hwhole.storeAll _

/-- **In every state reached with all file operations succeeding the whole file is mapped.** -/
theorem wholeMapped_of_reaches
    (hreach : (cacheSystem ext InitEnv.Succeeds).Reaches (fun _ op => op.Succeeds) cache) :
    cache.WholeMapped := by
  refine hreach.invariant WholeMapped ?_ ?_
  · rintro state ⟨hash, path, config, disk, env, henv, hopen⟩
    exact wholeMapped_openAt henv hopen
  · intro state op next hwhole hop hstep
    cases op with
    | push env message =>
        simp only [cacheSystem, perform, Option.some.injEq] at hstep
        rw [← hstep]
        exact hwhole.push_any hop message
    | clear env =>
        simp only [cacheSystem, perform] at hstep
        split at hstep
        · contradiction
        · cases hstep
          rename_i hreset
          exact hwhole.reset_true hop hreset
        · cases hstep
    | reopen config env =>
        simp only [cacheSystem, perform] at hstep
        split at hstep
        · contradiction
        · cases hstep
          rename_i hopen
          exact wholeMapped_openAt hop hopen
        · cases hstep

/-! ### The bytes a push writes -/

def pushWrites (ext : Externals) (cache : OpenCache) (env : PushEnv)
    (message : TrackMessageImpl) : List (Nat × List UInt8) :=
  (cache.grow env (cache.nextSize ext message)).2.pushStores ext message

/-- Every byte the push wrote has an offset below the size of the file after it. -/
def WritesInside (ext : Externals) (cache : OpenCache) (env : PushEnv)
    (message : TrackMessageImpl) : Prop :=
  ∀ entry ∈ cache.pushWrites ext env message, ∀ i, i < entry.2.length →
    entry.1 + i < (cache.push ext env message).2.size

theorem WholeMapped.push_measures (h : cache.WholeMapped) {env : PushEnv} (henv : env.Succeeds)
    {message : TrackMessageImpl} (hmax : cache.nextSize ext message ≤ maxCacheSize) :
    (cache.push ext env message).1 = true
      ∧ (cache.push ext env message).2.areaEnd = cache.nextSize ext message
      ∧ (cache.push ext env message).2.size = cache.grownSize (cache.nextSize ext message)
      ∧ ∀ entry ∈ cache.pushWrites ext env message,
          entry.1 + entry.2.length ≤ cache.nextSize ext message := by
  obtain ⟨grown, hgrow, hpush, hgrown, hfrom, hheader, hsize⟩ := h.push henv hmax
  have hnext : grown.nextSize ext message = cache.nextSize ext message := by
    rw [nextSize, nextSize, hheader]
  rw [hpush]
  refine ⟨rfl, ?_, ?_, ?_⟩
  · rw [hgrown.mapped.areaEnd_pushStores (by omega), hnext]
  · rw [(hgrown.storeAll _).size_eq, (sameFrame_storeAll _ grown).size, hsize]
  · intro entry hentry
    rw [pushWrites, hgrow] at hentry
    rw [← hnext]
    exact end_le_of_mem_pushStores hentry

theorem le_grownSize_iff (cache : OpenCache) (nextSize : Nat) :
    nextSize ≤ cache.grownSize nextSize ↔ nextSize ≤ cache.size + cacheCapability := by
  unfold grownSize
  split <;> omega

/-- **A push that is accepted stays inside the file exactly when one growth step is enough.** -/
theorem push_inside_iff
    (hreach : (cacheSystem ext InitEnv.Succeeds).Reaches (fun _ op => op.Succeeds) cache)
    {env : PushEnv} (henv : env.Succeeds) (message : TrackMessageImpl)
    (htrue : (cache.push ext env message).1 = true) :
    ((cache.push ext env message).2.areaEnd ≤ (cache.push ext env message).2.size
        ∧ cache.WritesInside ext env message)
      ↔ cache.nextSize ext message ≤ cache.size + 65536 := by
  have hmax : cache.nextSize ext message ≤ maxCacheSize := by
    by_contra hmax
    rw [push_of_gt (Nat.not_le.mp hmax)] at htrue
    cases htrue
  obtain ⟨_, hend, hsize, hwrites⟩ := (wholeMapped_of_reaches hreach).push_measures henv hmax
  rw [hend, hsize]
  constructor
  · rintro ⟨hle, _⟩
    exact (cache.le_grownSize_iff _).mp hle
  · intro hfits
    have hle := (cache.le_grownSize_iff _).mpr hfits
    refine ⟨hle, ?_⟩
    intro entry hentry i hi
    have hentryEnd := hwrites entry hentry
    rw [hsize]
    omega

/-! ### A new file -/

theorem exists_new :
    ∃ cache, (cacheSystem wireFormat InitEnv.Succeeds).Reaches (fun _ op => op.Succeeds) cache
      ∧ cache.WholeMapped ∧ cache.size = 65536 ∧ cache.areaEnd = 31 := by
  obtain ⟨cache, hopen, hholds, _, hsize⟩ :=
    @openAt_absent wireFormat _ plainConfig rfl History.plainConfig_fits _ InitEnv.ideal_succeeds []
  refine ⟨cache, .init ⟨_, _, _, _, _, InitEnv.ideal_succeeds, hopen⟩, hholds.whole, ?_, ?_⟩
  · rw [hholds.whole.size_eq, hsize]
    rfl
  · rw [hholds.areaEnd]
    decide

theorem push_inside_iff_new :
    ∃ cache : OpenCache, cache.nextSize wireFormat (plainMessage [118]) ≤ cache.size + 65536
      ∧ cache.WritesInside wireFormat PushEnv.ideal (plainMessage [118]) := by
  obtain ⟨cache, hreach, hwhole, hsize, hend⟩ := exists_new
  have hmessage : (plainMessage [118]).getSerializeSize wireFormat = 8 := by decide
  have hheader : recordHeaderSize = 20 := rfl
  have hmax : maxCacheSize = 1048576 := rfl
  have hnext := @nextSize_eq wireFormat cache (plainMessage [118])
  have htrue := (@WholeMapped.push_measures wireFormat cache hwhole _ PushEnv.ideal_succeeds
    (plainMessage [118]) (by omega)).1
  have hfits : cache.nextSize wireFormat (plainMessage [118]) ≤ cache.size + 65536 := by omega
  exact ⟨cache, hfits,
    ((push_inside_iff hreach PushEnv.ideal_succeeds (plainMessage [118]) htrue).mpr hfits).2⟩

def largeMessage : TrackMessageImpl := plainMessage (List.replicate 200000 0)

theorem largeMessage_size : largeMessage.getSerializeSize wireFormat = 200011 := by
  have hne : List.replicate 200000 (0 : UInt8) ≠ [] := by
    rw [Ne, List.replicate_eq_nil_iff]
    decide
  have hinner : (Wire.varint 200000).length = 3 := by decide
  have houter : (Wire.varint 200007).length = 3 := by decide
  rw [largeMessage, plainMessage_size hne, List.length_replicate, hinner, houter]

/-- **One growth step is not always enough**: the first message on a new file can be accepted
although its record ends far behind the end of the file. -/
theorem push_outside :
    ∃ cache, (cacheSystem wireFormat InitEnv.Succeeds).Reaches (fun _ op => op.Succeeds) cache
      ∧ (cache.push wireFormat PushEnv.ideal largeMessage).1 = true
      ∧ ¬ (cache.push wireFormat PushEnv.ideal largeMessage).2.areaEnd
        ≤ (cache.push wireFormat PushEnv.ideal largeMessage).2.size := by
  obtain ⟨cache, hreach, hwhole, hsize, hend⟩ := exists_new
  have hmessage := largeMessage_size
  have hheader : recordHeaderSize = 20 := rfl
  have hmax : maxCacheSize = 1048576 := rfl
  have hcap : cacheCapability = 65536 := rfl
  have hnext := @nextSize_eq wireFormat cache largeMessage
  obtain ⟨htrue, hend', hsize', _⟩ :=
    @WholeMapped.push_measures wireFormat cache hwhole _ PushEnv.ideal_succeeds largeMessage
      (by omega)
  refine ⟨cache, hreach, htrue, ?_⟩
  rw [hend', hsize', le_grownSize_iff]
  omega

end OpenCache

end TapSdk.Tracker
