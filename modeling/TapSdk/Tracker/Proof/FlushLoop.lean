import TapSdk.Tracker.Proof.PushFailure
import TapSdk.Tracker.Proof.Slots

/-!
# Where the loop of `FlushTracker` advances from

The loop starts an upload from inside its body, and the upload erases the entry the loop stands on.
Whether that happens before the message is taken is decided by the state at the start of the call:
by the flag, the counts, and which caches would take the message.
-/

namespace TapSdk.Tracker

open Library

variable {ext : Externals} {hash : UInt64} {message : TrackMessageImpl} {env : FlushEnv}

namespace Manager

variable {manager : Manager} {index : Nat} {cache : TrackerCache}

/-- The cache would take the message: it has room for it, and no operation fails. -/
def Accepts (ext : Externals) (manager : Manager) (message : TrackMessageImpl) (env : FlushEnv)
    (entry : Nat × TrackerCache) : Prop :=
  (entry.2.opened (manager.disk entry.2)).ReachesCounters ext (env.push entry.1) message
    ∧ ¬ (entry.2.opened (manager.disk entry.2)).LastFails (env.push entry.1)

/-- No cache whose count has reached the group size stands in front of the first one that takes the
message. -/
def NoFullBefore (ext : Externals) (manager : Manager) (message : TrackMessageImpl)
    (env : FlushEnv) (entries : List (Nat × TrackerCache)) : Prop :=
  Scan (fun entry => ¬ manager.Accepts ext message env entry)
    (fun entry => manager.getCount entry.2 < manager.trackerGroupSize.toNat) entries

theorem pushInto_disk_of_ne (hcache : manager.registered hash index = some cache)
    {other : TrackerCache} (hpath : other.diskCache.path ≠ cache.diskCache.path) (push : PushEnv) :
    (manager.pushInto ext hash index cache push message).2.disk other = manager.disk other := by
  rw [pushInto_eq hcache]
  have hfile : ∀ disk, (manager.setFile cache.diskCache.path disk).files other.diskCache.path
      = manager.files other.diskCache.path := fun disk => setFile_files_of_ne hpath
  simp only [Manager.disk, setCaches_files, hfile]

theorem pushInto_trackerGroupSize (hcache : manager.registered hash index = some cache)
    (push : PushEnv) :
    (manager.pushInto ext hash index cache push message).2.trackerGroupSize
      = manager.trackerGroupSize := by
  rw [pushInto_eq hcache]
  rfl

theorem pushInto_noFullBefore (hcache : manager.registered hash index = some cache)
    {rest : List (Nat × TrackerCache)}
    (hpaths : ∀ other ∈ rest, other.2.diskCache.path ≠ cache.diskCache.path) (push : PushEnv) :
    (manager.pushInto ext hash index cache push message).2.NoFullBefore ext message env rest
      ↔ manager.NoFullBefore ext message env rest := by
  apply scan_congr
  · intro other hother
    rw [Accepts, Accepts, pushInto_disk_of_ne hcache (hpaths other hother)]
  · intro other hother
    rw [getCount, getCount, pushInto_disk_of_ne hcache (hpaths other hother),
      pushInto_trackerGroupSize hcache]

theorem accepts_iff (hcache : manager.registered hash index = some cache) :
    manager.Accepts ext message env (index, cache)
      ↔ (manager.pushInto ext hash index cache (env.push index) message).1 = true := by
  rw [pushInto_eq hcache]
  exact OpenCache.push_true_iff.symm

theorem pushInto_uploading (hcache : manager.registered hash index = some cache) (push : PushEnv) :
    (manager.pushInto ext hash index cache push message).2.uploading = manager.uploading := by
  rw [pushInto_eq hcache]
  rfl

end Manager

theorem flushLoop_advances_iff {entries : List (Nat × TrackerCache)} {manager : Manager}
    (hahead : manager.Ahead hash entries)
    (hpaths : entries.Pairwise fun left right => right.2.diskCache.path ≠ left.2.diskCache.path) :
    (∀ advance ∈ (flushLoop ext hash message env entries manager).advances, advance.2 = true)
      ↔ manager.uploading = true ∨ manager.NoFullBefore ext message env entries := by
  induction entries generalizing manager with
  | nil =>
      refine ⟨fun _ => Or.inr scan_nil, fun _ advance hadvance => ?_⟩
      cases hadvance
  | cons entry rest ih =>
      obtain ⟨index, cache⟩ := entry
      obtain ⟨hpath, hpaths⟩ := List.pairwise_cons.mp hpaths
      rw [Manager.NoFullBefore, scan_cons]
      by_cases hfull : manager.getCount cache ≥ manager.trackerGroupSize.toNat
      · simp only [flushLoop, hfull, if_true, List.forall_mem_cons]
        have hnot : ¬ manager.getCount cache < manager.trackerGroupSize.toNat :=
          Nat.not_lt.mpr hfull
        by_cases huploading : manager.uploading = true
        · -- an upload is running, so none is started and nothing is erased
          have hsame : manager.uploadTrackerCacheAsync ext hash index env.clock = manager := by
            simp only [Manager.uploadTrackerCacheAsync, huploading, if_true]
          have hfind : (manager.trackersCache hash).find index = some cache := hahead.head
          rw [hsame, ih (hahead.tail fun _ _ => rfl) hpaths]
          simp only [hfind, huploading, Option.isSome_some, true_or, and_self]
        · -- the entry the loop stands on is erased
          have hnone : ((manager.uploadTrackerCacheAsync ext hash index env.clock).trackersCache
              hash).find index = none := by
            rw [Bool.not_eq_true] at huploading
            rw [Manager.uploadTrackerCacheAsync_of_registered huploading hahead.head]
            exact Manager.registered_erase_self
          simp only [hnone, huploading, hnot, Option.isSome_none, Bool.false_eq_true, false_and,
            or_false]
      · simp only [flushLoop, hfull, if_false]
        have hlt : manager.getCount cache < manager.trackerGroupSize.toNat := Nat.not_le.mp hfull
        have hfound : (manager.pushInto ext hash index cache (env.push index) message).2.registered
            hash index ≠ none := by
          rw [Manager.pushInto_self hahead.head]
          simp
        have hothers := @Manager.pushInto_noFullBefore ext hash message env manager index cache
          hahead.head rest hpath (env.push index)
        have hflag := @Manager.pushInto_uploading ext _ message _ _ _ hahead.head (env.push index)
        have hrest := @Manager.Ahead.pushInto ext _ _ _ _ _ hahead (env.push index) message
        rw [Manager.accepts_iff hahead.head]
        cases hpush : manager.pushInto ext hash index cache (env.push index) message with
        | mk pushed next =>
            simp only [hpush] at hfound hothers hflag hrest
            cases pushed with
            | true =>
                have hnone : ∀ count, (if count ≥ uploadTrackerCount then
                    (⟨some index, next.uploadTrackerCacheAsync ext hash index env.clock, []⟩
                      : FlushWalk) else ⟨some index, next, []⟩).advances = [] := by
                  intro count
                  split <;> rfl
                simp only [hnone, hlt, List.not_mem_nil, not_true_eq_false, and_self, or_true,
                  false_imp_iff, implies_true]
            | false =>
                have hsome : ((next.trackersCache hash).find index).isSome = true :=
                  Option.isSome_iff_ne_none.mpr hfound
                simp only [List.forall_mem_cons, hsome, hlt, Bool.false_eq_true, not_false_eq_true,
                  true_imp_iff, true_and]
                rw [ih hrest hpaths, hflag, hothers]
                exact Iff.rfl

/-- **When the loop of `FlushTracker` never advances from an erased entry.** -/
theorem flush_advances_from_registered_iff {manager : Manager}
    (hreach : (Manager.system ext).Reaches Manager.Restartable manager) (hash : UInt64)
    (message : TrackMessageImpl) (env : FlushEnv) :
    (∀ advance ∈ (flushLoop ext hash message env (manager.trackersCache hash).entries
        manager).advances, advance.2 = true)
      ↔ manager.uploading = true
        ∨ manager.NoFullBefore ext message env (manager.trackersCache hash).entries := by
  have hslots := Manager.slots_of_reaches hreach
  exact flushLoop_advances_iff (manager.ahead_entries hash) (hslots.paths_pairwise hash)

/-! ### A group size of one -/

def twoFullCaches : List ManagerOp :=
  twoCaches ++ [.complete 0 false ⟨ResetEnv.ideal, false, true⟩]

def advancesAfter (manager : Manager) : List (Nat × Bool) :=
  (flushLoop wireFormat plainConfig.hash (plainMessage [120]) FlushEnv.ideal
    (manager.trackersCache plainConfig.hash).entries manager).advances

theorem flush_advances_while_uploading :
    ∃ manager, manager.uploading = true ∧ ∀ advance ∈ advancesAfter manager, advance.2 = true := by
  have hrun : (twoCaches.foldlM (Manager.step wireFormat) (Manager.empty (fun _ => none) 1)).map
      (·.uploading) = some true := by decide +kernel
  obtain ⟨manager, hmanager, huploading⟩ := Option.map_eq_some_iff.mp hrun
  have hreach := reaches_of_run (by simp [twoCaches, Manager.Restartable]) hmanager
  exact ⟨manager, huploading, (flush_advances_from_registered_iff hreach _ _ _).mpr
    (Or.inl huploading)⟩

/-- **The loop can advance from an entry that its own body erased.** -/
theorem flush_advances_from_erased :
    ∃ manager, (Manager.system wireFormat).Reaches Manager.Restartable manager
      ∧ manager.trackerGroupSize = 1
      ∧ (flushLoop wireFormat plainConfig.hash (plainMessage [120]) FlushEnv.ideal
        (manager.trackersCache plainConfig.hash).entries manager).advances
          = [(0, false), (1, true)] := by
  have hrun : (twoFullCaches.foldlM (Manager.step wireFormat)
      (Manager.empty (fun _ => none) 1)).map
      (fun manager => (manager.trackerGroupSize, advancesAfter manager))
        = some (1, [(0, false), (1, true)]) := by decide +kernel
  obtain ⟨manager, hmanager, hlast⟩ := Option.map_eq_some_iff.mp hrun
  obtain ⟨hsize, hadvances⟩ := Prod.mk.inj hlast
  have hreach := reaches_of_run (by simp [twoFullCaches, twoCaches, Manager.Restartable]) hmanager
  exact ⟨manager, hreach, hsize, hadvances⟩

end TapSdk.Tracker
