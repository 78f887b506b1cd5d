import TapSdk.Tracker.Manager

/-!
# Rules for the manager's loops

What the small updates of the manager leave alone, and one rule for each loop of `FlushTracker`: a
property that survives an upload being started and a push being refused holds when the loop gives
up, and what an accepted push establishes, if starting an upload keeps it, holds when the loop ends
with success.
-/

namespace TapSdk.Tracker

open Library

variable {ext : Externals}

namespace Manager

variable {manager : Manager} {hash other : UInt64} {index position : Nat} {cache : TrackerCache}
  {caches : OrderedMap Nat TrackerCache} {path name : Str} {disk : Option FileData}
  {taken : Bool}

@[simp]
theorem setFile_trackersCache :
    (manager.setFile path disk).trackersCache = manager.trackersCache := rfl

@[simp]
theorem setFile_trackerCacheIds :
    (manager.setFile path disk).trackerCacheIds = manager.trackerCacheIds := rfl

@[simp]
theorem setFile_inFlight : (manager.setFile path disk).inFlight = manager.inFlight := rfl

@[simp]
theorem setFile_uploading : (manager.setFile path disk).uploading = manager.uploading := rfl

@[simp]
theorem setFile_files_self : (manager.setFile path disk).files path = disk := by
  simp [setFile]

theorem setFile_files_of_ne (h : name ≠ path) :
    (manager.setFile path disk).files name = manager.files name := by
  simp [setFile, h]

theorem setFile_same (manager : Manager) (path : Str) :
    manager.setFile path (manager.files path) = manager := by
  simp only [setFile]
  congr 1
  funext name
  split
  · rename_i heq
    rw [heq]
  · rfl

@[simp]
theorem setId_trackersCache :
    (manager.setId hash index taken).trackersCache = manager.trackersCache := rfl

@[simp]
theorem setId_inFlight : (manager.setId hash index taken).inFlight = manager.inFlight := rfl

@[simp]
theorem setId_uploading : (manager.setId hash index taken).uploading = manager.uploading := rfl

@[simp]
theorem setId_files : (manager.setId hash index taken).files = manager.files := rfl

@[simp]
theorem setId_self : (manager.setId hash index taken).trackerCacheIds hash index = taken := by
  simp [setId]

theorem setId_of_ne (h : ¬ (other = hash ∧ position = index)) :
    (manager.setId hash index taken).trackerCacheIds other position
      = manager.trackerCacheIds other position := by
  simp [setId, h]

@[simp]
theorem setCaches_trackerCacheIds :
    (manager.setCaches hash caches).trackerCacheIds = manager.trackerCacheIds := rfl

@[simp]
theorem setCaches_inFlight : (manager.setCaches hash caches).inFlight = manager.inFlight := rfl

@[simp]
theorem setCaches_uploading : (manager.setCaches hash caches).uploading = manager.uploading := rfl

@[simp]
theorem setCaches_files : (manager.setCaches hash caches).files = manager.files := rfl

@[simp]
theorem setCaches_self : (manager.setCaches hash caches).trackersCache hash = caches := by
  simp [setCaches]

theorem setCaches_of_ne (h : other ≠ hash) :
    (manager.setCaches hash caches).trackersCache other = manager.trackersCache other := by
  simp [setCaches, h]

def registered (manager : Manager) (hash : UInt64) (index : Nat) : Option TrackerCache :=
  (manager.trackersCache hash).find index

@[simp]
theorem registered_setFile :
    (manager.setFile path disk).registered hash index = manager.registered hash index := rfl

@[simp]
theorem registered_setId {taken : Bool} :
    (manager.setId other position taken).registered hash index
      = manager.registered hash index := rfl

theorem registered_emplace_self (h : manager.registered hash index = none) :
    (manager.emplace hash index cache).registered hash index = some cache := by
  simp only [registered, emplace, setCaches_self]
  exact OrderedMap.find_emplace_self h

theorem registered_emplace_of_ne (h : ¬ (other = hash ∧ position = index)) :
    (manager.emplace hash index cache).registered other position
      = manager.registered other position := by
  by_cases hhash : other = hash
  · subst hhash
    simp only [registered, emplace, setCaches_self]
    exact OrderedMap.find_emplace_of_ne fun heq => h ⟨rfl, heq⟩
  · simp only [registered, emplace, setCaches_of_ne hhash]

theorem registered_erase_self :
    (manager.setCaches hash ((manager.trackersCache hash).erase index)).registered hash index
      = none := by
  simp only [registered, setCaches_self, OrderedMap.find_erase_self]

theorem registered_erase_of_ne (h : ¬ (other = hash ∧ position = index)) :
    (manager.setCaches hash ((manager.trackersCache hash).erase index)).registered other position
      = manager.registered other position := by
  by_cases hhash : other = hash
  · subst hhash
    simp only [registered, setCaches_self]
    exact OrderedMap.find_erase_of_ne fun heq => h ⟨rfl, heq⟩
  · simp only [registered, setCaches_of_ne hhash]

theorem registered_modify_self {old : TrackerCache}
    (h : manager.registered hash index = some old) :
    (manager.setCaches hash ((manager.trackersCache hash).modify index cache)).registered hash index
      = some cache := by
  simp only [registered, setCaches_self]
  exact OrderedMap.find_modify_self h

theorem registered_modify_of_ne (h : ¬ (other = hash ∧ position = index)) :
    (manager.setCaches hash ((manager.trackersCache hash).modify index cache)).registered other
      position = manager.registered other position := by
  by_cases hhash : other = hash
  · subst hhash
    simp only [registered, setCaches_self]
    exact OrderedMap.find_modify_of_ne fun heq => h ⟨rfl, heq⟩
  · simp only [registered, setCaches_of_ne hhash]

/-! ### What the operations do -/

variable {clock : Nat → UInt32}

theorem uploadTrackerCacheAsync_of_registered (huploading : manager.uploading = false)
    (hcache : manager.registered hash index = some cache) :
    manager.uploadTrackerCacheAsync ext hash index clock
      = { manager.setCaches hash ((manager.trackersCache hash).erase index) with
          uploading := true
          inFlight := manager.inFlight
            ++ [⟨hash, index, cache, cache.request ext (manager.disk cache) clock⟩]
          selfDeadlock := manager.selfDeadlock
            || (cache.request ext (manager.disk cache) clock).isNone } := by
  have hfind : (manager.trackersCache hash).find index = some cache := hcache
  simp only [uploadTrackerCacheAsync, huploading, hfind]
  rfl

/-- Starting an upload does nothing, or takes the cache out of the map. -/
theorem uploadTrackerCacheAsync_cases (ext : Externals) (manager : Manager) (hash : UInt64)
    (index : Nat) (clock : Nat → UInt32) :
    manager.uploadTrackerCacheAsync ext hash index clock = manager
      ∨ ∃ cache, manager.uploading = false ∧ manager.registered hash index = some cache
        ∧ manager.uploadTrackerCacheAsync ext hash index clock
          = { manager.setCaches hash ((manager.trackersCache hash).erase index) with
              uploading := true
              inFlight := manager.inFlight
                ++ [⟨hash, index, cache, cache.request ext (manager.disk cache) clock⟩]
              selfDeadlock := manager.selfDeadlock
                || (cache.request ext (manager.disk cache) clock).isNone } := by
  by_cases huploading : manager.uploading = true
  · left
    simp only [uploadTrackerCacheAsync, huploading, if_true]
  · cases hfind : (manager.trackersCache hash).find index with
    | none =>
        left
        simp only [uploadTrackerCacheAsync, huploading, hfind]
        rfl
    | some cache =>
        right
        rw [Bool.not_eq_true] at huploading
        exact ⟨cache, huploading, hfind, uploadTrackerCacheAsync_of_registered huploading hfind⟩

theorem uploadTrackerCacheAsync_of_ne (h : ¬ (other = hash ∧ position = index)) :
    (manager.uploadTrackerCacheAsync ext hash index clock).registered other position
      = manager.registered other position := by
  obtain heq | ⟨cache, _, _, heq⟩ := uploadTrackerCacheAsync_cases ext manager hash index clock
  · rw [heq]
  · rw [heq]
    exact registered_erase_of_ne h

/-- A push changes the file and the object of its own entry, and nothing else. -/
theorem pushInto_eq (h : manager.registered hash index = some cache) (env : PushEnv)
    (message : TrackMessageImpl) :
    manager.pushInto ext hash index cache env message
      = (((cache.opened (manager.disk cache)).push ext env message).1,
        (manager.setFile cache.diskCache.path
          (some ((cache.opened (manager.disk cache)).push ext env message).2.disk)).setCaches hash
          ((manager.trackersCache hash).modify index { cache with
            diskCache :=
              ((cache.opened (manager.disk cache)).push ext env message).2.object })) := by
  have hfind : (manager.trackersCache hash).find index = some cache := h
  simp only [pushInto, TrackerCache.push, putBack, setFile_trackersCache, hfind, if_true]

theorem pushInto_self (h : manager.registered hash index = some cache) (env : PushEnv)
    (message : TrackMessageImpl) :
    (manager.pushInto ext hash index cache env message).2.registered hash index
      = some { cache with
          diskCache := ((cache.opened (manager.disk cache)).push ext env message).2.object } := by
  rw [pushInto_eq h]
  exact @registered_modify_self (manager.setFile _ _) _ _ _ cache h

theorem pushInto_of_ne (h : manager.registered hash index = some cache)
    (hne : ¬ (other = hash ∧ position = index)) (env : PushEnv) (message : TrackMessageImpl) :
    (manager.pushInto ext hash index cache env message).2.registered other position
      = manager.registered other position := by
  rw [pushInto_eq h]
  exact @registered_modify_of_ne (manager.setFile _ _) _ _ _ _ _ hne

/-! ### What is ahead of a loop -/

/-- The entries a loop still has to visit are in the map as they were when it started. -/
structure Ahead (manager : Manager) (hash : UInt64) (entries : List (Nat × TrackerCache)) :
    Prop where
  nodup : (entries.map Prod.fst).Nodup
  registered : ∀ entry ∈ entries, manager.registered hash entry.1 = some entry.2

theorem ahead_entries (manager : Manager) (hash : UInt64) :
    manager.Ahead hash (manager.trackersCache hash).entries :=
  ⟨OrderedMap.keys_nodup, fun _ hentry => OrderedMap.find_of_mem hentry⟩

variable {rest : List (Nat × TrackerCache)}

theorem Ahead.head (h : manager.Ahead hash ((index, cache) :: rest)) :
    manager.registered hash index = some cache :=
  h.registered (index, cache) List.mem_cons_self

/-- What happens to the entry a loop stands on leaves the entries ahead of it alone. -/
theorem Ahead.tail {next : Manager} (h : manager.Ahead hash ((index, cache) :: rest))
    (hothers : ∀ position, ¬ (hash = hash ∧ position = index) →
      next.registered hash position = manager.registered hash position) :
    next.Ahead hash rest := by
  obtain ⟨hnew, hnodup⟩ := List.nodup_cons.mp h.nodup
  refine ⟨hnodup, fun other hother => ?_⟩
  rw [hothers other.1, h.registered other (List.mem_cons_of_mem _ hother)]
  rintro ⟨_, heq⟩
  have hkey : other.1 ∈ rest.map Prod.fst := List.mem_map_of_mem hother
  exact hnew (heq ▸ hkey)

theorem Ahead.upload (h : manager.Ahead hash ((index, cache) :: rest)) (clock : Nat → UInt32) :
    (manager.uploadTrackerCacheAsync ext hash index clock).Ahead hash rest :=
  h.tail fun _ hne => uploadTrackerCacheAsync_of_ne hne

theorem Ahead.pushInto (h : manager.Ahead hash ((index, cache) :: rest)) (env : PushEnv)
    (message : TrackMessageImpl) :
    (manager.pushInto ext hash index cache env message).2.Ahead hash rest :=
  h.tail fun _ hne => pushInto_of_ne h.head hne env message

end Manager

/-! ### The loops -/

section Loops

variable {hash : UInt64} {message : TrackMessageImpl} {env : FlushEnv}

/-- `P` when no cache took the message, `Q` of the one that did. -/
def Settles (P : Manager → Prop) (Q : Nat → Manager → Prop) : Option Nat → Manager → Prop
  | none, manager => P manager
  | some index, manager => Q index manager

variable {P : Manager → Prop} {Q : Nat → Manager → Prop}

theorem flushLoop_rule
    (hupload : ∀ manager index, P manager →
      P (manager.uploadTrackerCacheAsync ext hash index env.clock))
    (hrefused : ∀ manager index cache next, P manager →
      manager.registered hash index = some cache →
      manager.pushInto ext hash index cache (env.push index) message = (false, next) → P next)
    (hpushed : ∀ manager index cache next, P manager →
      manager.registered hash index = some cache →
      manager.pushInto ext hash index cache (env.push index) message = (true, next) →
      Q index next ∧ Q index (next.uploadTrackerCacheAsync ext hash index env.clock))
    {entries : List (Nat × TrackerCache)} {manager : Manager} (hP : P manager)
    (hahead : manager.Ahead hash entries) :
    Settles P Q (flushLoop ext hash message env entries manager).pushed
      (flushLoop ext hash message env entries manager).manager := by
  induction entries generalizing manager with
  | nil => exact hP
  | cons entry rest ih =>
      obtain ⟨index, cache⟩ := entry
      by_cases hfull : manager.getCount cache ≥ manager.trackerGroupSize.toNat
      · simp only [flushLoop, hfull, if_true]
        exact ih (hupload manager index hP) (hahead.upload env.clock)
      · simp only [flushLoop, hfull, if_false]
        have hrest := @Manager.Ahead.pushInto ext _ _ _ _ _ hahead (env.push index) message
        cases hpush : manager.pushInto ext hash index cache (env.push index) message with
        | mk pushed next =>
            cases pushed with
            | true =>
                obtain ⟨hnext, huploaded⟩ := hpushed manager index cache next hP hahead.head hpush
                dsimp only
                split
                · exact huploaded
                · exact hnext
            | false =>
                rw [hpush] at hrest
                exact ih (hrefused manager index cache next hP hahead.head hpush) hrest

theorem createLoop_rule {config : TrackerConfig}
    (hfail : ∀ manager index next, P manager → index < maxCacheCount →
      manager.trackerCacheIds hash index = false →
      manager.createCache ext hash index config env = (none, next) → P next)
    (hnew : ∀ manager index cache next pushed last, P manager → index < maxCacheCount →
      manager.trackerCacheIds hash index = false →
      manager.createCache ext hash index config env = (some cache, next) →
      next.pushInto ext hash index cache (env.push index) message = (pushed, last) →
      if pushed then Q index last else P last)
    {indices : List Nat} (hindices : ∀ index ∈ indices, index < maxCacheCount)
    {manager : Manager} (hP : P manager) :
    Settles P Q (createLoop ext hash config message env indices manager).1
      (createLoop ext hash config message env indices manager).2 := by
  induction indices generalizing manager with
  | nil => exact hP
  | cons index rest ih =>
      have hrest : ∀ other ∈ rest, other < maxCacheCount :=
        fun other hother => hindices other (List.mem_cons_of_mem _ hother)
      cases hfree : manager.trackerCacheIds hash index with
      | true =>
          simp only [createLoop, hfree, if_true]
          exact ih hrest hP
      | false =>
          simp only [createLoop, hfree, Bool.false_eq_true, if_false]
          cases hcreate : manager.createCache ext hash index config env with
          | mk created next =>
              cases created with
              | none =>
                  exact ih hrest (hfail manager index next hP (hindices index List.mem_cons_self)
                    hfree hcreate)
              | some cache =>
                  dsimp only
                  cases hpush : next.pushInto ext hash index cache (env.push index) message with
                  | mk pushed last =>
                      have hlast := hnew manager index cache next pushed last hP
                        (hindices index List.mem_cons_self) hfree hcreate hpush
                      cases pushed with
                      | true => exact hlast
                      | false => exact hlast

theorem flushTracker_rule {manager : Manager} {config : TrackerConfig}
    (hconfig : message.config = some config)
    (hupload : ∀ manager index, P manager →
      P (manager.uploadTrackerCacheAsync ext config.hash index env.clock))
    (hrefused : ∀ manager index cache next, P manager →
      manager.registered config.hash index = some cache →
      manager.pushInto ext config.hash index cache (env.push index) message = (false, next) →
      P next)
    (hpushed : ∀ manager index cache next, P manager →
      manager.registered config.hash index = some cache →
      manager.pushInto ext config.hash index cache (env.push index) message = (true, next) →
      Q index next ∧ Q index (next.uploadTrackerCacheAsync ext config.hash index env.clock))
    (hfail : ∀ manager index next, P manager → index < maxCacheCount →
      manager.trackerCacheIds config.hash index = false →
      manager.createCache ext config.hash index config env = (none, next) → P next)
    (hnew : ∀ manager index cache next pushed last, P manager → index < maxCacheCount →
      manager.trackerCacheIds config.hash index = false →
      manager.createCache ext config.hash index config env = (some cache, next) →
      next.pushInto ext config.hash index cache (env.push index) message = (pushed, last) →
      if pushed then Q index last else P last)
    (hP : P manager) :
    Settles P Q (manager.flushTracker ext message env).1
      (manager.flushTracker ext message env).2 := by
  have hwalk := flushLoop_rule hupload hrefused hpushed hP (manager.ahead_entries config.hash)
  simp only [Manager.flushTracker, hconfig]
  cases hpushedAt : (flushLoop ext config.hash message env
      (manager.trackersCache config.hash).entries manager).pushed with
  | some index =>
      rw [hpushedAt] at hwalk
      exact hwalk
  | none =>
      rw [hpushedAt] at hwalk
      exact createLoop_rule hfail hnew (fun index hindex => List.mem_range.mp hindex) hwalk

end Loops

end TapSdk.Tracker
