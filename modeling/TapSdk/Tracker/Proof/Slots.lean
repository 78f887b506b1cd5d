import TapSdk.Tracker.Proof.ManagerRules
import TapSdk.Tracker.Proof.Mapping
import TapSdk.Tracker.WireFormat

/-!
# Slots and the single upload

A slot of a configuration is taken exactly as long as one cache object exists for it, in the map or
in the hands of the one upload that runs. File operations may fail in any pattern, and the files the
program finds at its start may hold anything, as long as the program could have named them.
-/

namespace TapSdk.Tracker

open Library

variable {ext : Externals}

/-! ### Objects keep their path and configuration -/

namespace OpenCache

variable {cache : OpenCache}

theorem grow_path (cache : OpenCache) (env : PushEnv) (nextSize : Nat) :
    (cache.grow env nextSize).2.object.path = cache.object.path := by
  simp only [grow]
  repeat' split
  all_goals rfl

theorem push_path (cache : OpenCache) (env : PushEnv) (message : TrackMessageImpl) :
    (cache.push ext env message).2.object.path = cache.object.path := by
  have hpath := cache.grow_path env (cache.nextSize ext message)
  unfold push
  dsimp only
  split
  · rfl
  · split
    · rename_i grown hgrow
      rw [hgrow] at hpath
      exact hpath
    · rename_i grown hgrow
      rw [hgrow] at hpath
      rw [← hpath]
      split
      · unfold appendMapped
        split
        · exact (sameFrame_store _ _ _).path
        · exact (sameFrame_storeAll _ _).path
      · unfold appendUnmapped
        dsimp only
        repeat' split
        all_goals rfl

/-- The object has the same path, hash and configuration. -/
structure SameOwner (before after : OpenCache) : Prop where
  path : after.object.path = before.object.path
  hash : after.object.hash = before.object.hash
  config : after.object.config = before.object.config

theorem SameOwner.trans {middle after : OpenCache} (h : cache.SameOwner middle)
    (h' : middle.SameOwner after) : cache.SameOwner after :=
  ⟨h'.path.trans h.path, h'.hash.trans h.hash, h'.config.trans h.config⟩

theorem SameFrame.sameOwner {after : OpenCache} (h : SameFrame cache after) :
    cache.SameOwner after := ⟨h.path, h.hash, h.config⟩

theorem resetHeader_sameOwner (cache : OpenCache) (env : ResetEnv) :
    cache.SameOwner (cache.resetHeader env).2 := by
  unfold resetHeader
  dsimp only
  split
  · exact (sameFrame_storeAll _ _).sameOwner
  · repeat' split
    all_goals exact ⟨rfl, rfl, rfl⟩

theorem shrink_sameOwner (cache : OpenCache) (env : ResetEnv) :
    cache.SameOwner (cache.shrink env).2 := by
  unfold shrink
  repeat' split
  all_goals exact ⟨rfl, rfl, rfl⟩

theorem saveConfig_sameOwner (cache : OpenCache) (env : ResetEnv) :
    cache.SameOwner (cache.saveConfig ext env).2 := by
  unfold saveConfig
  dsimp only
  repeat' split
  all_goals first | exact ⟨rfl, rfl, rfl⟩ | exact (sameFrame_storeAll _ _).sameOwner

/-- What `Reset` asks of the configuration, beside leaving it as it is. -/
theorem reset_sameOwner (cache : OpenCache) (env : ResetEnv) :
    cache.SameOwner (cache.reset ext env).2
      ∧ ((cache.reset ext env).1 = true → cache.object.config ≠ none) := by
  have hcleared := cache.resetHeader_sameOwner env
  unfold reset
  split
  · rename_i cleared heq
    rw [heq] at hcleared
    exact ⟨hcleared, fun hfalse => by cases hfalse⟩
  · rename_i cleared heq
    rw [heq] at hcleared
    have hshrunk := cleared.shrink_sameOwner env
    split
    · rename_i shrunk heq'
      rw [heq'] at hshrunk
      exact ⟨hcleared.trans hshrunk, fun hfalse => by cases hfalse⟩
    · rename_i shrunk heq'
      rw [heq'] at hshrunk
      have hsame := hcleared.trans hshrunk
      refine ⟨hsame.trans (saveConfig_sameOwner shrunk env), fun hsaved hnone => ?_⟩
      rw [saveConfig, hsame.config, hnone] at hsaved
      cases hsaved

theorem reset_path (cache : OpenCache) (env : ResetEnv) :
    (cache.reset ext env).2.object.path = cache.object.path := (reset_sameOwner cache env).1.path

theorem attach_sameOwner (cache : OpenCache) (env : InitEnv) :
    cache.SameOwner (cache.attach env) := by
  unfold attach
  split <;> exact ⟨rfl, rfl, rfl⟩

theorem openAt_path {hash : UInt64} {path : Str} {config : Option TrackerConfig}
    {disk : Option FileData} {env : InitEnv} :
    (openAt ext hash path config disk env).2.object.path = path := by
  have hload : ∀ start : OpenCache, (start.loadConfig ext).2.object.path = start.object.path := by
    intro start
    unfold loadConfig
    dsimp only
    repeat' split
    all_goals rfl
  unfold openAt OpenCache.init
  dsimp only
  split
  · split
    · split
      · exact (reset_path _ _).trans (attach_sameOwner _ _).path
      · rfl
    · split
      · exact (reset_path _ _).trans (attach_sameOwner _ _).path
      · split
        · exact (hload _).trans (attach_sameOwner _ _).path
        · exact (attach_sameOwner _ _).path
  · rfl

/-- A configuration that is given stays, and one that is loaded has the hash of the file. -/
theorem openAt_config {hash : UInt64} {path : Str} {config : Option TrackerConfig}
    {disk : Option FileData} {env : InitEnv} {left : OpenCache}
    (h : openAt ext hash path config disk env = (true, left)) :
    left.object.config = config ∧ config ≠ none
      ∨ config = none ∧ ∃ loaded, left.object.config = some loaded ∧ loaded.hash = hash := by
  have hreset : ∀ start : OpenCache, start.object.config = config →
      (start.attach env).reset ext env.reset = (true, left) →
      left.object.config = config ∧ config ≠ none := by
    intro start hstart hreset
    obtain ⟨hsame, hgiven⟩ := @reset_sameOwner ext (start.attach env) env.reset
    have hattached := (start.attach_sameOwner env).config.trans hstart
    rw [hreset] at hsame hgiven
    exact ⟨hsame.config.trans hattached, hattached ▸ hgiven rfl⟩
  unfold openAt OpenCache.init at h
  dsimp only at h
  split at h
  · split at h
    · split at h
      · exact Or.inl (hreset _ rfl h)
      · cases h
    · split at h
      · exact Or.inl (hreset _ rfl h)
      · split at h
        · rename_i hnone
          refine Or.inr ⟨hnone, ?_⟩
          unfold loadConfig at h
          dsimp only at h
          split at h
          · cases h
          · split at h
            · cases h
            · split at h
              · cases h
              · rename_i strings _ hsame
                obtain ⟨_, rfl⟩ := Prod.mk.inj h
                refine ⟨strings.toConfig, rfl, ?_⟩
                rw [ne_eq, not_not] at hsame
                exact hsame.trans (attach_sameOwner _ env).hash
        · rename_i hgiven
          obtain ⟨_, rfl⟩ := Prod.mk.inj h
          exact Or.inl ⟨(attach_sameOwner _ env).config, hgiven⟩
  · cases h

end OpenCache

theorem TrackerCache.construct_path {path : Str} {hash : UInt64}
    {config : Option TrackerConfig} {disk : Option FileData} {env : InitEnv} {address : Nat}
    {cache : TrackerCache} {left : FileData}
    (h : TrackerCache.construct ext path hash config disk env address = (some cache, left)) :
    cache.diskCache.path = path := by
  have hpath := @OpenCache.openAt_path ext hash path config disk env
  unfold construct at h
  split at h
  · cases h
  · rename_i opened hopen
    rw [hopen] at hpath
    obtain ⟨hcache, _⟩ := Prod.mk.inj h
    obtain ⟨given, _, rfl⟩ := Option.map_eq_some_iff.mp hcache
    exact hpath

theorem TrackerCache.construct_config {path : Str} {hash : UInt64}
    {config : Option TrackerConfig} {disk : Option FileData} {env : InitEnv} {address : Nat}
    {cache : TrackerCache} {left : FileData}
    (h : TrackerCache.construct ext path hash config disk env address = (some cache, left)) :
    config = some cache.config ∨ config = none ∧ cache.config.hash = hash := by
  unfold construct at h
  split at h
  · cases h
  · rename_i opened hopen
    obtain ⟨hcache, _⟩ := Prod.mk.inj h
    obtain ⟨found, hfound, rfl⟩ := Option.map_eq_some_iff.mp hcache
    rcases OpenCache.openAt_config hopen with ⟨hgiven, _⟩ | ⟨hnone, loaded, hloaded, hhash⟩
    · exact Or.inl (hgiven.symm.trans hfound)
    · obtain rfl := Option.some.inj (hloaded.symm.trans hfound)
      exact Or.inr ⟨hnone, hhash⟩

/-! ### The invariant -/

namespace Manager

variable {manager next : Manager} {hash other : UInt64} {index position : Nat}
  {cache : TrackerCache} {clock : Nat → UInt32}

structure Slots (manager : Manager) : Prop where
  registered : ∀ hash index cache, manager.registered hash index = some cache →
    index < maxCacheCount ∧ manager.trackerCacheIds hash index = true
      ∧ cache.diskCache.path = cacheName hash index
  flying : ∀ upload ∈ manager.inFlight, upload.index < maxCacheCount
    ∧ manager.trackerCacheIds upload.hash upload.index = true
    ∧ upload.cache.diskCache.path = cacheName upload.hash upload.index
    ∧ manager.registered upload.hash upload.index = none
  taken : ∀ hash index, manager.trackerCacheIds hash index = true →
    (∃ cache, manager.registered hash index = some cache)
      ∨ ∃ upload ∈ manager.inFlight, upload.hash = hash ∧ upload.index = index
  uploading : manager.inFlight.length = if manager.uploading then 1 else 0

theorem Slots.setFile (h : manager.Slots) (path : Str) (disk : Option FileData) :
    (manager.setFile path disk).Slots := ⟨h.registered, h.flying, h.taken, h.uploading⟩

theorem Slots.inFlight_eq_nil (h : manager.Slots) (huploading : manager.uploading = false) :
    manager.inFlight = [] := by
  have hlength := h.uploading
  rw [huploading] at hlength
  exact List.length_eq_zero_iff.mp hlength

theorem Slots.upload (h : manager.Slots) (hash : UInt64) (index : Nat) (clock : Nat → UInt32) :
    (manager.uploadTrackerCacheAsync ext hash index clock).Slots := by
  obtain heq | ⟨cache, huploading, hcache, heq⟩ :=
    uploadTrackerCacheAsync_cases ext manager hash index clock
  · rw [heq]
    exact h
  rw [heq]
  have hnil := h.inFlight_eq_nil huploading
  obtain ⟨hindex, hid, hpath⟩ := h.registered hash index cache hcache
  refine ⟨?_, ?_, ?_, ?_⟩
  · intro other position found hfound
    by_cases hsame : other = hash ∧ position = index
    · obtain ⟨rfl, rfl⟩ := hsame
      change (manager.setCaches _ _).registered _ _ = some found at hfound
      rw [registered_erase_self] at hfound
      cases hfound
    · change (manager.setCaches _ _).registered _ _ = some found at hfound
      rw [registered_erase_of_ne hsame] at hfound
      exact h.registered other position found hfound
  · intro upload hupload
    simp only [hnil, List.nil_append, List.mem_singleton] at hupload
    subst hupload
    exact ⟨hindex, hid, hpath, registered_erase_self⟩
  · intro other position hid'
    by_cases hsame : other = hash ∧ position = index
    · obtain ⟨rfl, rfl⟩ := hsame
      exact Or.inr ⟨_, List.mem_append_right _ (List.mem_singleton.mpr rfl), rfl, rfl⟩
    · refine (h.taken other position hid').imp ?_ ?_
      · rintro ⟨found, hfound⟩
        refine ⟨found, ?_⟩
        change (manager.setCaches _ _).registered _ _ = some found
        rw [registered_erase_of_ne hsame, hfound]
      · rintro ⟨upload, hupload, hat⟩
        exact ⟨upload, List.mem_append_left _ hupload, hat⟩
  · simp [hnil]

theorem Slots.modify (h : manager.Slots) (hcache : manager.registered hash index = some cache)
    {changed : TrackerCache} (hpath : changed.diskCache.path = cache.diskCache.path) :
    (manager.setCaches hash ((manager.trackersCache hash).modify index changed)).Slots := by
  have hsome : ∀ other position, (∃ found, manager.registered other position = some found) →
      ∃ found, (manager.setCaches hash ((manager.trackersCache hash).modify index
        changed)).registered other position = some found := by
    intro other position hfound
    by_cases hsame : other = hash ∧ position = index
    · obtain ⟨rfl, rfl⟩ := hsame
      exact ⟨changed, registered_modify_self hcache⟩
    · rw [registered_modify_of_ne hsame]
      exact hfound
  refine ⟨?_, ?_, ?_, h.uploading⟩
  · intro other position found hfound
    by_cases hsame : other = hash ∧ position = index
    · obtain ⟨rfl, rfl⟩ := hsame
      rw [registered_modify_self hcache] at hfound
      obtain ⟨hindex, hid, hold⟩ := h.registered _ _ _ hcache
      exact ⟨hindex, hid, Option.some.inj hfound ▸ hpath.trans hold⟩
    · rw [registered_modify_of_ne hsame] at hfound
      exact h.registered other position found hfound
  · intro upload hupload
    obtain ⟨hindex, hid, hold, hnone⟩ := h.flying upload hupload
    refine ⟨hindex, hid, hold, ?_⟩
    rw [registered_modify_of_ne, hnone]
    rintro ⟨hhash, hposition⟩
    rw [hhash, hposition, hcache] at hnone
    cases hnone
  · intro other position hid
    exact (h.taken other position hid).imp_left (hsome other position)

theorem Slots.pushInto (h : manager.Slots) (hcache : manager.registered hash index = some cache)
    (env : PushEnv) (message : TrackMessageImpl) :
    (manager.pushInto ext hash index cache env message).2.Slots := by
  rw [pushInto_eq hcache]
  exact (h.setFile _ _).modify hcache (OpenCache.push_path _ _ _)

theorem Slots.occupy (h : manager.Slots) (hindex : index < maxCacheCount)
    (hfree : manager.trackerCacheIds hash index = false)
    (hpath : cache.diskCache.path = cacheName hash index) :
    ((manager.setId hash index true).emplace hash index cache).Slots
      ∧ ((manager.setId hash index true).emplace hash index cache).registered hash index
        = some cache := by
  have hnone : manager.registered hash index = none := by
    cases hfound : manager.registered hash index with
    | none => rfl
    | some found =>
        rw [(h.registered hash index found hfound).2.1] at hfree
        cases hfree
  have hself : ((manager.setId hash index true).emplace hash index cache).registered hash index
      = some cache := @registered_emplace_self (manager.setId hash index true) _ _ _ hnone
  have hother : ∀ other position, ¬ (other = hash ∧ position = index) →
      ((manager.setId hash index true).emplace hash index cache).registered other position
        = manager.registered other position :=
    fun other position hne =>
      @registered_emplace_of_ne (manager.setId hash index true) _ _ _ _ _ hne
  have hids : ∀ other position, manager.trackerCacheIds other position = true →
      (manager.setId hash index true).trackerCacheIds other position = true := by
    intro other position hid
    by_cases hsame : other = hash ∧ position = index
    · obtain ⟨rfl, rfl⟩ := hsame
      exact setId_self
    · rw [setId_of_ne hsame]
      exact hid
  refine ⟨⟨?_, ?_, ?_, h.uploading⟩, hself⟩
  · intro other position found hfound
    by_cases hsame : other = hash ∧ position = index
    · obtain ⟨rfl, rfl⟩ := hsame
      rw [hself] at hfound
      exact ⟨hindex, setId_self, Option.some.inj hfound ▸ hpath⟩
    · rw [hother other position hsame] at hfound
      obtain ⟨hlt, hid, hold⟩ := h.registered other position found hfound
      exact ⟨hlt, hids _ _ hid, hold⟩
  · intro upload hupload
    obtain ⟨hlt, hid, hold, hgone⟩ := h.flying upload hupload
    refine ⟨hlt, hids _ _ hid, hold, ?_⟩
    rw [hother, hgone]
    rintro ⟨hhash, hposition⟩
    rw [hhash, hposition, hfree] at hid
    cases hid
  · intro other position hid
    by_cases hsame : other = hash ∧ position = index
    · obtain ⟨rfl, rfl⟩ := hsame
      exact Or.inl ⟨cache, hself⟩
    · rw [hother other position hsame]
      refine h.taken other position ?_
      rw [← setId_of_ne hsame]
      exact hid

theorem createCache_cases {config : TrackerConfig} {env : FlushEnv}
    {created : Option TrackerCache}
    (h : manager.createCache ext hash index config env = (created, next)) :
    (created = none ∧ ∃ disk, (env.delete index = true → disk = none)
        ∧ next = manager.setFile (cacheName hash index) disk)
      ∨ ∃ cache left, created = some cache
        ∧ TrackerCache.construct ext (cacheName hash index) hash (some config)
          (manager.files (cacheName hash index)) (env.create index) (env.address index)
            = (some cache, left)
        ∧ next
          = ((manager.setFile (cacheName hash index) (some left)).setId hash index true).emplace
            hash index cache := by
  unfold createCache at h
  cases hconstruct : TrackerCache.construct ext (cacheName hash index) hash (some config)
      (manager.files (cacheName hash index)) (env.create index) (env.address index) with
  | mk made left =>
      simp only [hconstruct] at h
      cases made with
      | some cache =>
          obtain ⟨rfl, rfl⟩ := Prod.mk.inj h
          exact Or.inr ⟨cache, left, rfl, rfl, rfl⟩
      | none =>
          obtain ⟨rfl, rfl⟩ := Prod.mk.inj h
          refine Or.inl ⟨rfl, ?_⟩
          split
          · refine ⟨none, fun _ => rfl, ?_⟩
            simp only [setFile]
            congr 1
            funext name
            split <;> rfl
          · rename_i hkept
            exact ⟨some left, fun hdelete => absurd hdelete hkept, rfl⟩

theorem Slots.flushTracker (h : manager.Slots) (message : TrackMessageImpl) (env : FlushEnv) :
    (manager.flushTracker ext message env).2.Slots := by
  cases hconfig : message.config with
  | none =>
      simp only [Manager.flushTracker, hconfig]
      exact h
  | some config =>
      have hsettled := @flushTracker_rule ext message env Slots (fun _ => Slots) manager config
        hconfig (fun _ _ hslots => hslots.upload _ _ _) ?_ ?_ ?_ ?_ h
      · cases hpushed : (manager.flushTracker ext message env).1 with
        | none =>
            rw [hpushed] at hsettled
            exact hsettled
        | some index =>
            rw [hpushed] at hsettled
            exact hsettled
      · intro start index cache next hslots hcache hpush
        have hnext := @Slots.pushInto ext start _ _ _ hslots hcache (env.push index) message
        rw [hpush] at hnext
        exact hnext
      · intro start index cache next hslots hcache hpush
        have hnext := @Slots.pushInto ext start _ _ _ hslots hcache (env.push index) message
        rw [hpush] at hnext
        exact ⟨hnext, hnext.upload _ _ _⟩
      · intro start index next hslots _ _ hcreate
        obtain ⟨_, disk, _, rfl⟩ | ⟨cache, left, hsome, _⟩ := createCache_cases hcreate
        · exact hslots.setFile _ _
        · cases hsome
      · intro start index cache next pushed last hslots hindex hfree hcreate hpush
        obtain ⟨hnone, _⟩ | ⟨made, left, hsome, hconstruct, rfl⟩ := createCache_cases hcreate
        · cases hnone
        obtain rfl := Option.some.inj hsome
        have hpath := TrackerCache.construct_path hconstruct
        obtain ⟨hoccupied, hregistered⟩ :=
          (hslots.setFile (cacheName config.hash index) (some left)).occupy hindex hfree hpath
        have hlast := @Slots.pushInto ext _ _ _ _ hoccupied hregistered (env.push index) message
        rw [hpush] at hlast
        split <;> exact hlast

theorem Slots.inFlight_eq_singleton (h : manager.Slots) {upload : Upload}
    (hupload : manager.inFlight[position]? = some upload) :
    manager.inFlight = [upload] ∧ position = 0 := by
  have hlength := h.uploading
  obtain ⟨hlt, hget⟩ := List.getElem?_eq_some_iff.mp hupload
  have hone : manager.inFlight.length ≤ 1 := by
    rw [hlength]
    split <;> omega
  have hzero : position = 0 := by omega
  subst hzero
  obtain ⟨only, honly⟩ := List.length_eq_one_iff.mp (by omega : manager.inFlight.length = 1)
  simp only [honly, List.getElem_cons_zero] at hget
  exact ⟨by rw [honly, hget], rfl⟩

theorem Slots.land (h : manager.Slots) {upload : Upload} (hupload : manager.inFlight = [upload])
    (hpath : cache.diskCache.path = upload.cache.diskCache.path) :
    (({ manager with inFlight := [], uploading := false } : Manager).emplace upload.hash
      upload.index cache).Slots := by
  let landed : Manager := { manager with inFlight := [], uploading := false }
  obtain ⟨hindex, hid, hold, hnone⟩ := h.flying upload (by rw [hupload]; exact List.mem_cons_self)
  have hself : (landed.emplace upload.hash upload.index cache).registered upload.hash upload.index
      = some cache := @registered_emplace_self landed _ _ _ hnone
  have hother : ∀ other position, ¬ (other = upload.hash ∧ position = upload.index) →
      (landed.emplace upload.hash upload.index cache).registered other position
        = manager.registered other position :=
    fun other position hne => @registered_emplace_of_ne landed _ _ _ _ _ hne
  refine ⟨?_, ?_, ?_, rfl⟩
  · intro other position found hfound
    by_cases hsame : other = upload.hash ∧ position = upload.index
    · obtain ⟨rfl, rfl⟩ := hsame
      have heq := hself.symm.trans hfound
      exact ⟨hindex, hid, Option.some.inj heq ▸ hpath.trans hold⟩
    · have heq := (hother other position hsame).symm.trans hfound
      exact h.registered other position found heq
  · intro other hmem
    cases hmem
  · intro other position hid'
    by_cases hsame : other = upload.hash ∧ position = upload.index
    · obtain ⟨rfl, rfl⟩ := hsame
      exact Or.inl ⟨cache, hself⟩
    · left
      obtain ⟨found, hfound⟩ | ⟨flying, hflying, hhash, hposition⟩ := h.taken other position hid'
      · exact ⟨found, (hother other position hsame).trans hfound⟩
      · rw [hupload, List.mem_singleton] at hflying
        subst hflying
        exact absurd ⟨hhash.symm, hposition.symm⟩ hsame

theorem Slots.free (h : manager.Slots) {upload : Upload} (hupload : manager.inFlight = [upload]) :
    (({ manager with inFlight := [], uploading := false } : Manager).setId upload.hash upload.index
      false).Slots := by
  obtain ⟨_, _, _, hnone⟩ := h.flying upload (by rw [hupload]; exact List.mem_cons_self)
  refine ⟨?_, ?_, ?_, rfl⟩
  · intro other position found hfound
    obtain ⟨hindex, hid, hpath⟩ := h.registered other position found hfound
    refine ⟨hindex, ?_, hpath⟩
    rw [setId_of_ne]
    · exact hid
    · rintro ⟨rfl, rfl⟩
      have hnone' : manager.registered upload.hash upload.index = some found := hfound
      rw [hnone] at hnone'
      cases hnone'
  · intro other hmem
    cases hmem
  · intro other position hid
    by_cases hsame : other = upload.hash ∧ position = upload.index
    · obtain ⟨rfl, rfl⟩ := hsame
      rw [setId_self] at hid
      cases hid
    · rw [setId_of_ne hsame] at hid
      left
      obtain hfound | ⟨flying, hflying, hhash, hposition⟩ := h.taken other position hid
      · exact hfound
      · rw [hupload, List.mem_singleton] at hflying
        subst hflying
        exact absurd ⟨hhash.symm, hposition.symm⟩ hsame

theorem Slots.complete (h : manager.Slots) {success : Bool} {env : CompletionEnv}
    (hcomplete : manager.complete ext position success env = some next) : next.Slots := by
  unfold Manager.complete at hcomplete
  split at hcomplete
  · cases hcomplete
  · rename_i upload hupload
    obtain ⟨hsingle, rfl⟩ := h.inFlight_eq_singleton hupload
    have herase : manager.inFlight.eraseIdx 0 = [] := by rw [hsingle]; rfl
    simp only [herase] at hcomplete
    split at hcomplete
    · split at hcomplete
      · cases hcomplete
      · have hpath :
            ((upload.cache.clear ext (manager.disk upload.cache) env.reset).2.1).diskCache.path
            = upload.cache.diskCache.path := OpenCache.reset_path _ _
        split at hcomplete
        · obtain rfl := Option.some.inj hcomplete
          exact (h.land hsingle hpath).setFile upload.cache.diskCache.path _
        · obtain rfl := Option.some.inj hcomplete
          have hfree := (h.free hsingle).setFile upload.cache.diskCache.path
            (some (upload.cache.clear ext (manager.disk upload.cache) env.reset).2.2)
          unfold destroy
          split
          · exact hfree.setFile _ _
          · exact hfree
    · obtain rfl := Option.some.inj hcomplete
      have hland := @Slots.land manager upload.cache h upload hsingle rfl
      exact ⟨hland.registered, hland.flying, hland.taken, hland.uploading⟩

theorem lt_of_lt_maxCacheCount (h : index < maxCacheCount) : index < 2 ^ 32 :=
  Nat.lt_trans h (by decide)

theorem Slots.paths_pairwise (h : manager.Slots) (hash : UInt64) :
    (manager.trackersCache hash).entries.Pairwise
      fun left right => right.2.diskCache.path ≠ left.2.diskCache.path := by
  refine (manager.trackersCache hash).ascending.imp_of_mem ?_
  intro left right hleft hright hlt hpath
  obtain ⟨hindex, _, hname⟩ := h.registered hash left.1 left.2 (OrderedMap.find_of_mem hleft)
  obtain ⟨hindex', _, hname'⟩ := h.registered hash right.1 right.2 (OrderedMap.find_of_mem hright)
  have hnames : cacheName hash right.1 = cacheName hash left.1 :=
    calc cacheName hash right.1
        = right.2.diskCache.path := hname'.symm
      _ = left.2.diskCache.path := hpath
      _ = cacheName hash left.1 := hname
  have heq := cacheName_inj (lt_of_lt_maxCacheCount hindex') (lt_of_lt_maxCacheCount hindex) hnames
  omega

/-! ### Loading -/

/-- Names the program could have given its files, each listed once. -/
structure ProgramNamed (names : List Str) : Prop where
  nodup : names.Nodup
  named : ∀ name ∈ names, ∃ hash index, index < maxCacheCount ∧ name = cacheName hash index

theorem loadEntry_cases (env : LoadEnv) (hindex : index < maxCacheCount) :
    (∃ disk, manager.loadEntry ext env (cacheName hash index)
        = manager.setFile (cacheName hash index) disk)
      ∨ ∃ cache left disk, manager.files (cacheName hash index) = some disk
        ∧ TrackerCache.construct ext (cacheName hash index) hash none (some disk)
          (env.init (cacheName hash index)) (env.address (cacheName hash index))
            = (some cache, left)
        ∧ manager.loadEntry ext env (cacheName hash index)
          = ((manager.setFile (cacheName hash index) (some left)).setId hash index true).emplace
            hash index cache := by
  have hscan := @scanName_cacheName hash index (lt_of_lt_maxCacheCount hindex)
  cases hfile : manager.files (cacheName hash index) with
  | none =>
      refine Or.inl ⟨none, ?_⟩
      rw [← hfile, setFile_same]
      simp only [loadEntry, hscan, hfile]
  | some disk =>
      cases hconstruct : TrackerCache.construct ext (cacheName hash index) hash none (some disk)
          (env.init (cacheName hash index)) (env.address (cacheName hash index)) with
      | mk made left =>
          cases made with
          | none =>
              refine Or.inl ⟨some left, ?_⟩
              simp only [loadEntry, hscan, hfile, hconstruct]
          | some cache =>
              refine Or.inr ⟨cache, left, disk, rfl, hconstruct, ?_⟩
              simp only [loadEntry, hscan, hfile, hconstruct]
              rfl

theorem slots_empty (files : Str → Option FileData) (trackerGroupSize : UInt32) :
    (Manager.empty files trackerGroupSize).Slots := by
  refine ⟨?_, ?_, ?_, rfl⟩
  · intro hash index cache hcache
    cases hcache
  · intro upload hupload
    cases hupload
  · intro hash index hid
    cases hid

/-- Loading fills slots that are free, one for each name. -/
theorem Slots.syncLoad (h : manager.Slots) {names : List Str} (hnames : ProgramNamed names)
    (hfree : ∀ hash index, index < maxCacheCount → cacheName hash index ∈ names →
      manager.trackerCacheIds hash index = false) (env : LoadEnv) :
    (manager.syncLoadTrackersCache ext names env).Slots := by
  unfold syncLoadTrackersCache
  induction names generalizing manager with
  | nil => exact h
  | cons name rest ih =>
      obtain ⟨hash, index, hindex, rfl⟩ := hnames.named name List.mem_cons_self
      obtain ⟨hnew, hnodup⟩ := List.nodup_cons.mp hnames.nodup
      have hrest : ProgramNamed rest :=
        ⟨hnodup, fun other hother => hnames.named other (List.mem_cons_of_mem _ hother)⟩
      have hslot := hfree hash index hindex List.mem_cons_self
      have hfree' : ∀ other position, position < maxCacheCount → cacheName other position ∈ rest →
          manager.trackerCacheIds other position = false :=
        fun other position hposition hmem =>
          hfree other position hposition (List.mem_cons_of_mem _ hmem)
      rw [List.foldl_cons]
      obtain ⟨disk, heq⟩ | ⟨cache, left, disk, _, hconstruct, heq⟩ :=
        @loadEntry_cases ext manager hash index env hindex
      · rw [heq]
        exact ih (h.setFile _ _) hrest hfree'
      · rw [heq]
        have hoccupied := (h.setFile (cacheName hash index) (some left)).occupy hindex hslot
          (TrackerCache.construct_path hconstruct)
        refine ih hoccupied.1 hrest fun other position hposition hmem => ?_
        have hne : ¬ (other = hash ∧ position = index) := by
          rintro ⟨rfl, rfl⟩
          exact hnew hmem
        exact (setId_of_ne hne).trans (hfree' other position hposition hmem)

/-! ### Every run -/

/-- The manager from its start on, over files the program could have named. -/
def system (ext : Externals) : System Manager ManagerOp where
  init manager := ∃ files names env trackerGroupSize, ProgramNamed names
    ∧ manager = (Manager.empty files trackerGroupSize).syncLoadTrackersCache ext names env
  step manager op := manager.step ext op

/-- A process that starts anew finds files the program could have named. -/
def Restartable (_ : Manager) : ManagerOp → Prop
  | .restart _ names _ => ProgramNamed names
  | _ => True

theorem Slots.step (h : manager.Slots) {op : ManagerOp} (hallowed : Restartable manager op)
    (hstep : manager.step ext op = some next) : next.Slots := by
  cases op with
  | flush message env =>
      obtain rfl := Option.some.inj hstep
      exact h.flushTracker message env
  | check order clock =>
      obtain rfl := Option.some.inj hstep
      simp only [checkAndUploadTrackers]
      repeat' split
      all_goals first | exact h | exact h.upload _ _ _
  | complete position success env => exact h.complete hstep
  | restart files names env =>
      obtain rfl := Option.some.inj hstep
      exact (slots_empty files _).syncLoad hallowed (fun _ _ _ _ => rfl) env

theorem slots_of_reaches (hreach : (system ext).Reaches Restartable manager) : manager.Slots := by
  refine hreach.invariant Slots ?_ ?_
  · rintro state ⟨files, names, env, trackerGroupSize, hnames, rfl⟩
    exact (slots_empty files trackerGroupSize).syncLoad hnames (fun _ _ _ _ => rfl) env
  · intro state op next hslots hallowed hstep
    exact hslots.step hallowed hstep

/-- The cache objects that exist for a slot: registered, or held by an upload. -/
def live (manager : Manager) (hash : UInt64) (index : Nat) : List TrackerCache :=
  (manager.registered hash index).toList
    ++ (manager.inFlight.filter fun upload =>
      upload.hash = hash ∧ upload.index = index).map (·.cache)

theorem Slots.inFlight_of_mem (h : manager.Slots) {upload : Upload}
    (hupload : upload ∈ manager.inFlight) : manager.inFlight = [upload] := by
  obtain ⟨position, hget⟩ := List.mem_iff_getElem?.mp hupload
  exact (h.inFlight_eq_singleton hget).1

/-- A slot that no upload holds has what is registered for it. -/
theorem live_of_not_flying {hash : UInt64} {index : Nat}
    (hnobody : ∀ upload ∈ manager.inFlight, ¬ (upload.hash = hash ∧ upload.index = index)) :
    manager.live hash index = (manager.registered hash index).toList := by
  have hnone : manager.inFlight.filter
      (fun upload => upload.hash = hash ∧ upload.index = index) = [] := by
    rw [List.filter_eq_nil_iff]
    exact fun upload hupload hat => hnobody upload hupload (of_decide_eq_true hat)
  rw [live, hnone, List.map_nil, List.append_nil]

theorem Slots.live_cases (h : manager.Slots) (hash : UInt64) (index : Nat) :
    (manager.trackerCacheIds hash index = false ∧ manager.live hash index = [])
      ∨ ∃ cache, manager.trackerCacheIds hash index = true ∧ manager.live hash index = [cache]
        ∧ index < maxCacheCount ∧ cache.diskCache.path = cacheName hash index := by
  cases hid : manager.trackerCacheIds hash index with
  | false =>
      left
      have hnone : manager.registered hash index = none := by
        cases hfound : manager.registered hash index with
        | none => rfl
        | some found =>
            rw [(h.registered hash index found hfound).2.1] at hid
            cases hid
      have hnobody : ∀ upload ∈ manager.inFlight,
          ¬ (upload.hash = hash ∧ upload.index = index) := by
        rintro upload hupload ⟨rfl, rfl⟩
        rw [(h.flying upload hupload).2.1] at hid
        cases hid
      refine ⟨rfl, ?_⟩
      rw [live_of_not_flying hnobody, hnone, Option.toList_none]
  | true =>
      right
      obtain ⟨cache, hcache⟩ | ⟨upload, hupload, rfl, rfl⟩ := h.taken hash index hid
      · obtain ⟨hindex, _, hpath⟩ := h.registered hash index cache hcache
        have hnobody : ∀ upload ∈ manager.inFlight,
            ¬ (upload.hash = hash ∧ upload.index = index) := by
          rintro upload hupload ⟨rfl, rfl⟩
          rw [(h.flying upload hupload).2.2.2] at hcache
          cases hcache
        refine ⟨cache, rfl, ?_, hindex, hpath⟩
        rw [live_of_not_flying hnobody, hcache, Option.toList_some]
      · obtain ⟨hindex, _, hpath, hnone⟩ := h.flying upload hupload
        refine ⟨upload.cache, rfl, ?_, hindex, hpath⟩
        simp [live, hnone, h.inFlight_of_mem hupload]

/-- **The slot invariant and the single upload.** In every reachable state a slot is taken exactly
when one cache object exists for it, no slot has two, no two objects are on one file, and an upload
is marked as running exactly when one is in flight. -/
theorem slots_and_single_upload (hreach : (system ext).Reaches Restartable manager) :
    (∀ hash index, manager.trackerCacheIds hash index = true
        ↔ (manager.live hash index).length = 1)
      ∧ (∀ hash index, (manager.live hash index).length ≤ 1)
      ∧ (∀ hash index hash' index', ∀ cache ∈ manager.live hash index,
          ∀ cache' ∈ manager.live hash' index', cache.diskCache.path = cache'.diskCache.path →
          hash = hash' ∧ index = index')
      ∧ (manager.uploading = true ↔ manager.inFlight.length = 1)
      ∧ manager.inFlight.length ≤ 1 := by
  have hslots := slots_of_reaches hreach
  have huploading := hslots.uploading
  refine ⟨?_, ?_, ?_, ?_, ?_⟩
  · intro hash index
    obtain ⟨hid, hlive⟩ | ⟨cache, hid, hlive, _⟩ := hslots.live_cases hash index
    · simp [hid, hlive]
    · simp [hid, hlive]
  · intro hash index
    obtain ⟨_, hlive⟩ | ⟨cache, _, hlive, _⟩ := hslots.live_cases hash index
    · simp [hlive]
    · simp [hlive]
  · intro hash index hash' index' cache hcache cache' hcache' hsame
    obtain ⟨_, hlive⟩ | ⟨only, _, hlive, hindex, hpath⟩ := hslots.live_cases hash index
    · rw [hlive] at hcache
      cases hcache
    obtain ⟨_, hlive'⟩ | ⟨only', _, hlive', hindex', hpath'⟩ := hslots.live_cases hash' index'
    · rw [hlive'] at hcache'
      cases hcache'
    rw [hlive, List.mem_singleton] at hcache
    rw [hlive', List.mem_singleton] at hcache'
    subst hcache hcache'
    apply cacheName_inj (lt_of_lt_maxCacheCount hindex) (lt_of_lt_maxCacheCount hindex')
    calc cacheName hash index
        = cache.diskCache.path := hpath.symm
      _ = cache'.diskCache.path := hsame
      _ = cacheName hash' index' := hpath'
  · rw [huploading]
    split <;> simp_all
  · rw [huploading]
    split <;> omega

end Manager

/-! ### Two caches of one configuration -/

def FlushEnv.ideal : FlushEnv :=
  ⟨fun _ => 9, fun _ => PushEnv.ideal, fun _ => InitEnv.ideal, fun _ => true, id⟩

def twoCaches : List ManagerOp :=
  [.flush (plainMessage [118]) FlushEnv.ideal, .check [plainConfig.hash] fun _ => 9,
    .flush (plainMessage [119]) FlushEnv.ideal]

theorem reaches_of_run {ops : List ManagerOp} {last : Manager}
    (hops : ∀ op ∈ ops, ∀ manager, Manager.Restartable manager op)
    (hrun : ops.foldlM (Manager.step wireFormat) (Manager.empty (fun _ => none) 1) = some last) :
    (Manager.system wireFormat).Reaches Manager.Restartable last := by
  have hinit : (Manager.system wireFormat).Reaches Manager.Restartable
      (Manager.empty (fun _ => none) 1) :=
    .init ⟨fun _ => none, [], ⟨fun _ => InitEnv.ideal, fun _ => 0⟩, 1,
      ⟨List.nodup_nil, fun _ hname => by cases hname⟩, rfl⟩
  exact hinit.foldlM hops hrun

namespace Manager

theorem slots_and_single_upload_two_caches :
    ∃ manager, twoCaches.foldlM (step wireFormat) (Manager.empty (fun _ => none) 1) = some manager
      ∧ manager.uploading = true ∧ manager.inFlight.length = 1
      ∧ (manager.live plainConfig.hash 0).length = 1 ∧ (manager.live plainConfig.hash 1).length = 1
      := by
  have hrun : (twoCaches.foldlM (step wireFormat) (Manager.empty (fun _ => none) 1)).map
      (fun manager => (manager.uploading, manager.trackerCacheIds plainConfig.hash 0,
        manager.trackerCacheIds plainConfig.hash 1)) = some (true, true, true) := by decide +kernel
  obtain ⟨manager, hmanager, hlast⟩ := Option.map_eq_some_iff.mp hrun
  obtain ⟨huploading, hids⟩ := Prod.mk.inj hlast
  obtain ⟨hfirst, hsecond⟩ := Prod.mk.inj hids
  have hreach := reaches_of_run (by simp [twoCaches, Restartable]) hmanager
  obtain ⟨htaken, _, _, hflag, _⟩ := slots_and_single_upload hreach
  exact ⟨manager, hmanager, huploading, hflag.mp huploading, (htaken _ _).mp hfirst,
    (htaken _ _).mp hsecond⟩

end Manager

end TapSdk.Tracker
