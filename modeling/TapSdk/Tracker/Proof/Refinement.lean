import TapSdk.Tracker.Proof.History
import TapSdk.Tracker.Proof.Slots

/-!
# The files behind the slots

`Faithful` relates the manager to an abstract account of what each slot contains: every cache
object, registered or in flight, sits on a file that holds exactly the contents of its slot, and a
free slot has no file. All file operations succeed from here on, and records are at most 64 KiB
long. While the directory is being scanned, some slots are still `pending`: their files are there,
but not yet opened.
-/

namespace TapSdk.Tracker

open Library

variable {ext : Externals}

abbrev Contents := UInt64 → Nat → List TrackMessageImpl

def Contents.set (contents : Contents) (hash : UInt64) (index : Nat)
    (messages : List TrackMessageImpl) : Contents :=
  fun other position =>
    if other = hash ∧ position = index then messages else contents other position

theorem Contents.set_self (contents : Contents) (hash : UInt64) (index : Nat)
    (messages : List TrackMessageImpl) :
    contents.set hash index messages hash index = messages := by
  simp [set]

theorem Contents.set_of_ne {contents : Contents} {hash other : UInt64} {index position : Nat}
    {messages : List TrackMessageImpl} (h : ¬ (other = hash ∧ position = index)) :
    contents.set hash index messages other position = contents other position := by
  simp [set, h]

theorem Contents.set_same (contents : Contents) (hash : UInt64) (index : Nat) :
    contents.set hash index (contents hash index) = contents := by
  funext other position
  by_cases hsame : other = hash ∧ position = index
  · rw [hsame.1, hsame.2, set_self]
  · rw [set_of_ne hsame]

namespace Manager

variable {manager next : Manager} {hash other : UInt64} {index position : Nat}
  {cache changed : TrackerCache} {contents : Contents} {pending : List Str}
  {strings : TrackDiskCacheConfig} {messages : List TrackMessageImpl} {disk : FileData}

/-- The file under the object holds `messages`. -/
def Stores (ext : Externals) (manager : Manager) (hash : UInt64) (cache : TrackerCache)
    (messages : List TrackMessageImpl) : Prop :=
  ∃ strings disk, TrackDiskCacheConfig.freshHash strings = hash
    ∧ OpenCache.ConfigFits ext strings ∧ manager.files cache.diskCache.path = some disk
    ∧ (cache.opened disk).Holds ext strings messages

/-- The file of the slot, not open, holds `messages`. -/
def Rests (ext : Externals) (files : Str → Option FileData) (hash : UInt64) (index : Nat)
    (messages : List TrackMessageImpl) : Prop :=
  ∃ strings disk, TrackDiskCacheConfig.freshHash strings = hash
    ∧ OpenCache.ConfigFits ext strings ∧ files (cacheName hash index) = some disk
    ∧ FileHolds ext disk strings messages

structure Faithful (ext : Externals) (contents : Contents) (pending : List Str)
    (manager : Manager) : Prop where
  slots : manager.Slots
  registered : ∀ hash index cache, manager.registered hash index = some cache →
    manager.Stores ext hash cache (contents hash index)
  flying : ∀ upload ∈ manager.inFlight,
    manager.Stores ext upload.hash upload.cache (contents upload.hash upload.index)
      ∧ ∀ group, upload.request = some group →
        group.logs.map (·.contents) = (contents upload.hash upload.index).map (·.proto.logged)
  free : ∀ hash index, manager.trackerCacheIds hash index = false →
    (index < maxCacheCount ∧ cacheName hash index ∈ pending
        ∧ Rests ext manager.files hash index (contents hash index))
      ∨ (contents hash index = []
        ∧ (index < maxCacheCount → manager.files (cacheName hash index) = none))
  named : ∀ name, manager.files name ≠ none →
    ∃ hash index, index < maxCacheCount ∧ name = cacheName hash index

/-! ### One slot at a time -/

theorem Stores.of_files (h : manager.Stores ext hash cache messages)
    (hfiles : next.files cache.diskCache.path = manager.files cache.diskCache.path) :
    next.Stores ext hash cache messages := by
  obtain ⟨strings, disk, hhash, hfits, hfile, hholds⟩ := h
  exact ⟨strings, disk, hhash, hfits, hfiles.trans hfile, hholds⟩

theorem Stores.disk_eq (h : manager.Stores ext hash cache messages) :
    ∃ strings, TrackDiskCacheConfig.freshHash strings = hash ∧ OpenCache.ConfigFits ext strings
      ∧ manager.files cache.diskCache.path = some (manager.disk cache)
      ∧ (cache.opened (manager.disk cache)).Holds ext strings messages := by
  obtain ⟨strings, disk, hhash, hfits, hfile, hholds⟩ := h
  have hdisk : manager.disk cache = disk := by rw [Manager.disk, hfile, Option.getD_some]
  rw [hdisk]
  exact ⟨strings, hhash, hfits, hfile, hholds⟩

theorem cacheName_ne (hindex : index < maxCacheCount) (hposition : position < maxCacheCount)
    (h : ¬ (other = hash ∧ position = index)) : cacheName other position ≠ cacheName hash index :=
  fun heq =>
    h (cacheName_inj (lt_of_lt_maxCacheCount hposition) (lt_of_lt_maxCacheCount hindex) heq)

/-- **One slot at a time.** A step that touches only one slot, and leaves there what the account
says, keeps the manager faithful. -/
theorem Faithful.at_slot (h : manager.Faithful ext contents pending) (hslots : next.Slots)
    (hindex : index < maxCacheCount)
    (hfiles : ∀ name, name ≠ cacheName hash index → next.files name = manager.files name)
    (hregistered : ∀ other position, ¬ (other = hash ∧ position = index) →
      next.registered other position = manager.registered other position)
    (hids : ∀ other position, ¬ (other = hash ∧ position = index) →
      next.trackerCacheIds other position = manager.trackerCacheIds other position)
    (hflying : ∀ upload ∈ next.inFlight, ¬ (upload.hash = hash ∧ upload.index = index) →
      upload ∈ manager.inFlight)
    {pending' : List Str}
    (hpending : ∀ name ∈ pending, name ∈ pending' ∨ name = cacheName hash index)
    (hself : ∀ cache, next.registered hash index = some cache →
      next.Stores ext hash cache messages)
    (hself' : ∀ upload ∈ next.inFlight, upload.hash = hash → upload.index = index →
      next.Stores ext hash upload.cache messages ∧ ∀ group, upload.request = some group →
        group.logs.map (·.contents) = messages.map (·.proto.logged))
    (htaken : next.trackerCacheIds hash index = true) :
    next.Faithful ext (contents.set hash index messages) pending' := by
  have hfile : ∀ other position, position < maxCacheCount → ¬ (other = hash ∧ position = index) →
      next.files (cacheName other position) = manager.files (cacheName other position) :=
    fun other position hposition hne => hfiles _ (cacheName_ne hindex hposition hne)
  refine ⟨hslots, ?_, ?_, ?_, ?_⟩
  · intro other position found hfound
    by_cases hsame : other = hash ∧ position = index
    · obtain ⟨rfl, rfl⟩ := hsame
      rw [Contents.set_self]
      exact hself found hfound
    · rw [hregistered other position hsame] at hfound
      obtain ⟨hposition, _, hname⟩ := h.slots.registered other position found hfound
      rw [Contents.set_of_ne hsame]
      refine (h.registered other position found hfound).of_files ?_
      rw [hname]
      exact hfile other position hposition hsame
  · intro upload hupload
    by_cases hsame : upload.hash = hash ∧ upload.index = index
    · rw [hsame.1, hsame.2, Contents.set_self]
      exact hself' upload hupload hsame.1 hsame.2
    · have hold := hflying upload hupload hsame
      obtain ⟨hposition, _, hname, _⟩ := h.slots.flying upload hold
      rw [Contents.set_of_ne hsame]
      obtain ⟨hstores, hgroup⟩ := h.flying upload hold
      refine ⟨hstores.of_files ?_, hgroup⟩
      rw [hname]
      exact hfile upload.hash upload.index hposition hsame
  · intro other position hfree
    have hne : ¬ (other = hash ∧ position = index) := by
      rintro ⟨rfl, rfl⟩
      rw [htaken] at hfree
      cases hfree
    rw [Contents.set_of_ne hne]
    rw [hids other position hne] at hfree
    rcases h.free other position hfree with ⟨hposition, hmem, hrests⟩ | ⟨hempty, habsent⟩
    · obtain ⟨strings', disk', hhash', hfits', hfile', hholds'⟩ := hrests
      have hmem' := (hpending _ hmem).resolve_right (cacheName_ne hindex hposition hne)
      exact Or.inl ⟨hposition, hmem', strings', disk', hhash', hfits',
        (hfile other position hposition hne).trans hfile', hholds'⟩
    · exact Or.inr ⟨hempty, fun hposition =>
        (hfile other position hposition hne).trans (habsent hposition)⟩
  · intro name hpresent
    by_cases hsame : name = cacheName hash index
    · exact ⟨hash, index, hindex, hsame⟩
    · rw [hfiles name hsame] at hpresent
      exact h.named name hpresent

theorem Faithful.replace (h : manager.Faithful ext contents pending)
    (hcache : manager.registered hash index = some cache)
    (hpath : changed.diskCache.path = cache.diskCache.path)
    (hhash : strings.freshHash = hash) (hfits : OpenCache.ConfigFits ext strings)
    (hholds : (changed.opened disk).Holds ext strings messages) :
    ((manager.setFile cache.diskCache.path (some disk)).setCaches hash
      ((manager.trackersCache hash).modify index changed)).Faithful ext
        (contents.set hash index messages) pending := by
  obtain ⟨hindex, hid, hname⟩ := h.slots.registered hash index cache hcache
  let filed := manager.setFile cache.diskCache.path (some disk)
  have hself : (filed.setCaches hash ((filed.trackersCache hash).modify index changed)).registered
      hash index = some changed := @registered_modify_self filed _ _ _ cache hcache
  apply h.at_slot ((h.slots.setFile _ _).modify hcache hpath) hindex
  · intro name hne
    exact setFile_files_of_ne (hname ▸ hne)
  · intro other position hne
    exact @registered_modify_of_ne filed _ _ _ _ _ hne
  · exact fun _ _ _ => rfl
  · exact fun _ hupload _ => hupload
  · exact fun _ hmem => Or.inl hmem
  · intro found hfound
    obtain rfl := Option.some.inj (hself.symm.trans hfound)
    refine ⟨strings, disk, hhash, hfits, ?_, hholds⟩
    rw [hpath]
    exact setFile_files_self
  · rintro upload hupload rfl rfl
    rw [(h.slots.flying upload hupload).2.2.2] at hcache
    cases hcache
  · exact hid

theorem Faithful.occupy (h : manager.Faithful ext contents pending) (hindex : index < maxCacheCount)
    (hfree : manager.trackerCacheIds hash index = false)
    (hpath : cache.diskCache.path = cacheName hash index)
    (hhash : strings.freshHash = hash) (hfits : OpenCache.ConfigFits ext strings)
    (hholds : (cache.opened disk).Holds ext strings (contents hash index))
    {pending' : List Str}
    (hpending : ∀ name ∈ pending, name ∈ pending' ∨ name = cacheName hash index) :
    (((manager.setFile (cacheName hash index) (some disk)).setId hash index true).emplace hash index
      cache).Faithful ext contents pending'
    ∧ (((manager.setFile (cacheName hash index) (some disk)).setId hash index true).emplace hash
      index cache).registered hash index = some cache := by
  let filed := manager.setFile (cacheName hash index) (some disk)
  obtain ⟨hslots, hself⟩ := (h.slots.setFile (cacheName hash index) (some disk)).occupy hindex hfree
    hpath
  refine ⟨?_, hself⟩
  rw [← contents.set_same hash index]
  apply h.at_slot hslots hindex
  · exact fun _ hne => setFile_files_of_ne hne
  · exact fun _ _ hne => @registered_emplace_of_ne (filed.setId hash index true) _ _ _ _ _ hne
  · exact fun _ _ hne => @setId_of_ne filed _ _ _ _ _ hne
  · exact fun _ hupload _ => hupload
  · exact hpending
  · intro found hfound
    obtain rfl := Option.some.inj (hself.symm.trans hfound)
    refine ⟨strings, disk, hhash, hfits, ?_, hholds⟩
    rw [hpath]
    exact setFile_files_self
  · rintro upload hupload rfl rfl
    rw [(h.slots.flying upload hupload).2.1] at hfree
    cases hfree
  · exact @setId_self filed hash index true

/-! ### Uploading -/

theorem Stores.request_logs (h : manager.Stores ext hash cache messages) (hlossless : ext.Lossless)
    {clock : Nat → UInt32} {group : LogGroup}
    (hrequest : cache.request ext (manager.disk cache) clock = some group) :
    group.logs.map (·.contents) = messages.map (·.proto.logged) := by
  obtain ⟨strings, _, _, _, hholds⟩ := h.disk_eq
  have hload := hholds.load hlossless clock
  have hgroup : (cache.opened (manager.disk cache)).logGroup ext cache.config clock
      = some group := by
    unfold TrackerCache.request at hrequest
    dsimp only at hrequest
    split at hrequest
    · cases hrequest
    · split at hrequest
      · cases hrequest
      · exact hrequest
  unfold OpenCache.logGroup at hgroup
  rw [hload] at hgroup
  split at hgroup
  · cases hgroup
  · obtain rfl := Option.some.inj hgroup
    rw [List.map_map]
    calc (restamp (cache.opened (manager.disk cache)).object.config clock 0 messages).map
            ((·.contents) ∘ (·.toLog))
        = ((restamp (cache.opened (manager.disk cache)).object.config clock 0 messages).map
            (·.proto)).map (·.logged) := by rw [List.map_map]; rfl
      _ = (messages.map (·.proto)).map (·.logged) := by rw [restamp_proto]
      _ = messages.map (·.proto.logged) := by rw [List.map_map]; rfl

theorem Faithful.upload (h : manager.Faithful ext contents pending) (hlossless : ext.Lossless)
    (hash : UInt64) (index : Nat) (clock : Nat → UInt32) :
    (manager.uploadTrackerCacheAsync ext hash index clock).Faithful ext contents pending := by
  have hslots := @Slots.upload ext manager h.slots hash index clock
  obtain heq | ⟨cache, huploading, hcache, heq⟩ :=
    uploadTrackerCacheAsync_cases ext manager hash index clock
  · rw [heq]
    exact h
  rw [heq] at hslots ⊢
  have hnil := h.slots.inFlight_eq_nil huploading
  have hstores := h.registered hash index cache hcache
  obtain ⟨hindex, hid, _⟩ := h.slots.registered hash index cache hcache
  rw [← contents.set_same hash index]
  apply h.at_slot hslots hindex
  · exact fun _ _ => rfl
  · exact fun _ _ hne => registered_erase_of_ne hne
  · exact fun _ _ _ => rfl
  · intro upload hupload hne
    rw [hnil, List.nil_append, List.mem_singleton] at hupload
    subst hupload
    exact absurd ⟨rfl, rfl⟩ hne
  · exact fun _ hmem => Or.inl hmem
  · intro found hfound
    have hgone : (manager.setCaches hash ((manager.trackersCache hash).erase index)).registered hash
        index = some found := hfound
    rw [registered_erase_self] at hgone
    cases hgone
  · intro upload hupload _ _
    rw [hnil, List.nil_append, List.mem_singleton] at hupload
    subst hupload
    exact ⟨hstores.of_files rfl, fun group hgroup => hstores.request_logs hlossless hgroup⟩
  · exact hid

theorem Faithful.land (h : manager.Faithful ext contents pending) {upload : Upload}
    (hupload : manager.inFlight = [upload])
    (hpath : changed.diskCache.path = upload.cache.diskCache.path)
    (hhash : strings.freshHash = upload.hash) (hfits : OpenCache.ConfigFits ext strings)
    (hholds : (changed.opened disk).Holds ext strings messages) :
    ((({ manager with inFlight := [], uploading := false } : Manager).setFile
      upload.cache.diskCache.path (some disk)).emplace upload.hash upload.index changed).Faithful
        ext (contents.set upload.hash upload.index messages) pending := by
  have hmem : upload ∈ manager.inFlight := by
    rw [hupload]
    exact List.mem_cons_self
  obtain ⟨hindex, hid, hname, hnone⟩ := h.slots.flying upload hmem
  let landed := ({ manager with inFlight := [], uploading := false } : Manager).setFile
    upload.cache.diskCache.path (some disk)
  have hself : (landed.emplace upload.hash upload.index changed).registered upload.hash upload.index
      = some changed := @registered_emplace_self landed _ _ _ hnone
  apply h.at_slot ((h.slots.land hupload hpath).setFile upload.cache.diskCache.path (some disk))
    hindex
  · intro name hne
    exact @setFile_files_of_ne { manager with inFlight := [], uploading := false } _ _ _
      (hname ▸ hne)
  · exact fun _ _ hne => @registered_emplace_of_ne landed _ _ _ _ _ hne
  · exact fun _ _ _ => rfl
  · intro other hother
    cases hother
  · exact fun _ hmem => Or.inl hmem
  · intro found hfound
    obtain rfl := Option.some.inj (hself.symm.trans hfound)
    refine ⟨strings, disk, hhash, hfits, ?_, hholds⟩
    rw [hpath]
    exact @setFile_files_self { manager with inFlight := [], uploading := false } _ _
  · intro other hother
    cases hother
  · exact hid

/-! ### Flushing -/

variable {message : TrackMessageImpl}

theorem Faithful.pushInto (h : manager.Faithful ext contents pending)
    (hcache : manager.registered hash index = some cache) {env : PushEnv} (henv : env.Succeeds)
    (hsmall : recordHeaderSize + message.getSerializeSize ext ≤ cacheCapability) {pushed : Bool}
    (hpush : manager.pushInto ext hash index cache env message = (pushed, next)) :
    if pushed then
      next.Faithful ext (contents.set hash index (contents hash index ++ [message])) pending
    else next.Faithful ext contents pending := by
  obtain ⟨strings, hhash, hfits, _, hholds⟩ := (h.registered hash index cache hcache).disk_eq
  rw [pushInto_eq hcache] at hpush
  by_cases hmax : (cache.opened (manager.disk cache)).nextSize ext message > maxCacheSize
  · rw [OpenCache.push_of_gt hmax] at hpush
    obtain ⟨rfl, rfl⟩ := Prod.mk.inj hpush
    have hreplaced := @Faithful.replace ext manager hash index cache
      { cache with diskCache := (cache.opened (manager.disk cache)).object } contents pending
      strings (contents hash index) (cache.opened (manager.disk cache)).disk h hcache rfl hhash
      hfits hholds
    rw [contents.set_same] at hreplaced
    exact hreplaced
  · have hend := hholds.layout.fits
    have hareaEnd := hholds.areaEnd
    have hsize := hholds.whole.size_eq
    obtain ⟨last, hlast, hnext, hpath⟩ := @OpenCache.Holds.push ext _ _ _ message hholds env henv
      (Nat.not_lt.mp hmax) (by rw [OpenCache.nextSize_eq]; omega)
    rw [hlast] at hpush
    obtain ⟨rfl, rfl⟩ := Prod.mk.inj hpush
    exact @Faithful.replace ext manager hash index cache { cache with diskCache := last.object }
      contents pending strings _ last.disk h hcache hpath hhash hfits hnext

theorem Faithful.createCache (h : manager.Faithful ext contents []) {config : TrackerConfig}
    {env : FlushEnv} (hindex : index < maxCacheCount)
    (hfree : manager.trackerCacheIds config.hash index = false)
    (henv : (env.create index).Succeeds) (hdelete : env.delete index = true)
    {created : Option TrackerCache}
    (hcreate : manager.createCache ext config.hash index config env = (created, next)) :
    next.Faithful ext contents []
      ∧ ∀ cache, created = some cache → next.registered config.hash index = some cache := by
  obtain ⟨hempty, habsent⟩ : contents config.hash index = []
      ∧ manager.files (cacheName config.hash index) = none := by
    rcases h.free config.hash index hfree with ⟨_, hmem, _⟩ | ⟨hempty, habsent⟩
    · cases hmem
    · exact ⟨hempty, habsent hindex⟩
  obtain ⟨rfl, disk, hgone, rfl⟩ | ⟨cache, left, rfl, hconstruct, rfl⟩ := createCache_cases hcreate
  · rw [hgone hdelete, ← habsent, setFile_same]
    refine ⟨h, ?_⟩
    intro cache hcache
    cases hcache
  · have hfits : OpenCache.ConfigFits ext config.strings := by
      by_contra hunfit
      have hrefused := @OpenCache.openAt_absent_unfit ext config.hash config hunfit _ henv
        (cacheName config.hash index)
      unfold TrackerCache.construct at hconstruct
      rw [habsent] at hconstruct
      split at hconstruct
      · cases hconstruct
      · rename_i hopen
        rw [hopen] at hrefused
        cases hrefused
    obtain ⟨made, hopen, hholds, hpath, _⟩ :=
      @OpenCache.openAt_absent ext config.hash config config.hash_eq hfits _ henv
        (cacheName config.hash index)
    obtain ⟨given, hgiven, _⟩ := hholds.config
    simp only [TrackerCache.construct, habsent, hopen, hgiven, Option.map_some, Prod.mk.injEq,
      Option.some.injEq] at hconstruct
    obtain ⟨rfl, rfl⟩ := hconstruct
    rw [← hempty] at hholds
    obtain ⟨hoccupied, hregistered⟩ := @Faithful.occupy ext manager config.hash index
      ⟨made.object, given, env.address index⟩ contents [] config.strings made.disk h hindex hfree
      hpath config.hash_eq.symm hfits hholds [] fun _ hmem => Or.inl hmem
    exact ⟨hoccupied, fun found hfound => Option.some.inj hfound ▸ hregistered⟩

end Manager

structure FlushEnv.Succeeds (env : FlushEnv) : Prop where
  push : ∀ index, (env.push index).Succeeds
  create : ∀ index, (env.create index).Succeeds
  delete : ∀ index, env.delete index = true

namespace Manager

variable {manager : Manager} {contents : Contents} {message : TrackMessageImpl}
  {config : TrackerConfig} {env : FlushEnv}

/-- **A flush puts its message at the end of one slot**, or nowhere. -/
theorem Faithful.flushTracker (h : manager.Faithful ext contents []) (hlossless : ext.Lossless)
    (hconfig : message.config = some config) (henv : env.Succeeds)
    (hsmall : recordHeaderSize + message.getSerializeSize ext ≤ cacheCapability) :
    Settles (Faithful ext contents []) (fun index =>
        Faithful ext (contents.set config.hash index (contents config.hash index ++ [message])) [])
      (manager.flushTracker ext message env).1 (manager.flushTracker ext message env).2 := by
  apply flushTracker_rule hconfig
  · exact fun start index hstart => hstart.upload hlossless _ _ _
  · intro start index cache next hstart hcache hpush
    exact hstart.pushInto hcache (henv.push index) hsmall hpush
  · intro start index cache next hstart hcache hpush
    have hnext := hstart.pushInto hcache (henv.push index) hsmall hpush
    exact ⟨hnext, Faithful.upload hnext hlossless _ _ _⟩
  · intro start index next hstart hindex hfree hcreate
    exact (hstart.createCache hindex hfree (henv.create index) (henv.delete index) hcreate).1
  · intro start index cache next pushed last hstart hindex hfree hcreate hpush
    obtain ⟨hnext, hregistered⟩ :=
      hstart.createCache hindex hfree (henv.create index) (henv.delete index) hcreate
    exact hnext.pushInto (hregistered cache rfl) (henv.push index) hsmall hpush
  · exact h

/-! ### Completions -/

/-- **A completion empties the slot it uploaded, or leaves it as it is.** -/
theorem Faithful.complete (h : manager.Faithful ext contents []) {position : Nat} {success : Bool}
    {outcome : CompletionEnv} (houtcome : outcome.reset.Succeeds) {next : Manager}
    (hcomplete : manager.complete ext position success outcome = some next) :
    ∃ upload, manager.inFlight[position]? = some upload
      ∧ (success = true → upload.request ≠ none)
      ∧ next.Faithful ext
        (if success then contents.set upload.hash upload.index [] else contents) [] := by
  unfold Manager.complete at hcomplete
  split at hcomplete
  · cases hcomplete
  rename_i upload hupload
  obtain ⟨hsingle, rfl⟩ := h.slots.inFlight_eq_singleton hupload
  have hmem : upload ∈ manager.inFlight := List.mem_of_getElem? hupload
  obtain ⟨strings, hhash, hfits, hfile, hholds⟩ := (h.flying upload hmem).1.disk_eq
  have herase : manager.inFlight.eraseIdx 0 = [] := by rw [hsingle]; rfl
  refine ⟨upload, hupload, ?_⟩
  cases success with
  | true =>
      simp only [herase, if_true] at hcomplete
      split at hcomplete
      · cases hcomplete
      rename_i hrequest
      obtain ⟨given, hgiven, hstrings⟩ := hholds.config
      obtain ⟨cleared, hreset, hnext, hpath, _⟩ := hholds.whole.reset houtcome hgiven
        (by rw [hstrings]; exact hholds.hash) (by rw [hstrings]; exact hfits)
      rw [hstrings] at hnext
      simp only [TrackerCache.clear, hreset, if_true] at hcomplete
      obtain rfl := Option.some.inj hcomplete
      refine ⟨fun _ => hrequest, ?_⟩
      exact @Faithful.land ext manager { upload.cache with diskCache := cleared.object } contents []
        strings [] cleared.disk h upload hsingle hpath hhash hfits hnext
  | false =>
      simp only [herase, Bool.false_eq_true, if_false, Option.some.injEq] at hcomplete
      subst hcomplete
      refine ⟨fun hsuccess => Bool.noConfusion hsuccess, ?_⟩
      have hland := h.land hsingle rfl hhash hfits hholds
      have hsame := setFile_same ({ manager with inFlight := [], uploading := false } : Manager)
        upload.cache.diskCache.path
      dsimp only at hsame
      rw [← hfile, hsame, contents.set_same] at hland
      exact ⟨⟨hland.slots.registered, hland.slots.flying, hland.slots.taken, hland.slots.uploading⟩,
        hland.registered, hland.flying, hland.free, hland.named⟩

/-! ### Restarts -/

theorem Faithful.stopped (h : manager.Faithful ext contents []) {names : List Str}
    (hnames : ∀ name, manager.files name ≠ none → name ∈ names) :
    (Manager.empty manager.files manager.trackerGroupSize).Faithful ext contents names := by
  have hrests : ∀ hash index cache, index < maxCacheCount →
      cache.diskCache.path = cacheName hash index →
      manager.Stores ext hash cache (contents hash index) →
      cacheName hash index ∈ names ∧ Rests ext manager.files hash index (contents hash index) := by
    intro hash index cache hindex hpath hstores
    obtain ⟨strings, disk, hhash, hfits, hfile, hholds⟩ := hstores
    rw [hpath] at hfile
    refine ⟨hnames _ ?_, strings, disk, hhash, hfits, hfile, hholds.closed⟩
    rw [hfile]
    exact Option.some_ne_none disk
  refine ⟨slots_empty _ _, ?_, ?_, ?_, h.named⟩
  · intro hash index cache hcache
    cases hcache
  · intro upload hupload
    cases hupload
  · intro hash index _
    cases hid : manager.trackerCacheIds hash index with
    | true =>
        left
        obtain ⟨cache, hcache⟩ | ⟨upload, hupload, rfl, rfl⟩ := h.slots.taken hash index hid
        · obtain ⟨hindex, _, hpath⟩ := h.slots.registered hash index cache hcache
          exact ⟨hindex,
            hrests hash index cache hindex hpath (h.registered hash index cache hcache)⟩
        · obtain ⟨hindex, _, hpath, _⟩ := h.slots.flying upload hupload
          exact ⟨hindex, hrests _ _ upload.cache hindex hpath (h.flying upload hupload).1⟩
    | false =>
        right
        rcases h.free hash index hid with ⟨_, hmem, _⟩ | hfree
        · cases hmem
        · exact hfree

theorem Faithful.loadEntry {names : List Str} {hash : UInt64} {index : Nat}
    (h : manager.Faithful ext contents (cacheName hash index :: names)) (hlossless : ext.Lossless)
    {load : LoadEnv} (hload : ∀ name, (load.init name).Succeeds) (hindex : index < maxCacheCount)
    (hpresent : manager.files (cacheName hash index) ≠ none)
    (hfree : manager.trackerCacheIds hash index = false) :
    ∃ cache disk, manager.loadEntry ext load (cacheName hash index)
        = ((manager.setFile (cacheName hash index) (some disk)).setId hash index true).emplace hash
          index cache
      ∧ (manager.loadEntry ext load (cacheName hash index)).Faithful ext contents names := by
  rcases h.free hash index hfree with
    ⟨_, _, strings, disk, hhash, hfits, hfile, hholds⟩ | ⟨_, hnone⟩
  · obtain ⟨made, hopen, hmade, hpath⟩ := @OpenCache.openAt_holds ext strings _ hash disk hholds
      hlossless hhash.symm none (fun given hgiven => by cases hgiven) _
      (hload (cacheName hash index)) (cacheName hash index)
    obtain ⟨given, hgiven, _⟩ := hmade.config
    have hscan := @scanName_cacheName hash index (lt_of_lt_maxCacheCount hindex)
    have hloaded : manager.loadEntry ext load (cacheName hash index)
        = ((manager.setFile (cacheName hash index) (some made.disk)).setId hash index true).emplace
          hash index ⟨made.object, given, load.address (cacheName hash index)⟩ := by
      simp only [Manager.loadEntry, hscan, hfile, TrackerCache.construct, hopen, hgiven,
        Option.map_some]
      rfl
    refine ⟨_, _, hloaded, ?_⟩
    rw [hloaded]
    refine (@Faithful.occupy ext manager hash index
      ⟨made.object, given, load.address (cacheName hash index)⟩ contents _ strings made.disk h
      hindex hfree hpath hhash hfits hmade names ?_).1
    intro name hname
    rcases List.mem_cons.mp hname with rfl | hname
    · exact Or.inr rfl
    · exact Or.inl hname
  · exact absurd (hnone hindex) hpresent

theorem Faithful.syncLoad {names : List Str} (h : manager.Faithful ext contents names)
    (hlossless : ext.Lossless) {load : LoadEnv} (hload : ∀ name, (load.init name).Succeeds)
    (hnodup : names.Nodup) (hpresent : ∀ name ∈ names, manager.files name ≠ none)
    (hfree : ∀ hash index, cacheName hash index ∈ names →
      manager.trackerCacheIds hash index = false) :
    (manager.syncLoadTrackersCache ext names load).Faithful ext contents [] := by
  unfold syncLoadTrackersCache
  induction names generalizing manager with
  | nil => exact h
  | cons name rest ih =>
      have hname := hpresent name List.mem_cons_self
      obtain ⟨hash, index, hindex, rfl⟩ := h.named name hname
      obtain ⟨hnew, hnodup⟩ := List.nodup_cons.mp hnodup
      obtain ⟨cache, disk, hloaded, hnext⟩ := h.loadEntry hlossless hload hindex hname
        (hfree hash index List.mem_cons_self)
      rw [List.foldl_cons]
      refine ih hnext hnodup ?_ ?_
      · intro other hother
        rw [hloaded]
        have hne : other ≠ cacheName hash index := by
          rintro rfl
          exact hnew hother
        have hkept : (manager.setFile (cacheName hash index) (some disk)).files other
            = manager.files other := setFile_files_of_ne hne
        exact hkept ▸ hpresent other (List.mem_cons_of_mem _ hother)
      · intro other position hother
        rw [hloaded]
        have hne : ¬ (other = hash ∧ position = index) := by
          rintro ⟨rfl, rfl⟩
          exact hnew hother
        have hkept := @setId_of_ne (manager.setFile (cacheName hash index) (some disk)) _ _ _ _ true
          hne
        exact hkept.trans (hfree other position (List.mem_cons_of_mem _ hother))

/-- **A restart finds every slot as it was.** -/
theorem Faithful.restart (h : manager.Faithful ext contents []) (hlossless : ext.Lossless)
    {names : List Str} {load : LoadEnv} (hload : ∀ name, (load.init name).Succeeds)
    (hnodup : names.Nodup) (hnames : ∀ name, name ∈ names ↔ manager.files name ≠ none) :
    (manager.restart ext manager.files names load).Faithful ext contents [] := by
  have hstopped := h.stopped fun name hname => (hnames name).mpr hname
  refine hstopped.syncLoad hlossless hload hnodup ?_ ?_
  · exact fun name hname => (hnames name).mp hname
  · exact fun _ _ _ => rfl

end Manager

end TapSdk.Tracker
