import TapSdk.Tracker.Proof.ManagerRules
import TapSdk.Tracker.WireFormat

/-!
# Which cache the timer uploads

`CheckAndUploadTrackers` remembers the last cache with records it has come by and stops at the one
whose upload failed last, where it should pass it over. A cache that keeps failing is so taken
before all others. Apart from that, the search says that it has found nothing by a hash of zero,
which is a hash like any other.
-/

namespace TapSdk.Tracker

open Library

variable {ext : Externals}

namespace Manager

variable {manager next : Manager} {order : List UInt64}
    {entries : List (UInt64 × Nat × TrackerCache)}

/-- `latest_upload_failed` points at this cache. -/
def LastFailed (manager : Manager) (cache : TrackerCache) : Prop :=
  manager.latestUploadFailed = some cache.address

instance (cache : TrackerCache) : Decidable (manager.LastFailed cache) :=
  inferInstanceAs (Decidable (manager.latestUploadFailed = some cache.address))

/-- The entries whose cache has records. -/
def withRecords (manager : Manager) (entries : List (UInt64 × Nat × TrackerCache)) :
    List (UInt64 × Nat × TrackerCache) :=
  entries.filter fun entry => manager.getCount entry.2.2 > 0

def slot (entry : UInt64 × Nat × TrackerCache) : UInt64 × Nat := (entry.1, entry.2.1)

/-- The search, over the entries with records: the first one that failed last, or else the last. -/
theorem chooseUpload_eq (chosen : Option (UInt64 × Nat)) :
    manager.chooseUpload entries chosen
      = ((((manager.withRecords entries).find? fun entry => manager.LastFailed entry.2.2).or
          (manager.withRecords entries).getLast?).map slot).or chosen := by
  induction entries generalizing chosen with
  | nil => rfl
  | cons entry rest ih =>
      obtain ⟨hash, index, cache⟩ := entry
      unfold chooseUpload
      by_cases hcount : manager.getCount cache > 0
      · have hfull : manager.withRecords ((hash, index, cache) :: rest)
            = (hash, index, cache) :: manager.withRecords rest := by
          simp only [withRecords, List.filter_cons, hcount, decide_true, if_true]
        rw [if_pos hcount, hfull, List.find?_cons]
        by_cases hfailed : manager.LastFailed cache
        · have hsame : manager.latestUploadFailed = some cache.address := hfailed
          rw [if_neg (not_not_intro hsame)]
          simp only [hfailed, decide_true]
          rfl
        · have hother : manager.latestUploadFailed ≠ some cache.address := hfailed
          rw [if_pos hother, ih]
          simp only [hfailed, decide_false, List.getLast?_cons]
          cases (manager.withRecords rest).find? fun entry => manager.LastFailed entry.2.2 with
          | some found => rfl
          | none => cases (manager.withRecords rest).getLast? <;> rfl
      · have hfull : manager.withRecords ((hash, index, cache) :: rest)
            = manager.withRecords rest := by
          simp only [withRecords, List.filter_cons, hcount, decide_false, Bool.false_eq_true,
            if_false]
        rw [if_neg hcount, hfull, ih]

/-! ### What is started -/

/-- A call has started the upload of one registered cache, of which this holds. -/
def Starts (manager next : Manager) (holds : TrackerCache → Prop) : Prop :=
  ∃ upload, next.inFlight = manager.inFlight ++ [upload]
    ∧ manager.registered upload.hash upload.index = some upload.cache ∧ holds upload.cache

/-- A cache that failed last is uploaded when there is no other with records, and only then. -/
structure NotStarved (manager next : Manager) : Prop where
  others : (∃ hash index cache, manager.registered hash index = some cache
    ∧ manager.getCount cache > 0 ∧ ¬ manager.LastFailed cache) →
    manager.Starts next fun cache => ¬ manager.LastFailed cache
  alone : (∃ hash index cache, manager.registered hash index = some cache
    ∧ manager.getCount cache > 0) →
    (∀ hash index cache, manager.registered hash index = some cache → manager.getCount cache > 0 →
      manager.LastFailed cache) → manager.Starts next manager.LastFailed

/-- The order is one in which the unordered map can be walked. -/
def Covers (manager : Manager) (order : List UInt64) : Prop :=
  order.Nodup ∧ ∀ hash, (manager.trackersCache hash).entries ≠ [] → hash ∈ order

/-- The states in which the search is right: the cache that failed last is not among those with
records and the last of them is not under the hash zero, or there is no other and its own hash is
not zero. -/
def Fair (manager : Manager) (order : List UInt64) : Prop :=
  ((∀ entry ∈ manager.withRecords (manager.walk order), ¬ manager.LastFailed entry.2.2)
      ∧ ∀ entry ∈ (manager.withRecords (manager.walk order)).getLast?, entry.1 ≠ 0)
    ∨ (∀ entry ∈ manager.withRecords (manager.walk order), manager.LastFailed entry.2.2)
      ∧ ∀ entry ∈ (manager.withRecords (manager.walk order)).head?, entry.1 ≠ 0

theorem mem_withRecords_iff (hcovers : manager.Covers order) {hash : UInt64} {index : Nat}
    {cache : TrackerCache} :
    (hash, index, cache) ∈ manager.withRecords (manager.walk order)
      ↔ manager.registered hash index = some cache ∧ manager.getCount cache > 0 := by
  have hwalk : (hash, index, cache) ∈ manager.walk order
      ↔ manager.registered hash index = some cache := by
    simp only [walk, List.mem_flatMap, List.mem_map, Prod.mk.injEq]
    constructor
    · rintro ⟨_, _, entry, hentry, rfl, rfl⟩
      exact OrderedMap.find_of_mem hentry
    · intro hcache
      have hmem := OrderedMap.mem_of_find hcache
      exact ⟨hash, hcovers.2 hash (List.ne_nil_of_mem hmem), (index, cache), hmem, rfl, rfl⟩
  rw [withRecords, List.mem_filter, hwalk, decide_eq_true_eq]

/-- What the chosen entry makes of the call. -/
theorem starts_check_iff (huploading : manager.uploading = false) (hcovers : manager.Covers order)
    {entry : UInt64 × Nat × TrackerCache} {holds : TrackerCache → Prop}
    (hchosen : manager.chooseUpload (manager.walk order) none = some (slot entry))
    (hentry : entry ∈ manager.withRecords (manager.walk order)) (clock : Nat → UInt32) :
    manager.Starts (manager.checkAndUploadTrackers ext order clock) holds
      ↔ entry.1 ≠ 0 ∧ holds entry.2.2 := by
  obtain ⟨hash, index, cache⟩ := entry
  have hcache := ((mem_withRecords_iff hcovers).mp hentry).1
  have hcheck : manager.checkAndUploadTrackers ext order clock
      = if hash ≠ 0 then manager.uploadTrackerCacheAsync ext hash index clock else manager := by
    simp only [checkAndUploadTrackers, huploading, Bool.false_eq_true, if_false, hchosen, slot]
  rw [hcheck]
  by_cases hzero : hash = 0
  · rw [if_neg (not_not_intro hzero)]
    refine iff_of_false ?_ fun h => h.1 hzero
    rintro ⟨upload, hupload, _⟩
    exact absurd hupload (by simp)
  · rw [if_pos hzero, uploadTrackerCacheAsync_of_registered huploading hcache]
    constructor
    · rintro ⟨upload, hupload, _, hholds⟩
      obtain rfl := List.singleton_injective (List.append_cancel_left hupload)
      exact ⟨hzero, hholds⟩
    · rintro ⟨_, hholds⟩
      exact ⟨_, rfl, hcache, hholds⟩

/-- The same of the entries that the walk comes by. -/
theorem notStarved_iff (hcovers : manager.Covers order) :
    manager.NotStarved next
      ↔ ((∃ entry ∈ manager.withRecords (manager.walk order), ¬ manager.LastFailed entry.2.2) →
          manager.Starts next fun cache => ¬ manager.LastFailed cache)
        ∧ (manager.withRecords (manager.walk order) ≠ [] →
          (∀ entry ∈ manager.withRecords (manager.walk order), manager.LastFailed entry.2.2) →
          manager.Starts next manager.LastFailed) := by
  have hmem := @mem_withRecords_iff manager order hcovers
  generalize manager.withRecords (manager.walk order) = full at hmem
  constructor
  · rintro ⟨hothers, halone⟩
    refine ⟨?_, fun hne hall => halone ?_ ?_⟩
    · rintro ⟨⟨hash, index, cache⟩, hentry, hnot⟩
      obtain ⟨hcache, hcount⟩ := hmem.mp hentry
      exact hothers ⟨hash, index, cache, hcache, hcount, hnot⟩
    · obtain ⟨⟨hash, index, cache⟩, hentry⟩ := List.exists_mem_of_ne_nil full hne
      exact ⟨hash, index, cache, hmem.mp hentry⟩
    · exact fun hash index cache hcache hcount => hall _ (hmem.mpr ⟨hcache, hcount⟩)
  · rintro ⟨hothers, halone⟩
    refine ⟨?_, ?_⟩
    · rintro ⟨hash, index, cache, hcache, hcount, hnot⟩
      exact hothers ⟨_, hmem.mpr ⟨hcache, hcount⟩, hnot⟩
    · rintro ⟨hash, index, cache, hcache, hcount⟩ hall
      refine halone (List.ne_nil_of_mem (hmem.mpr ⟨hcache, hcount⟩)) ?_
      rintro ⟨hash, index, cache⟩ hentry
      obtain ⟨hcache, hcount⟩ := hmem.mp hentry
      exact hall hash index cache hcache hcount

/-- **The timer starves no cache exactly in the fair states**, for every set of registered caches
and every order of the unordered map. -/
theorem notStarved_iff_fair (ext : Externals) (huploading : manager.uploading = false)
    (hcovers : manager.Covers order) (clock : Nat → UInt32) :
    manager.NotStarved (manager.checkAndUploadTrackers ext order clock) ↔ manager.Fair order := by
  have hchoose := @chooseUpload_eq manager (manager.walk order) none
  have hstarts := @starts_check_iff ext manager order huploading hcovers
  rw [notStarved_iff hcovers, Fair]
  rw [Option.or_none] at hchoose
  generalize manager.withRecords (manager.walk order) = full at hchoose hstarts
  cases hfind : full.find? fun entry => manager.LastFailed entry.2.2 with
  | some entry =>
      -- The search stops at the cache that failed last.
      have hentry := List.mem_of_find?_eq_some hfind
      have hfailed : manager.LastFailed entry.2.2 := by simpa using List.find?_some hfind
      rw [hfind, Option.some_or, Option.map_some] at hchoose
      have hsome : ¬ ∀ other ∈ full, ¬ manager.LastFailed other.2.2 :=
        fun hall => hall entry hentry hfailed
      rw [hstarts hchoose hentry clock, hstarts hchoose hentry clock]
      by_cases hall : ∀ other ∈ full, manager.LastFailed other.2.2
      · have hhead : full.head? = some entry := by
          cases full with
          | nil => cases hfind
          | cons first rest =>
              have hfirst := hall first List.mem_cons_self
              simpa [List.find?_cons, hfirst] using hfind
        constructor
        · rintro ⟨_, halone⟩
          refine Or.inr ⟨hall, fun other hother => ?_⟩
          obtain rfl := Option.some.inj (hhead.symm.trans hother)
          exact (halone (List.ne_nil_of_mem hentry) hall).1
        · rintro (⟨hnone, _⟩ | ⟨_, hzero⟩)
          · exact absurd hnone hsome
          · refine ⟨?_, fun _ _ => ⟨hzero entry hhead, hfailed⟩⟩
            rintro ⟨other, hother, hnot⟩
            exact absurd (hall other hother) hnot
      · refine iff_of_false ?_ ?_
        · rintro ⟨hothers, _⟩
          push Not at hall
          exact (hothers hall).2 hfailed
        · rintro (⟨hnone, _⟩ | ⟨hother, _⟩)
          · exact hsome hnone
          · exact hall hother
  | none =>
      have hnone : ∀ other ∈ full, ¬ manager.LastFailed other.2.2 := by
        simpa using hfind
      rw [hfind, Option.none_or] at hchoose
      cases hlast : full.getLast? with
      | none =>
          obtain rfl := List.getLast?_eq_none_iff.mp hlast
          simp
      | some entry =>
          -- It runs to the end.
          have hentry := List.mem_of_getLast? hlast
          rw [hlast, Option.map_some] at hchoose
          rw [hstarts hchoose hentry clock, hstarts hchoose hentry clock]
          constructor
          · rintro ⟨hothers, _⟩
            refine Or.inl ⟨hnone, fun other hother => ?_⟩
            obtain rfl := Option.some.inj hother
            exact (hothers ⟨_, hentry, hnone _ hentry⟩).1
          · rintro (⟨_, hzero⟩ | ⟨hall, _⟩)
            · exact ⟨fun _ => ⟨hzero entry rfl, hnone entry hentry⟩,
                fun _ hall => absurd (hall entry hentry) (hnone entry hentry)⟩
            · exact absurd (hall entry hentry) (hnone entry hentry)

/-! ### Two topics -/

def otherConfig : TrackerConfig := TrackDiskCacheConfig.toConfig ⟨[117], [], [], [], [], []⟩

/-- A new cache of this configuration. -/
def noRecord (config : TrackerConfig) : OpenCache :=
  (OpenCache.openAt wireFormat config.hash (cacheName config.hash 0) (some config) none
    InitEnv.ideal).2

def oneRecord (config : TrackerConfig) : OpenCache :=
  ((noRecord config).push wireFormat PushEnv.ideal (plainMessage [118])).2

def withTopic (manager : Manager) (config : TrackerConfig) (cache : OpenCache) (address : Nat) :
    Manager :=
  (manager.setFile (cacheName config.hash 0) (some cache.disk)).emplace config.hash 0
    ⟨cache.object, config, address⟩

theorem trackersCache_withTopic {config : TrackerConfig} {cache : OpenCache} {address : Nat}
    {hash : UInt64} (h : hash ≠ config.hash) :
    (manager.withTopic config cache address).trackersCache hash = manager.trackersCache hash :=
  setCaches_of_ne h

theorem latestUploadFailed_withTopic {config : TrackerConfig} {cache : OpenCache} {address : Nat} :
    (manager.withTopic config cache address).latestUploadFailed = manager.latestUploadFailed := rfl

/-- A topic whose upload has failed last, and a second one with a record. -/
def twoTopics (failed : OpenCache) : Manager :=
  ({ Manager.empty (fun _ => none) 2000 with latestUploadFailed := some 0 }.withTopic plainConfig
    failed 0).withTopic otherConfig (oneRecord otherConfig) 1

theorem covers_twoTopics (failed : OpenCache) :
    (twoTopics failed).Covers [plainConfig.hash, otherConfig.hash] := by
  refine ⟨by decide +kernel, fun hash hentries => ?_⟩
  by_contra hother
  simp only [List.mem_cons, List.not_mem_nil, or_false, not_or] at hother
  rw [twoTopics, trackersCache_withTopic hother.2, trackersCache_withTopic hother.1] at hentries
  exact hentries rfl

/-- The first topic has no records, and the second one is uploaded. -/
theorem notStarved_failed_without_records :
    (twoTopics (noRecord plainConfig)).latestUploadFailed = some 0
      ∧ (twoTopics (noRecord plainConfig)).NotStarved
          ((twoTopics (noRecord plainConfig)).checkAndUploadTrackers wireFormat
            [plainConfig.hash, otherConfig.hash] fun _ => 9) := by
  refine ⟨rfl, (notStarved_iff_fair wireFormat rfl (covers_twoTopics _) _).mpr (Or.inl ?_)⟩
  have hfair : ((twoTopics (noRecord plainConfig)).withRecords
      ((twoTopics (noRecord plainConfig)).walk [plainConfig.hash, otherConfig.hash])).map
        (fun entry => (entry.1, entry.2.2.address)) = [(otherConfig.hash, 1)] := by
    decide +kernel
  generalize (twoTopics (noRecord plainConfig)).withRecords _ = full at hfair ⊢
  obtain ⟨entry, rfl, hentry⟩ := List.map_eq_singleton_iff.mp hfair
  obtain ⟨hhash, haddress⟩ := Prod.mk.inj hentry
  constructor
  · intro other hother hfailed
    obtain rfl := List.mem_singleton.mp hother
    rw [LastFailed, haddress] at hfailed
    exact absurd (Option.some.inj hfailed) (by decide)
  · intro other hother
    have hsame : entry = other := Option.some.inj hother
    rw [← hsame, hhash]
    decide +kernel

/-- The upload of the first topic has failed, and both have records. -/
def firstFailed : Manager := twoTopics (oneRecord plainConfig)

/-- **The first topic is uploaded again.** -/
theorem first_topic_uploaded_again :
    firstFailed.uploading = false
      ∧ firstFailed.Covers [plainConfig.hash, otherConfig.hash]
      ∧ (firstFailed.checkAndUploadTrackers wireFormat [plainConfig.hash, otherConfig.hash]
          fun _ => 9).inFlight.map (·.cache.address) = [0]
      ∧ ¬ firstFailed.NotStarved (firstFailed.checkAndUploadTrackers wireFormat
          [plainConfig.hash, otherConfig.hash] fun _ => 9) := by
  have hchosen : (firstFailed.checkAndUploadTrackers wireFormat
      [plainConfig.hash, otherConfig.hash] fun _ => 9).inFlight.map (·.cache.address) = [0] := by
    decide +kernel
  refine ⟨rfl, covers_twoTopics _, hchosen, fun h => ?_⟩
  have hfailed : firstFailed.latestUploadFailed = some 0 := by
    rw [firstFailed, twoTopics, latestUploadFailed_withTopic, latestUploadFailed_withTopic]
  have hsecond : (firstFailed.registered otherConfig.hash 0).any (fun cache =>
      firstFailed.getCount cache > 0 ∧ cache.address = 1) = true := by decide +kernel
  obtain ⟨cache, hcache, hfacts⟩ := (Option.any_eq_true _ _).mp hsecond
  obtain ⟨hcount, haddress⟩ := of_decide_eq_true hfacts
  have hother : ¬ firstFailed.LastFailed cache := by
    rw [LastFailed, hfailed, haddress]
    decide
  obtain ⟨upload, hupload, _, hnot⟩ :=
    h.others ⟨otherConfig.hash, 0, cache, hcache, hcount, hother⟩
  rw [hupload, List.map_append] at hchosen
  have haddress := (List.append_eq_singleton_iff.mp hchosen).resolve_right (by simp)
  have hsame : upload.cache.address = 0 := List.singleton_injective haddress.2
  rw [LastFailed, hfailed, hsame] at hnot
  exact hnot rfl

end Manager

end TapSdk.Tracker
