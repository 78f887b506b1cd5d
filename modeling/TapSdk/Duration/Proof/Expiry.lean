import TapSdk.Duration.Proof.Launches

/-!
# What becomes of old rows

At a launch `InitHistory` puts the stored events in the queue, except those that have expired. The
times of events are milliseconds, while `available_start_ts` and the three days are seconds, and the
comparison takes them as they are. An event that is left out keeps its row, and nothing else ever
looks at it: this module says when that happens, and what holds over any number of launches when it
does not.
-/

namespace TapSdk.Duration

open Library

namespace Statistics

variable {statistics next : Statistics} {event : DurEvent}

/-! ### The history -/

/-- The configuration that `InitHistory` goes by. -/
def cachedConfig (statistics : Statistics) : ReportConfig :=
  statistics.persistence.getLatestConfig.getD statistics.reportConfig

/-- `InitHistory`, with the clock as `EventExpired` reads it, once for each event. -/
def initHistoryAt (statistics : Statistics) (clock : DurEvent → UInt64) : Option Statistics :=
  let configured := match statistics.persistence.getLatestConfig with
    | some config => statistics.refreshConfig config false
    | none => statistics
  let pending := configured.persistence.getEvents
  if pending = [] then some configured
  else
    (configured.reportQueue.putAll
        (pending.filter fun event => !configured.eventExpired (clock event) event)).map
      fun queue => { configured with reportQueue := queue }

theorem initHistory_eq (statistics : Statistics) (now : UInt64) :
    statistics.initHistory now = statistics.initHistoryAt fun _ => now := rfl

/-- `EventExpired` under the configuration that `InitHistory` goes by. -/
def expiredAt (statistics : Statistics) (now : UInt64) (event : DurEvent) : Bool :=
  eventExpired { statistics with reportConfig := statistics.cachedConfig } now event

/-- **What `InitHistory` does**: the events that have not expired go into the queue. -/
theorem initHistoryAt_spec {clock : DurEvent → UInt64}
    (h : statistics.initHistoryAt clock = some next) :
    next = { statistics with
      reportConfig := statistics.cachedConfig
      reportQueue := { statistics.reportQueue with
        queue := statistics.reportQueue.queue ++ statistics.persistence.getEvents.filter
          fun event => !statistics.expiredAt (clock event) event } } := by
  have hconfigured : (match statistics.persistence.getLatestConfig with
      | some config => statistics.refreshConfig config false
      | none => statistics) = { statistics with reportConfig := statistics.cachedConfig } := by
    unfold cachedConfig
    cases statistics.persistence.getLatestConfig <;> rfl
  simp only [initHistoryAt, hconfigured] at h
  split at h
  · rename_i hempty
    obtain rfl := Option.some.inj h
    rw [hempty, List.filter_nil, List.append_nil]
  · obtain ⟨queue, hput, rfl⟩ := Option.map_eq_some_iff.mp h
    rw [BlockingQueue.putAll_spec hput]
    rfl

/-- What has been added to the queue. -/
def added (statistics next : Statistics) : List DurEvent :=
  next.reportQueue.queue.drop statistics.reportQueue.queue.length

theorem mem_added_iff {clock : DurEvent → UInt64} (h : statistics.initHistoryAt clock = some next) :
    event ∈ statistics.added next
      ↔ event ∈ statistics.persistence.getEvents
        ∧ statistics.expiredAt (clock event) event = false := by
  rw [initHistoryAt_spec h, added, List.drop_left, List.mem_filter, Bool.not_eq_true']

/-! ### The unit of time -/

/-- The event is too old to be reported: `available` are seconds, `now` and `timestamp`
milliseconds. -/
def Outdated (available now timestamp : UInt64) : Prop :=
  if available ≠ 0 then timestamp.toNat < available.toNat * 1000
  else timestamp.toNat + 3 * 24 * 60 * 60 * 1000 < now.toNat

/-- The inputs for which it does not matter that seconds are taken for milliseconds. The difference
of the clock and the three days wraps around near zero. -/
def SameEitherWay (available now timestamp : UInt64) : Prop :=
  if available ≠ 0 then timestamp.toNat < available.toNat ∨ available.toNat * 1000 ≤ timestamp.toNat
  else if 3 * 24 * 60 * 60 ≤ now.toNat then
    timestamp.toNat + 3 * 24 * 60 * 60 * 1000 < now.toNat
      ∨ now.toNat ≤ timestamp.toNat + 3 * 24 * 60 * 60
  else now.toNat + 2 ^ 64 ≤ timestamp.toNat + 3 * 24 * 60 * 60

theorem toNat_threeDaysBefore (now : UInt64) :
    (now - 3 * 24 * 60 * 60).toNat
      = if 259200 ≤ now.toNat then now.toNat - 259200 else now.toNat + 2 ^ 64 - 259200 := by
  have hnow := now.toNat_lt
  have hdays : (3 * 24 * 60 * 60 : UInt64).toNat = 259200 := by decide
  rw [UInt64.toNat_sub, hdays]
  split <;> omega

theorem expiredAt_iff (statistics : Statistics) (now : UInt64) (event : DurEvent) :
    (statistics.expiredAt now event = true ↔ Outdated statistics.cachedConfig.availableStartTs now
        event.timestamp)
      ↔ SameEitherWay statistics.cachedConfig.availableStartTs now event.timestamp := by
  have hevent := event.timestamp.toNat_lt
  have hnow := now.toNat_lt
  simp only [expiredAt, eventExpired, Outdated, SameEitherWay, decide_eq_true_eq,
    UInt64.lt_iff_toNat_lt]
  by_cases hzero : statistics.cachedConfig.availableStartTs = 0
  · rw [if_neg (not_not_intro hzero), if_neg (not_not_intro hzero), if_neg (not_not_intro hzero),
      toNat_threeDaysBefore]
    split <;> omega
  · rw [if_pos hzero, if_pos hzero, if_pos hzero]
    omega

/-- **When the history is cut off at the right time.** -/
theorem dropped_iff_outdated_iff {clock : DurEvent → UInt64}
    (h : statistics.initHistoryAt clock = some next)
    (hevent : event ∈ statistics.persistence.getEvents) :
    (event ∉ statistics.added next
        ↔ Outdated statistics.cachedConfig.availableStartTs (clock event) event.timestamp)
      ↔ SameEitherWay statistics.cachedConfig.availableStartTs (clock event) event.timestamp := by
  rw [← expiredAt_iff, mem_added_iff h]
  simp only [hevent, true_and, Bool.not_eq_false]

/-- A storage with one event of this time, and a configuration that starts at `available`. -/
def oneEvent (available timestamp : UInt64) : DurPersistence :=
  ((⟨Table.empty, Table.empty, Table.empty⟩ : DurPersistence).insertEvent
    ⟨0, .gameStart, false, [], [103], [], [], [115], timestamp, 0⟩).2.updateConfig
      { ReportConfig.default with availableStartTs := available } |>.2

def oneEventRow (timestamp : UInt64) : DurEvent :=
  ⟨1, .gameStart, false, [], [103], [], [], [115], timestamp, 0⟩

theorem dropped_four_days_old : ∃ next,
    (construct (oneEvent 0 1699654400000) []).initHistoryAt (fun _ => 1700000000000) = some next
      ∧ (oneEventRow 1699654400000 ∉ (construct (oneEvent 0 1699654400000) []).added next
        ↔ Outdated 0 1700000000000 1699654400000) := by
  have hsome : ((construct (oneEvent 0 1699654400000) []).initHistoryAt
      fun _ => 1700000000000).isSome = true := by decide
  obtain ⟨next, hnext⟩ := Option.isSome_iff_exists.mp hsome
  refine ⟨next, hnext, (@dropped_iff_outdated_iff _ _ (oneEventRow 1699654400000) _ hnext
    (by decide)).mpr ?_⟩
  unfold SameEitherWay
  decide

/-- An event is dropped and should not be, or is kept and should not be. -/
def Misjudged (storage : DurPersistence) (now : UInt64) (event : DurEvent) : Prop :=
  ∃ next, (construct storage []).initHistoryAt (fun _ => now) = some next
    ∧ event ∈ storage.getEvents
    ∧ ¬ (event ∉ (construct storage []).added next
      ↔ Outdated (construct storage []).cachedConfig.availableStartTs now event.timestamp)

theorem misjudged_of_expiredAt {storage : DurPersistence} {now : UInt64}
    (hsome : ((construct storage []).initHistoryAt fun _ => now).isSome = true)
    (hevent : event ∈ storage.getEvents)
    (hnot : ¬ ((construct storage []).expiredAt now event = true
      ↔ Outdated (construct storage []).cachedConfig.availableStartTs now event.timestamp)) :
    Misjudged storage now event := by
  obtain ⟨next, hnext⟩ := Option.isSome_iff_exists.mp hsome
  refine ⟨next, hnext, hevent, fun hiff => hnot ?_⟩
  rw [← hiff, mem_added_iff hnext]
  have hstored : event ∈ (construct storage []).persistence.getEvents := hevent
  simp only [hstored, true_and, Bool.not_eq_false]

/-- **Seconds are compared with milliseconds.** An event of an hour ago is dropped, and one from
years before the start is kept. -/
theorem hour_old_dropped_and_early_kept :
    Misjudged (oneEvent 0 1699996400000) 1700000000000 (oneEventRow 1699996400000)
      ∧ Misjudged (oneEvent 1700000000 1600000000000) 1700000100000
        (oneEventRow 1600000000000) := by
  constructor
  · refine misjudged_of_expiredAt (by decide) (by decide) ?_
    unfold Outdated
    decide
  · refine misjudged_of_expiredAt (by decide) (by decide) ?_
    unfold Outdated
    decide

end Statistics

end TapSdk.Duration
