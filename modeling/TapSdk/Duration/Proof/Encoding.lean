import TapSdk.Duration.Encoding
import TapSdk.Duration.Proof.Clock

/-!
# What can be encoded

A report has a body exactly if its user is JSON and its strings are UTF-8. One event of a batch that
has none keeps the whole batch from being sent.
-/

namespace TapSdk.Duration

open Library

def ReportInfo.encodable (info : ReportInfo) : Bool :=
  isUtf8 info.sdkVersion && info.deviceInfo.all fun device =>
    isUtf8 device.platform && isUtf8 device.engine && isUtf8 device.model

/-- The user, if there is one, is JSON, and the strings are UTF-8. -/
def DurEvent.encodable (parse : Str → Option Json) (event : DurEvent) : Bool :=
  (event.userId = [] || (parse event.userId).isSome) && isUtf8 event.gameId
    && isUtf8 event.gamePkg && isUtf8 event.deviceId && isUtf8 event.session

variable {parse : Str → Option Json} {info : ReportInfo} {event : DurEvent}

theorem isUtf8_actionString (action : EventAction) : isUtf8 (actionString action) = true := by
  cases action <;> decide

theorem isUtf8_devTypeString (devType : DeviceType) : isUtf8 (devTypeString devType) = true := by
  cases devType <;> decide

/-! ### One report -/

theorem dumps_extraFields (event : DurEvent) :
    (Json.ofFields (extraFields event)).Dumps ↔ isUtf8 event.session = true := by
  have hkeys : isUtf8 (ascii "session_id") = true ∧ isUtf8 (ascii "last_ts") = true := by decide
  have hdistinct : ((extraFields event).map Prod.fst).Nodup := by
    unfold extraFields
    split <;> simp only [List.map_cons, List.map_nil] <;> decide
  rw [Json.dumps_ofFields hdistinct, extraFields]
  split <;> simp [hkeys]

theorem deviceFields_dump (info : ReportInfo) :
    (∀ field ∈ deviceFields info, isUtf8 field.1 = true ∧ field.2.Dumps)
      ↔ (info.deviceInfo.all fun device => isUtf8 device.platform && isUtf8 device.engine
        && isUtf8 device.model) = true := by
  have hkeys : isUtf8 (ascii "os") = true ∧ isUtf8 (ascii "engine") = true
      ∧ isUtf8 (ascii "device_model") = true := by decide
  unfold deviceFields
  cases info.deviceInfo with
  | none => simp
  | some device => simp [hkeys, and_assoc]

theorem userField_eq {user : List (Str × Json)} (h : userField parse event = some user) :
    user = [] ∨ ∃ value, parse event.userId = some value ∧ user = [(ascii "user", value)] := by
  unfold userField at h
  split at h
  · exact Or.inl (Option.some.inj h).symm
  · obtain ⟨value, hvalue, rfl⟩ := Option.map_eq_some_iff.mp h
    exact Or.inr ⟨value, hvalue, rfl⟩

theorem reportFields_distinct {user : List (Str × Json)}
    (h : userField parse event = some user) :
    ((reportFields info event user).map Prod.fst).Nodup := by
  unfold reportFields deviceFields
  rcases userField_eq h with rfl | ⟨value, _, rfl⟩ <;> cases info.deviceInfo <;>
    simp only [List.map_append, List.map_cons, List.map_nil] <;> decide

/-- What `ToJson` returns has a text exactly if the strings are UTF-8. -/
theorem dumps_reportFields (hparse : ∀ text value, parse text = some value → value.Dumps)
    {user : List (Str × Json)} (h : userField parse event = some user) :
    (Json.ofFields (reportFields info event user)).Dumps ↔ info.encodable = true
      ∧ isUtf8 event.gameId = true ∧ isUtf8 event.gamePkg = true ∧ isUtf8 event.deviceId = true
      ∧ isUtf8 event.session = true := by
  have huser : ∀ field ∈ user, isUtf8 field.1 = true ∧ field.2.Dumps := by
    have hkey : isUtf8 (ascii "user") = true := by decide
    intro field hfield
    rcases userField_eq h with rfl | ⟨value, hvalue, rfl⟩
    · cases hfield
    · rw [List.mem_singleton.mp hfield]
      exact ⟨hkey, hparse _ value hvalue⟩
  have hkeys : isUtf8 (ascii "event") = true ∧ isUtf8 (ascii "ts") = true
      ∧ isUtf8 (ascii "client_id") = true ∧ isUtf8 (ascii "identifier") = true
      ∧ isUtf8 (ascii "device_id") = true ∧ isUtf8 (ascii "extra") = true
      ∧ isUtf8 (ascii "environment") = true ∧ isUtf8 (ascii "sdk_version") = true := by decide
  rw [Json.dumps_ofFields (reportFields_distinct h), reportFields]
  simp only [List.forall_mem_append, List.forall_mem_cons, deviceFields_dump, dumps_extraFields,
    Json.dumps_string, Json.dumps_unsigned, isUtf8_actionString, isUtf8_devTypeString, hkeys,
    ReportInfo.encodable, Bool.and_eq_true]
  have hnone : ∀ field ∈ ([] : List (Str × Json)), isUtf8 field.1 = true ∧ field.2.Dumps :=
    fun field hfield => absurd hfield List.not_mem_nil
  tauto

theorem toJson_dumps (hparse : ∀ text value, parse text = some value → value.Dumps)
    (event : DurEvent) : (∃ content, toJson parse info event = some content ∧ content.Dumps)
      ↔ info.encodable = true ∧ event.encodable parse = true := by
  rcases huser : userField parse event with _ | user
  · have hnot : event.encodable parse = false := by
      unfold userField at huser
      split at huser
      · cases huser
      · rename_i hsome
        rw [Option.map_eq_none_iff] at huser
        simp [DurEvent.encodable, hsome, huser]
    simp [toJson, huser, hnot]
  · have hvalid : (event.userId = [] || (parse event.userId).isSome) = true := by
      unfold userField at huser
      split at huser
      · rename_i hnone
        simp [hnone]
      · obtain ⟨value, hvalue, _⟩ := Option.map_eq_some_iff.mp huser
        simp [hvalue]
    simp only [toJson, huser, Option.map_some, Option.some.injEq, exists_eq_left',
      dumps_reportFields hparse huser, DurEvent.encodable, hvalid, Bool.true_and,
      Bool.and_eq_true, and_assoc]

/-! ### A list of reports -/

theorem mapM_all {α β : Type} {f : α → Option β} {holds : β → Prop} (list : List α) :
    (∃ results, list.mapM f = some results ∧ ∀ result ∈ results, holds result)
      ↔ ∀ item ∈ list, ∃ result, f item = some result ∧ holds result := by
  induction list with
  | nil => simp
  | cons item rest ih =>
      rw [List.forall_mem_cons, ← ih]
      simp only [List.mapM_cons, Option.bind_eq_bind, Option.bind_eq_some_iff, Option.pure_def,
        Option.some.injEq]
      constructor
      · rintro ⟨_, ⟨first, hfirst, others, hothers, rfl⟩, hall⟩
        obtain ⟨hhead, htail⟩ := List.forall_mem_cons.mp hall
        exact ⟨⟨first, hfirst, hhead⟩, others, hothers, htail⟩
      · rintro ⟨⟨first, hfirst, hhead⟩, others, hothers, htail⟩
        exact ⟨_, ⟨first, hfirst, others, hothers, rfl⟩, List.forall_mem_cons.mpr ⟨hhead, htail⟩⟩

theorem encode_eq_body_iff (hparse : ∀ text value, parse text = some value → value.Dumps)
    {reports : List DurEvent} (hsome : reports ≠ []) :
    (∃ text, encode parse info reports = .body text) ↔ info.encodable = true
      ∧ ∀ report ∈ reports, report.encodable parse = true := by
  have hbody : (∃ text, encode parse info reports = .body text) ↔
      ∃ contents, reports.mapM (toJson parse info) = some contents
        ∧ ∀ content ∈ contents, content.Dumps := by
    unfold encode
    rcases reports.mapM (toJson parse info) with _ | contents
    · simp
    · simp only [Option.some.injEq, exists_eq_left']
      rw [← Json.dumps_ofItems, Json.Dumps]
      cases (Json.ofItems contents).dump <;> simp
  rw [hbody, mapM_all]
  simp only [toJson_dumps hparse]
  obtain ⟨first, hfirst⟩ := List.exists_mem_of_ne_nil reports hsome
  exact ⟨fun hall => ⟨(hall first hfirst).1, fun report hreport => (hall report hreport).2⟩,
    fun hall report hreport => ⟨hall.1, hall.2 report hreport⟩⟩

/-! ### The reports of a batch -/

namespace Statistics

variable {statistics : Statistics} {now : UInt64} {events : List DurEvent} {hasHeatBeats : Bool}

/-- What the reporter takes out of a batch: every event that is no heartbeat and, in the foreground,
the first heartbeat. -/
def reportable (statistics : Statistics) (events : List DurEvent) : List DurEvent :=
  events.filter (fun event => event.action ≠ .heatBeat)
    ++ if statistics.foreground then (events.find? fun event => event.action = .heatBeat).toList
      else []

/-- A property that the times do not matter for. -/
theorem buildReports_all {holds : DurEvent → Prop}
    (hstamp : ∀ event, holds (statistics.restamp now event) ↔ holds event) :
    (∀ report ∈ (statistics.buildReports now events hasHeatBeats).2.1, holds report)
      ↔ (∀ event ∈ events, event.action ≠ .heatBeat → holds event)
        ∧ (statistics.foreground = true → hasHeatBeats = false → ∀ event,
          events.find? (fun event => event.action = .heatBeat) = some event → holds event) := by
  induction events generalizing hasHeatBeats with
  | nil => simp [buildReports]
  | cons first rest ih =>
      simp only [buildReports]
      split
      · rename_i hother
        rw [List.forall_mem_cons, ih, List.forall_mem_cons, List.find?_cons_of_neg (by simpa)]
        tauto
      · rename_i hbeat
        rw [ne_eq, not_not] at hbeat
        rw [List.find?_cons_of_pos (by simpa using hbeat), List.forall_mem_cons]
        split
        · rename_i hskips
          have hnone : statistics.foreground = true → ¬ hasHeatBeats = false := by
            intro hforeground hfalse
            simp [hforeground, hfalse] at hskips
          rw [ih]
          refine and_congr ?_ ?_
          · exact ⟨fun hrest => ⟨fun hother => absurd hbeat hother, hrest⟩, fun hall => hall.2⟩
          · exact ⟨fun _ hon hfalse => absurd hfalse (hnone hon),
              fun _ hon hfalse => absurd hfalse (hnone hon)⟩
        · rename_i hstamps
          simp only [Bool.or_eq_true, Bool.not_eq_true', not_or, Bool.not_eq_false,
            Bool.not_eq_true] at hstamps
          obtain ⟨hfalse, hon⟩ := hstamps
          have hstamped := hstamp first
          rw [restamp] at hstamped
          rw [List.forall_mem_cons, ih, hstamped]
          simp only [hbeat, ne_eq, not_true_eq_false, false_imp_iff, true_and, hon, hfalse,
            Bool.true_eq_false, and_true, forall_const, Option.some.injEq, forall_eq']
          exact and_comm

theorem buildReports_encodable : (∀ report ∈ (statistics.buildReports now events false).2.1,
      report.encodable parse = true)
    ↔ ∀ event ∈ statistics.reportable events, event.encodable parse = true := by
  rw [buildReports_all fun _ => Iff.rfl, reportable, List.forall_mem_append]
  simp only [List.mem_filter, decide_eq_true_eq, and_imp]
  refine and_congr_right fun _ => ?_
  cases statistics.foreground <;> simp

/-- The pass changes no id. -/
theorem buildReports_ids :
    (statistics.buildReports now events hasHeatBeats).1.map (·.id) = events.map (·.id) := by
  induction events generalizing hasHeatBeats with
  | nil => rfl
  | cons first rest ih =>
      simp only [buildReports]
      split
      · rw [List.map_cons, ih, List.map_cons]
      · split <;> rw [List.map_cons, ih, List.map_cons]

theorem mem_reports {event : DurEvent} (hevent : event ∈ events)
    (haction : event.action ≠ .heatBeat) :
    event ∈ (statistics.buildReports now events hasHeatBeats).2.1 := by
  induction events generalizing hasHeatBeats with
  | nil => cases hevent
  | cons first rest ih =>
      simp only [buildReports]
      rcases List.mem_cons.mp hevent with rfl | hrest
      · rw [if_pos haction]
        exact List.mem_cons_self
      · split
        · exact List.mem_cons_of_mem _ (ih hrest)
        · split
          · exact ih hrest
          · exact List.mem_cons_of_mem _ (ih hrest)

end Statistics

end TapSdk.Duration
