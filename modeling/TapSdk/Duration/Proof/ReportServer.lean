import TapSdk.Duration.Proof.Encoding
import TapSdk.Duration.ReportServer
import TapSdk.Net.Proof.Request

/-!
# Reports are received as they were

Every field of a report is read back from the body of the request, whatever is in its strings.
-/

namespace TapSdk.Duration

open Library

variable {parse : Str → Option Json} {info : ReportInfo} {event : DurEvent}

/-! ### Fields -/

theorem Report.textOf_eq {fields : List (Str × Json)} (hdistinct : (fields.map Prod.fst).Nodup)
    {key text : Str} (h : (key, Json.string text) ∈ fields) :
    textOf key (Json.ofFields fields).normalize = some text := by
  rw [textOf, Json.member_normalize, Json.member_ofFields hdistinct h]
  rfl

theorem Report.numberOf_eq {fields : List (Str × Json)}
    (hdistinct : (fields.map Prod.fst).Nodup) {key : Str} {number : UInt64}
    (h : (key, Json.unsigned number) ∈ fields) :
    numberOf key (Json.ofFields fields).normalize = some number := by
  rw [numberOf, Json.member_normalize, Json.member_ofFields hdistinct h]
  rfl

theorem Report.numberOf_eq_none {fields : List (Str × Json)}
    (hdistinct : (fields.map Prod.fst).Nodup) {key : Str} (h : key ∉ fields.map Prod.fst) :
    numberOf key (Json.ofFields fields).normalize = none := by
  rw [numberOf, Json.member_normalize, Json.member_ofFields_eq_none hdistinct h]
  rfl

theorem extraFields_distinct (event : DurEvent) : ((extraFields event).map Prod.fst).Nodup := by
  unfold extraFields
  split <;> simp only [List.map_cons, List.map_nil] <;> decide

theorem readable_extraFields (event : DurEvent) : (Json.ofFields (extraFields event)).Readable := by
  refine Json.readable_ofFields (extraFields_distinct event) ?_
  intro field hfield
  unfold extraFields at hfield
  rcases List.mem_cons.mp hfield with rfl | hfield
  · trivial
  · split at hfield
    · rw [List.mem_singleton.mp hfield]
      trivial
    · cases hfield

theorem lastTs_extraFields (event : DurEvent) :
    Report.numberOf (ascii "last_ts") (Json.ofFields (extraFields event)).normalize
      = if event.lastTimestamp ≠ 0 then some (event.lastTimestamp / 1000) else none := by
  have hdistinct := extraFields_distinct event
  split
  · next hlast =>
      refine Report.numberOf_eq hdistinct ?_
      rw [extraFields, if_pos hlast]
      exact List.mem_cons_of_mem _ List.mem_cons_self
  · next hlast =>
      refine Report.numberOf_eq_none hdistinct ?_
      have hne : ascii "last_ts" ≠ ascii "session_id" := by decide
      rw [extraFields, if_neg hlast]
      exact fun hmem => hne (List.mem_singleton.mp hmem)

theorem readable_reportFields (hparse : ∀ text value, parse text = some value → value.Readable)
    {user : List (Str × Json)} (h : userField parse event = some user) :
    (Json.ofFields (reportFields info event user)).Readable := by
  refine Json.readable_ofFields (reportFields_distinct h) ?_
  have huser : ∀ field ∈ user, field.2.Readable := by
    rcases userField_eq h with rfl | ⟨value, hvalue, rfl⟩
    · exact nofun
    · rw [List.forall_mem_singleton]
      exact hparse _ value hvalue
  have hdevice : ∀ field ∈ deviceFields info, field.2.Readable := by
    unfold deviceFields
    cases info.deviceInfo with
    | none => exact nofun
    | some device =>
        simp only [List.forall_mem_cons]
        exact ⟨trivial, trivial, trivial, nofun⟩
  unfold reportFields
  simp only [List.forall_mem_append, List.forall_mem_cons]
  exact ⟨⟨⟨⟨trivial, trivial, trivial, trivial, nofun⟩, huser⟩,
    trivial, readable_extraFields event, trivial, trivial, nofun⟩, hdevice⟩

/-! ### One report -/

theorem user_reportFields {user : List (Str × Json)} (h : userField parse event = some user) :
    (Json.ofFields (reportFields info event user)).normalize.member (ascii "user")
      = if event.userId = [] then none else (parse event.userId).map Json.normalize := by
  have hdistinct := @reportFields_distinct parse info event user h
  rw [Json.member_normalize]
  unfold userField at h
  split at h
  · next hnil =>
      cases h
      rw [if_pos hnil, Json.member_ofFields_eq_none hdistinct]
      · rfl
      · unfold reportFields deviceFields
        cases info.deviceInfo
          <;> simp only [List.map_append, List.map_cons, List.map_nil] <;> decide
  · next hne =>
      obtain ⟨value, hvalue, rfl⟩ := Option.map_eq_some_iff.mp h
      have hmem : (ascii "user", value) ∈ reportFields info event [(ascii "user", value)] := by
        simp [reportFields]
      rw [if_neg hne, Json.member_ofFields hdistinct hmem, hvalue]

theorem deviceOf_reportFields {user : List (Str × Json)} (h : userField parse event = some user) :
    Report.deviceOf (Json.ofFields (reportFields info event user)).normalize = info.deviceInfo := by
  have hdistinct := @reportFields_distinct parse info event user h
  cases hdevice : info.deviceInfo with
  | none =>
      have hnone : ascii "os" ∉ (reportFields info event user).map Prod.fst := by
        rcases userField_eq h with rfl | ⟨value, -, rfl⟩ <;>
          simp only [reportFields, deviceFields, hdevice, List.map_append, List.map_cons,
            List.map_nil] <;> decide
      rw [Report.deviceOf, Report.textOf, Json.member_normalize,
        Json.member_ofFields_eq_none hdistinct hnone]
      rfl
  | some device =>
      have hfields : ∀ field ∈ [(ascii "os", Json.string device.platform),
          (ascii "engine", Json.string device.engine),
          (ascii "device_model", Json.string device.model)],
          field ∈ reportFields info event user := by
        intro field hfield
        rw [reportFields, deviceFields, hdevice]
        exact List.mem_append_right _ hfield
      simp only [List.forall_mem_cons] at hfields
      rw [Report.deviceOf, Report.textOf_eq hdistinct hfields.1,
        Report.textOf_eq hdistinct hfields.2.1, Report.textOf_eq hdistinct hfields.2.2.1]
      rfl

/-- The fields that every report has. -/
theorem mem_reportFields (info : ReportInfo) (event : DurEvent) (user : List (Str × Json)) :
    ∀ field ∈ [(ascii "event", Json.string (actionString event.action)),
        (ascii "ts", .unsigned (event.timestamp / 1000)), (ascii "client_id", .string event.gameId),
        (ascii "identifier", .string event.gamePkg), (ascii "device_id", .string event.deviceId),
        (ascii "extra", Json.ofFields (extraFields event)),
        (ascii "environment", .string (devTypeString info.devType)),
        (ascii "sdk_version", .string info.sdkVersion)],
      field ∈ reportFields info event user := by
  simp [reportFields]

theorem ofJson_reportFields {user : List (Str × Json)} (h : userField parse event = some user) :
    Report.ofJson (Json.ofFields (reportFields info event user)).normalize
      = some (Report.ofEvent parse info event) := by
  have hdistinct := @reportFields_distinct parse info event user h
  have hfields := mem_reportFields info event user
  simp only [List.forall_mem_cons] at hfields
  obtain ⟨hevent, hts, hclient, hidentifier, hdevice, hextra, henvironment, hversion, -⟩ := hfields
  have hextraMember : (Json.ofFields (reportFields info event user)).normalize.member
      (ascii "extra")
      = some (Json.ofFields (extraFields event)).normalize := by
    rw [Json.member_normalize, Json.member_ofFields hdistinct hextra]
    rfl
  have hsession : (ascii "session_id", Json.string event.session) ∈ extraFields event :=
    List.mem_cons_self
  rw [Report.ofJson]
  simp only [Report.textOf_eq hdistinct hevent, Report.numberOf_eq hdistinct hts,
    Report.textOf_eq hdistinct hclient, Report.textOf_eq hdistinct hidentifier,
    Report.textOf_eq hdistinct hdevice, hextraMember,
    Report.textOf_eq (extraFields_distinct event) hsession,
    Report.textOf_eq hdistinct henvironment, Report.textOf_eq hdistinct hversion,
    lastTs_extraFields, user_reportFields h, deviceOf_reportFields h, Option.bind_eq_bind,
    Option.bind_some]
  rfl

/-! ### A batch -/

theorem ofJson_toJson {content : Json} (h : toJson parse info event = some content) :
    Report.ofJson content.normalize = some (Report.ofEvent parse info event) := by
  obtain ⟨user, huser, rfl⟩ := Option.map_eq_some_iff.mp h
  exact ofJson_reportFields huser

theorem mapM_ofJson {reports : List DurEvent} {contents : List Json}
    (h : reports.mapM (toJson parse info) = some contents) :
    (Json.normalizeItems contents).mapM Report.ofJson
      = some (reports.map (Report.ofEvent parse info)) := by
  induction reports generalizing contents with
  | nil =>
      cases h
      rfl
  | cons event reports ih =>
      rw [List.mapM_cons] at h
      obtain ⟨content, hcontent, h⟩ := Option.bind_eq_some_iff.mp h
      obtain ⟨later, hlater, h⟩ := Option.bind_eq_some_iff.mp h
      obtain rfl := Option.some.inj h
      rw [Json.normalizeItems, List.mapM_cons, ofJson_toJson hcontent, ih hlater]
      rfl

theorem readable_contents (hparse : ∀ text value, parse text = some value → value.Readable)
    {reports : List DurEvent} {contents : List Json}
    (h : reports.mapM (toJson parse info) = some contents) :
    Json.ReadableItems contents := by
  induction reports generalizing contents with
  | nil =>
      cases h
      trivial
  | cons event reports ih =>
      rw [List.mapM_cons] at h
      obtain ⟨content, hcontent, h⟩ := Option.bind_eq_some_iff.mp h
      obtain ⟨later, hlater, h⟩ := Option.bind_eq_some_iff.mp h
      obtain rfl := Option.some.inj h
      obtain ⟨user, huser, rfl⟩ := Option.map_eq_some_iff.mp hcontent
      exact ⟨readable_reportFields hparse huser, ih hlater⟩

theorem readAll_encode (hparse : ∀ text value, parse text = some value → value.Readable)
    {reports : List DurEvent} (hne : reports ≠ []) {body : Str}
    (h : encode parse info reports = .body body) :
    Report.readAll body = some (reports.map (Report.ofEvent parse info)) := by
  unfold encode at h
  split at h
  · cases h
  · next contents hcontents =>
      split at h
      · cases h
      · next text hdump =>
          cases h
          have hitems := mapM_ofJson hcontents
          have hreadable := readable_contents hparse hcontents
          cases contents with
          | nil =>
              cases reports with
              | nil => exact absurd rfl hne
              | cons event reports =>
                  rw [List.map_cons] at hitems
                  cases hitems
          | cons content contents =>
              have hparsed := @Json.parse_dump (.array (content :: contents)) hreadable _ hdump
              rw [Report.readAll, hparsed]
              exact hitems

theorem endpoint_of_region (region : Sdk.Startup.Region) :
    ∃ endpoint : Net.Endpoint, (collectorClient region).host = endpoint.text := by
  cases region with
  | cn => exact ⟨⟨collectorUrl .cn, [], List.all_eq_true.mp rfl, nofun⟩, rfl⟩
  | global => exact ⟨⟨collectorUrl .global, [], List.all_eq_true.mp rfl, nofun⟩, rfl⟩
  | rnd => exact ⟨⟨collectorUrl .rnd, [], List.all_eq_true.mp rfl, nofun⟩, rfl⟩

/-- **A batch is received as it was, or not sent.** A batch has a body exactly if the users of its
events are JSON and its strings are UTF-8; the request with it is then read as one report for every
event, in their order, with every field of the event, and the connection is left at what follows. -/
theorem reports_received
    (hdumps : ∀ text value, parse text = some value → value.Dumps ∧ value.Readable)
    {order : Net.Pairs → Net.Pairs} (horder : ∀ map, (order map).Perm map) (info : ReportInfo)
    (region : Sdk.Startup.Region) {reports : List DurEvent} (hne : reports ≠ []) :
    if info.encodable = true ∧ ∀ report ∈ reports, report.encodable parse = true then
      ∃ body text, encode parse info reports = .body body
        ∧ (collectorClient region).requestText order (reportRequest body) = some text
        ∧ ∀ rest,
          Report.receive (text ++ rest) = some (reports.map (Report.ofEvent parse info), rest)
    else ∀ body, encode parse info reports ≠ .body body := by
  have hiff :=
    @encode_eq_body_iff parse info (fun text value h => (hdumps text value h).1) reports hne
  split
  · next hencodable =>
      obtain ⟨body, hbody⟩ := hiff.mpr hencodable
      obtain ⟨endpoint, hendpoint⟩ := endpoint_of_region region
      have hpath : ∀ c ∈ (reportRequest body).path, Net.Uri.isPathCharacter c = true :=
        List.all_eq_true.mp rfl
      have hheaders : Net.AllSendable (collectorClient region) (reportRequest body) := nofun
      have hreads := Net.read_requestText endpoint hendpoint horder hpath hheaders
      have hparams : (reportRequest body).params = [] := rfl
      obtain ⟨text, htext, -⟩ := hreads []
      refine ⟨body, text, hbody, htext, fun rest => ?_⟩
      obtain ⟨same, hsame, hread⟩ := hreads rest
      obtain rfl := Option.some.inj (htext.symm.trans hsame)
      have hall := readAll_encode (fun text value h => (hdumps text value h).2) hne hbody
      rw [if_pos hparams] at hread
      rw [Report.receive, hread]
      change (Report.readAll body).bind _ = _
      rw [hall]
      rfl
  · next hnot => exact fun body hbody => hnot (hiff.mp ⟨body, hbody⟩)

def exampleUser : Str := ascii "\x7b\"id\":1\x7d"

def exampleParse (text : Str) : Option Json :=
  if text = exampleUser then some (.object [(ascii "id", .unsigned 1)]) else none

def exampleEvent : DurEvent :=
  ⟨1, .userLogin, true, exampleUser, ascii "game", ascii "a\"b", ascii "device", ascii "s", 5000, 0⟩

theorem reports_received_example :
    ∃ body text, encode exampleParse ⟨.cloud, none, ascii "2.0"⟩ [exampleEvent] = .body body
      ∧ (collectorClient .cn).requestText id (reportRequest body) = some text
      ∧ Report.receive (text ++ [0x21]) = some
        ([{ event := ascii "login", ts := 5, clientId := ascii "game", identifier := ascii "a\"b"
            user := some (.object [(ascii "id", .unsigned 1)]), deviceId := ascii "device"
            sessionId := ascii "s", lastTs := none, environment := ascii "cloud"
            sdkVersion := ascii "2.0", device := none }], [0x21]) := by
  have hdumps : ∀ text value, exampleParse text = some value → value.Dumps ∧ value.Readable := by
    intro text value h
    unfold exampleParse at h
    split at h
    · cases h
      exact ⟨by decide, List.pairwise_singleton _ _, trivial, trivial⟩
    · cases h
  have hreceived := reports_received hdumps (fun map => List.Perm.refl map)
    ⟨.cloud, none, ascii "2.0"⟩ .cn (List.cons_ne_nil exampleEvent [])
  rw [if_pos ⟨by decide, by simp only [List.forall_mem_singleton]; decide⟩] at hreceived
  obtain ⟨body, text, hbody, htext, hread⟩ := hreceived
  exact ⟨body, text, hbody, htext, hread [0x21]⟩

end TapSdk.Duration
