import TapSdk.Duration.Deliveries
import TapSdk.Duration.Proof.Clock

/-!
# The intervals of a session

Every event of a session that stands for an interval starts at `last_timestamp`, and once its own
time is saved there, what follows starts later. What is said here is about the times alone: those of
the events that were stored and delivered, of the handler's event, of the session row and of
`local_session`.
-/

namespace TapSdk.Duration

open Library

/-! ### Intervals -/

namespace DurEvent

/-- The event stands for an interval of this session. -/
def Counted (event : DurEvent) (session : Str) : Prop :=
  event.session = session ∧ event.lastTimestamp ≠ 0

def Apart (event other : DurEvent) : Prop :=
  event.timestamp ≤ other.lastTimestamp ∨ other.timestamp ≤ event.lastTimestamp

/-- The same stored event, which a later launch may have stored again for the device it runs on. -/
def Same (event other : DurEvent) : Prop :=
  event.id ≠ 0 ∧ other = { event with deviceId := other.deviceId }

def Separate (event other : DurEvent) : Prop :=
  event.session = other.session → event.lastTimestamp ≠ 0 → other.lastTimestamp ≠ 0 →
    event.Same other ∨ event.Apart other

variable {event other : DurEvent}

theorem Apart.symm (h : event.Apart other) : other.Apart event := Or.symm h

theorem Apart.not_overlaps (h : event.Apart other) : ¬ event.Overlaps other := by
  rintro ⟨time, ⟨hafter, hbefore⟩, hafter', hbefore'⟩
  rcases h with hle | hle
  · exact UInt64.not_lt.mpr (UInt64.le_trans hbefore hle) hafter'
  · exact UInt64.not_lt.mpr (UInt64.le_trans hbefore' hle) hafter

theorem Same.refl (h : event.id ≠ 0) : event.Same event := ⟨h, rfl⟩

theorem Same.symm (h : event.Same other) : other.Same event := by
  obtain ⟨hid, heq⟩ := h
  rw [heq]
  exact ⟨hid, rfl⟩

theorem Separate.symm (h : event.Separate other) : other.Separate event := by
  intro hsession hlast hlast'
  rcases h hsession.symm hlast' hlast with hsame | hapart
  · exact Or.inl hsame.symm
  · exact Or.inr hapart.symm

theorem separate_of_apart
    (h : event.session = other.session → event.lastTimestamp ≠ 0 → other.lastTimestamp ≠ 0 →
      event.Apart other) : event.Separate other :=
  fun hsession hlast hlast' => Or.inr (h hsession hlast hlast')

theorem separate_self (h : event.id ≠ 0) : event.Separate event :=
  fun _ _ _ => Or.inl (Same.refl h)

end DurEvent

/-! ### What a handler has still to do -/

/-- The event is stored before the session is saved. -/
def storesNext : List HandlerStep → Bool
  | [] | .updateSession :: _ => false
  | .addOrMergeEvent :: _ => true
  | _ :: rest => storesNext rest

/-- The session is saved after its times have changed, and the event is stored only once. -/
def thorough : List HandlerStep → Bool
  | [] => true
  | step :: rest =>
      ((step ≠ .touchSession && step ≠ .startSession) || decide (.updateSession ∈ rest))
        && (step ≠ .addOrMergeEvent || decide (.addOrMergeEvent ∉ rest)) && thorough rest

theorem thorough_cons {step : HandlerStep} {rest : List HandlerStep}
    (h : thorough (step :: rest) = true) : thorough rest = true
      ∧ (step = .touchSession ∨ step = .startSession → .updateSession ∈ rest)
      ∧ (step = .addOrMergeEvent → .addOrMergeEvent ∉ rest) := by
  simp only [thorough, Bool.and_eq_true, Bool.or_eq_true, decide_eq_true_eq] at h
  grind

theorem storesNext_cons {step : HandlerStep} {rest : List HandlerStep}
    (hstep : step ≠ .updateSession) (h : storesNext rest = true) :
    storesNext (step :: rest) = true := by
  cases step with
  | updateSession => exact absurd rfl hstep
  | addOrMergeEvent => rfl
  | startSession | touchSession | userSession | putEvent => exact h

/-! ### The spans of a session -/

variable {stored delivered : List DurEvent} {session : Str} {row last now : UInt64}
  {handler : Option Handler} {unsaved : Option UInt64} {event : DurEvent}
  {todo : List HandlerStep}

/-- The handler's event is later than what is stored, and it is stored once the session row has
caught up with it. -/
structure HandlerSpans (stored delivered : List DurEvent) (session : Str) (row last : UInt64)
    (handler : Handler) : Prop where
  thorough : thorough handler.todo = true
  orderly : orderly handler.todo = true
  put : handler.todo.head? = some .putEvent → handler.event ∈ stored
  last_le : last ≤ handler.event.timestamp
  touched : handler.event.lastTimestamp ≠ 0 →
    handler.todo.head? = some .touchSession ∨ handler.event.timestamp ≤ last
  saved : handler.event.lastTimestamp ≠ 0 → storesNext handler.todo = true →
    handler.event.timestamp ≤ row
  fresh : handler.event.lastTimestamp ≠ 0 → .addOrMergeEvent ∈ handler.todo →
    (∀ other ∈ stored, other.Counted session → other.timestamp ≤ handler.event.lastTimestamp)
      ∧ ∀ other ∈ delivered, other.Counted session → other.Apart handler.event

/-- `row` is `last_timestamp` in the session row, `last` in `local_session`. -/
structure Spans (stored delivered : List DurEvent) (session : Str) (row last : UInt64)
    (handler : Option Handler) (unsaved : Option UInt64) : Prop where
  row_le : row ≤ last
  row_eq : row = last ∨ ∃ running, handler = some running ∧ .updateSession ∈ running.todo
  stored_le : ∀ other ∈ stored, other.Counted session → other.timestamp ≤ row
  delivered_le : ∀ other ∈ delivered, other.Counted session →
    other.timestamp ≤ row ∨ ∃ beat, unsaved = some beat ∧ other.timestamp ≤ beat
  handler : ∀ running, handler = some running →
    HandlerSpans stored delivered session row last running

/-- What is left of a handler after a step that stores nothing and does not save the session. -/
theorem HandlerSpans.tail {last' : UInt64} {step : HandlerStep} {rest : List HandlerStep}
    (h : HandlerSpans stored delivered session row last ⟨event, step :: rest⟩)
    (hstep : step ≠ .updateSession) (hstores : step ≠ .addOrMergeEvent)
    (hlast : last' ≤ event.timestamp)
    (htouched : event.lastTimestamp ≠ 0 → event.timestamp ≤ last') :
    HandlerSpans stored delivered session row last' ⟨event, rest⟩ := by
  obtain ⟨hthorough, _, _⟩ := thorough_cons h.thorough
  obtain ⟨horderly, hput⟩ := Account.orderly_tail h.orderly
  refine ⟨hthorough, horderly, fun hhead => absurd hhead (hput hstores), hlast,
    fun hne => Or.inr (htouched hne), ?_, ?_⟩
  · exact fun hne hnext => h.saved hne (storesNext_cons hstep hnext)
  · exact fun hne hmem => h.fresh hne (List.mem_cons_of_mem _ hmem)

namespace Spans

theorem row_eq_of_idle (h : Spans stored delivered session row last none unsaved) : row = last := by
  rcases h.row_eq with heq | ⟨running, hrunning, _⟩
  · exact heq
  · cases hrunning

/-- A handler starts. -/
theorem begin (h : Spans stored delivered session row last none unsaved)
    (hthorough : thorough todo = true) (horderly : orderly todo = true)
    (hput : todo.head? ≠ some .putEvent) (hlast : last ≤ event.timestamp)
    (hstamp : event.lastTimestamp = 0
      ∨ (event.lastTimestamp = last ∧ todo.head? = some .touchSession ∧ storesNext todo = false
        ∧ unsaved = none)) :
    Spans stored delivered session row last (some ⟨event, todo⟩) unsaved := by
  have hrow := h.row_eq_of_idle
  refine ⟨h.row_le, Or.inl hrow, h.stored_le, h.delivered_le, ?_⟩
  rintro _ ⟨⟩
  rcases hstamp with hzero | ⟨hlast', htouch, hstores, hsaved⟩
  · exact ⟨hthorough, horderly, fun hhead => absurd hhead hput, hlast,
      fun hne => absurd hzero hne, fun hne => absurd hzero hne, fun hne => absurd hzero hne⟩
  · refine ⟨hthorough, horderly, fun hhead => absurd hhead hput, hlast, fun _ => Or.inl htouch,
      ?_, ?_⟩
    · intro _ hstores'
      rw [hstores] at hstores'
      cases hstores'
    · refine fun _ _ => ⟨fun other hother hcounted => ?_, fun other hother hcounted => ?_⟩
      · rw [hlast', ← hrow]
        exact h.stored_le other hother hcounted
      · rcases h.delivered_le other hother hcounted with hle | ⟨beat, hbeat, _⟩
        · refine Or.inl ?_
          rw [hlast', ← hrow]
          exact hle
        · rw [hsaved] at hbeat
          cases hbeat

/-- The session is saved. -/
theorem save (h : Spans stored delivered session row last handler unsaved) :
    Spans stored delivered session last last handler unsaved := by
  refine ⟨UInt64.le_refl _, Or.inl rfl, ?_, ?_, ?_⟩
  · exact fun other hother hcounted => UInt64.le_trans (h.stored_le other hother hcounted) h.row_le
  · intro other hother hcounted
    exact (h.delivered_le other hother hcounted).imp_left fun hle => UInt64.le_trans hle h.row_le
  · intro running hrunning
    have hspans := h.handler running hrunning
    exact ⟨hspans.thorough, hspans.orderly, hspans.put, hspans.last_le, hspans.touched,
      fun hne hstores => UInt64.le_trans (hspans.saved hne hstores) h.row_le, hspans.fresh⟩

section Perform

variable {step : HandlerStep} {rest : List HandlerStep}

theorem row_eq_remaining (event : DurEvent) (step : HandlerStep) {rest : List HandlerStep}
    (hstep : step ≠ .updateSession)
    (h : row = last ∨ ∃ running : Handler, some (Handler.mk event (step :: rest)) = some running
      ∧ .updateSession ∈ running.todo) :
    row = last ∨ ∃ running, Statistics.remaining event rest = some running
      ∧ .updateSession ∈ running.todo := by
  rcases h with heq | ⟨running, hrunning, hupdate⟩
  · exact Or.inl heq
  · obtain rfl := Option.some.inj hrunning
    have hrest : .updateSession ∈ rest := by
      rcases List.mem_cons.mp hupdate with hfirst | hrest
      · exact absurd hfirst.symm hstep
      · exact hrest
    refine Or.inr ⟨⟨event, rest⟩, ?_, hrest⟩
    rw [Statistics.remaining, if_neg (List.ne_nil_of_mem hrest)]

/-- The time of the event goes into `local_session`. -/
theorem touch (h : Spans stored delivered session row last (some ⟨event, step :: rest⟩) unsaved)
    (hstep : step = .touchSession ∨ step = .startSession) :
    Spans stored delivered session row event.timestamp (Statistics.remaining event rest)
      unsaved := by
  have hspans := h.handler _ rfl
  have hupdate : .updateSession ∈ rest := (thorough_cons hspans.thorough).2.1 hstep
  have hplain : step ≠ .updateSession ∧ step ≠ .addOrMergeEvent := by
    rcases hstep with rfl | rfl <;> decide
  refine ⟨UInt64.le_trans h.row_le hspans.last_le, Or.inr ⟨⟨event, rest⟩, ?_, hupdate⟩, h.stored_le,
    h.delivered_le, ?_⟩
  · rw [Statistics.remaining, if_neg (List.ne_nil_of_mem hupdate)]
  · rintro ⟨other, todo'⟩ hremains
    obtain ⟨rfl, rfl⟩ := Account.handler_of_remaining hremains
    exact hspans.tail hplain.1 hplain.2 (UInt64.le_refl _) fun _ => UInt64.le_refl _

/-- A step that changes neither times nor rows. -/
theorem pass (h : Spans stored delivered session row last (some ⟨event, step :: rest⟩) unsaved)
    (hstep : step = .userSession ∨ step = .putEvent) :
    Spans stored delivered session row last (Statistics.remaining event rest) unsaved := by
  have hspans := h.handler _ rfl
  have hplain : step ≠ .updateSession ∧ step ≠ .addOrMergeEvent ∧ step ≠ .touchSession := by
    rcases hstep with rfl | rfl <;> decide
  refine ⟨h.row_le, row_eq_remaining event step hplain.1 h.row_eq, h.stored_le, h.delivered_le, ?_⟩
  rintro ⟨other, todo'⟩ hremains
  obtain ⟨rfl, rfl⟩ := Account.handler_of_remaining hremains
  refine hspans.tail hplain.1 hplain.2.1 hspans.last_le fun hne => ?_
  rcases hspans.touched hne with hhead | hle
  · exact absurd (Option.some.inj hhead) hplain.2.2
  · exact hle

/-- The handler saves the session. -/
theorem update
    (h : Spans stored delivered session row last (some ⟨event, .updateSession :: rest⟩) unsaved) :
    Spans stored delivered session last last (Statistics.remaining event rest) unsaved := by
  have hspans := h.handler _ rfl
  have hsaved := h.save
  refine ⟨hsaved.row_le, Or.inl rfl, hsaved.stored_le, hsaved.delivered_le, ?_⟩
  rintro ⟨other, todo'⟩ hremains
  obtain ⟨rfl, rfl⟩ := Account.handler_of_remaining hremains
  obtain ⟨hthorough, _, _⟩ := thorough_cons hspans.thorough
  obtain ⟨horderly, hput⟩ := Account.orderly_tail hspans.orderly
  have htouched : other.lastTimestamp ≠ 0 → other.timestamp ≤ last := by
    intro hne
    rcases hspans.touched hne with hhead | hle
    · cases hhead
    · exact hle
  exact ⟨hthorough, horderly, fun hhead => absurd hhead (hput (by decide)), hspans.last_le,
    fun hne => Or.inr (htouched hne), fun hne _ => htouched hne,
    fun hne hmem => hspans.fresh hne (List.mem_cons_of_mem _ hmem)⟩

/-- The handler stores its event. -/
theorem store (id : Nat)
    (h : Spans stored delivered session row last (some ⟨event, .addOrMergeEvent :: rest⟩) unsaved) :
    Spans (stored ++ [{ event with id := id }]) delivered session row last
      (Statistics.remaining { event with id := id } rest) unsaved := by
  have hspans := h.handler _ rfl
  refine ⟨h.row_le, ?_, ?_, h.delivered_le, ?_⟩
  · refine row_eq_remaining _ .addOrMergeEvent (by decide) (h.row_eq.imp_right ?_)
    rintro ⟨running, hrunning, hupdate⟩
    obtain rfl := Option.some.inj hrunning
    exact ⟨_, rfl, hupdate⟩
  · intro other hother hcounted
    rcases List.mem_append.mp hother with hold | hnew
    · exact h.stored_le other hold hcounted
    · obtain rfl := List.mem_singleton.mp hnew
      exact hspans.saved hcounted.2 rfl
  · rintro ⟨other, todo'⟩ hremains
    obtain ⟨rfl, rfl⟩ := Account.handler_of_remaining hremains
    obtain ⟨hthorough, _, honce⟩ := thorough_cons hspans.thorough
    obtain ⟨horderly, _⟩ := Account.orderly_tail hspans.orderly
    refine ⟨hthorough, horderly, fun _ => List.mem_append_right _ (List.mem_singleton.mpr rfl),
      hspans.last_le, fun hne => ?_, fun hne _ => hspans.saved hne rfl,
      fun _ hmem => absurd hmem (honce rfl)⟩
    rcases hspans.touched hne with hhead | hle
    · cases hhead
    · exact Or.inr hle

end Perform

/-- The time of a heartbeat is saved. -/
theorem beat (h : Spans stored delivered session row last none (some now)) (hlater : last < now) :
    Spans stored delivered session now now none none := by
  have hrow : row ≤ now := UInt64.le_trans h.row_le (UInt64.le_of_lt hlater)
  refine ⟨UInt64.le_refl _, Or.inl rfl, ?_, ?_, fun running hrunning => by cases hrunning⟩
  · exact fun other hother hcounted => UInt64.le_trans (h.stored_le other hother hcounted) hrow
  · intro other hother hcounted
    rcases h.delivered_le other hother hcounted with hle | ⟨beat, hbeat, hle⟩
    · exact Or.inl (UInt64.le_trans hle hrow)
    · obtain rfl := Option.some.inj hbeat
      exact Or.inl hle

/-- The session is already further than the heartbeat. -/
theorem overtake (h : Spans stored delivered session row last none (some now))
    (hnot : now ≤ last) : Spans stored delivered session row last none none := by
  refine ⟨h.row_le, h.row_eq, h.stored_le, ?_, h.handler⟩
  intro other hother hcounted
  rcases h.delivered_le other hother hcounted with hle | ⟨beat, hbeat, hle⟩
  · exact Or.inl hle
  · obtain rfl := Option.some.inj hbeat
    rw [h.row_eq_of_idle]
    exact Or.inl (UInt64.le_trans hle hnot)

end Spans

/-! ### The POST in flight -/

/-- The heartbeat in the report starts after everything that is stored, delivered or stamped. -/
structure InFlight (stored delivered : List DurEvent) (session : Str) (handler : Option Handler)
    (reports : List DurEvent) (now : UInt64) : Prop where
  timestamp : ∀ beat ∈ reports, beat.action = .heatBeat → beat.timestamp = now
  stored_le : ∀ beat ∈ reports, beat.action = .heatBeat → ∀ other ∈ stored,
    other.Counted session → other.timestamp ≤ beat.lastTimestamp
  delivered_le : ∀ beat ∈ reports, beat.action = .heatBeat → ∀ other ∈ delivered,
    other.Counted session → other.timestamp ≤ beat.lastTimestamp
  handler : ∀ beat ∈ reports, beat.action = .heatBeat → ∀ running, handler = some running →
    running.event.lastTimestamp ≠ 0 → running.event.timestamp ≤ beat.lastTimestamp

variable {reports : List DurEvent}

/-- The POST succeeds. -/
theorem Spans.deliver {unsaved' : Option UInt64}
    (h : Spans stored delivered session row last handler none)
    (hflight : InFlight stored delivered session handler reports now)
    (hreports : ∀ other ∈ reports, other.action ≠ .heatBeat → other ∈ stored)
    (hunsaved : ∀ beat ∈ reports, beat.action = .heatBeat → unsaved' = some now) :
    Spans stored (delivered ++ reports) session row last handler unsaved' := by
  refine ⟨h.row_le, h.row_eq, h.stored_le, ?_, ?_⟩
  · intro other hother hcounted
    rcases List.mem_append.mp hother with hold | hnew
    · rcases h.delivered_le other hold hcounted with hle | ⟨beat, hbeat, _⟩
      · exact Or.inl hle
      · cases hbeat
    · by_cases hbeat : other.action = .heatBeat
      · refine Or.inr ⟨now, hunsaved other hnew hbeat, ?_⟩
        rw [hflight.timestamp other hnew hbeat]
        exact UInt64.le_refl _
      · exact Or.inl (h.stored_le other (hreports other hnew hbeat) hcounted)
  · intro running hrunning
    have hspans := h.handler running hrunning
    refine ⟨hspans.thorough, hspans.orderly, hspans.put, hspans.last_le, hspans.touched,
      hspans.saved, fun hne hmem => ⟨(hspans.fresh hne hmem).1, ?_⟩⟩
    intro other hother hcounted
    rcases List.mem_append.mp hother with hold | hnew
    · exact (hspans.fresh hne hmem).2 other hold hcounted
    · by_cases hbeat : other.action = .heatBeat
      · exact Or.inr (hflight.handler other hnew hbeat running hrunning hne)
      · exact Or.inl ((hspans.fresh hne hmem).1 other (hreports other hnew hbeat) hcounted)

end TapSdk.Duration
