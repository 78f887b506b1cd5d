import TapSdk.Tracker.Proof.History
import TapSdk.Tracker.TrackerCache

/-!
# The time of an uploaded log

`Push` writes the creation time of a message into the record header, and `Load` never reads it
back: a loaded message carries the time at which it was loaded.
-/

namespace TapSdk.Tracker

open Library

variable {ext : Externals}

/-- Histories of a cache that is created on an absent file. -/
def historySystem (ext : Externals) (config : TrackerConfig) : System History CacheOp where
  init history := ∃ path env, InitEnv.Succeeds env
    ∧ History.start ext config path env = some history
  step history op := history.step ext op

namespace History

variable {history : History} {config : TrackerConfig}

/-- The steps of a history in which no push writes past the end of the file. -/
def Allowed (ext : Externals) (config : TrackerConfig) (history : History) (op : CacheOp) : Prop :=
  op.Regular config ∧ history.cache.Fits ext op

theorem sound_of_reaches (hlossless : ext.Lossless)
    (hfits : OpenCache.ConfigFits ext config.strings)
    (hreach : (historySystem ext config).Reaches (Allowed ext config) history) :
    history.Sound ext config := by
  refine hreach.invariant (Sound ext config) ?_ ?_
  · rintro state ⟨path, env, henv, hstart⟩
    obtain ⟨first, hfirst, hsound⟩ := start_sound hfits henv path
    rw [hstart] at hfirst
    exact Option.some.inj hfirst ▸ hsound
  · rintro state op next hsound ⟨hregular, hop⟩ hstep
    obtain ⟨next', hstep', hsound'⟩ := step_sound hlossless hfits hsound hregular hop
    have heq : some next = some next' := hstep.symm.trans hstep'
    exact Option.some.inj heq ▸ hsound'

def logs (ext : Externals) (config : TrackerConfig) (history : History) (clock : Nat → UInt32) :
    List Log :=
  ((history.cache.logGroup ext config clock).map (·.logs)).getD []

theorem Sound.logs_eq (hsound : history.Sound ext config) (hlossless : ext.Lossless)
    (clock : Nat → UInt32) :
    history.logs ext config clock
      = (restamp history.cache.object.config clock 0 history.accepted).map (·.toLog) := by
  rw [logs, OpenCache.logGroup, hsound.load hlossless clock]
  cases restamp history.cache.object.config clock 0 history.accepted with
  | nil => rfl
  | cons message rest => rfl

theorem Sound.logs_getElem? (hsound : history.Sound ext config) (hlossless : ext.Lossless)
    (clock : Nat → UInt32) (k : Nat) :
    (history.logs ext config clock)[k]?
      = (history.accepted[k]?).map fun message => ⟨clock k, message.proto.logged⟩ := by
  rw [hsound.logs_eq hlossless, List.getElem?_map, restamp_getElem?, Option.map_map, Nat.zero_add]
  rfl

/-- **Uploaded logs keep their creation time exactly when** the clock still shows, while each record
is loaded, the time its message was created at. -/
theorem log_time_iff (hlossless : ext.Lossless)
    (hfits : (ext.config.serialize config.strings).length ≤ 65536 - 28)
    (hreach : (historySystem ext config).Reaches (Allowed ext config) history)
    (clock : Nat → UInt32) :
    (∀ (k : Nat) (message : TrackMessageImpl), history.accepted[k]? = some message →
        ∃ log : Log, (history.logs ext config clock)[k]? = some log
          ∧ log.time = message.createTime)
      ↔ ∀ (k : Nat) (message : TrackMessageImpl), history.accepted[k]? = some message →
        clock k = message.createTime := by
  have hsound := sound_of_reaches hlossless hfits hreach
  constructor
  · intro hlogs k message hmessage
    obtain ⟨log, hlog, htime⟩ := hlogs k message hmessage
    rw [hsound.logs_getElem? hlossless, hmessage, Option.map_some, Option.some.injEq] at hlog
    rw [← htime, ← hlog]
  · intro hclock k message hmessage
    refine ⟨⟨clock k, message.proto.logged⟩, ?_, hclock k message hmessage⟩
    rw [hsound.logs_getElem? hlossless, hmessage, Option.map_some]

theorem exists_pushed :
    ∃ history, (historySystem wireFormat plainConfig).Reaches (Allowed wireFormat plainConfig)
        history ∧ history.accepted = [plainMessage [118]] := by
  obtain ⟨cache, hopen, hholds, _, hsize⟩ := @OpenCache.openAt_absent wireFormat _ plainConfig
    plainConfig.hash_eq plainConfig_fits _ InitEnv.ideal_succeeds []
  have hstart : start wireFormat plainConfig [] InitEnv.ideal = some ⟨cache, []⟩ := by
    simp only [start, hopen]
  have hsmall : recordHeaderSize + (plainMessage [118]).getSerializeSize wireFormat
      ≤ cacheCapability := by decide
  have hfits := @Sound.fits_push wireFormat ⟨cache, []⟩ plainConfig hholds PushEnv.ideal _ hsmall
  have hmax : cache.nextSize wireFormat (plainMessage [118]) ≤ maxCacheSize := by
    rw [hholds.nextSize]
    decide
  obtain ⟨next, hpush, _⟩ := hholds.push PushEnv.ideal_succeeds hmax
    (hfits.resolve_right (Nat.not_lt.mpr hmax))
  refine ⟨⟨next, [plainMessage [118]]⟩, ?_, rfl⟩
  have hstep : (historySystem wireFormat plainConfig).step ⟨cache, []⟩
      (.push PushEnv.ideal (plainMessage [118])) = some ⟨next, [plainMessage [118]]⟩ := by
    simp only [historySystem, step, OpenCache.perform, hpush, List.nil_append]
  have hallowed : Allowed wireFormat plainConfig ⟨cache, []⟩
      (.push PushEnv.ideal (plainMessage [118])) := ⟨PushEnv.ideal_succeeds, hfits⟩
  exact .step (.init ⟨[], InitEnv.ideal, InitEnv.ideal_succeeds, hstart⟩) hallowed hstep

theorem log_time_iff_pushed :
    ∃ history : History, history.accepted = [plainMessage [118]]
      ∧ ∃ log : Log, (history.logs wireFormat plainConfig fun _ => 7)[0]? = some log
        ∧ log.time = 7 := by
  obtain ⟨history, hreach, haccepted⟩ := exists_pushed
  have hclock : ∀ (k : Nat) (message : TrackMessageImpl), history.accepted[k]? = some message →
      (7 : UInt32) = message.createTime := by
    intro k message hmessage
    rw [haccepted] at hmessage
    rw [List.mem_singleton.mp (List.mem_of_getElem? hmessage)]
    rfl
  have hlogs := (log_time_iff wireFormat_lossless plainConfig_fits hreach fun _ => 7).mpr hclock
  refine ⟨history, haccepted, ?_⟩
  exact hlogs 0 (plainMessage [118]) (by rw [haccepted]; rfl)

/-- **The time of the upload takes the place of the time of the event.** -/
theorem log_time_changed :
    ∃ history : History, (historySystem wireFormat plainConfig).Reaches
        (Allowed wireFormat plainConfig) history
      ∧ history.accepted[0]? = some (plainMessage [118])
      ∧ ∃ log : Log, (history.logs wireFormat plainConfig fun _ => 3607)[0]? = some log
        ∧ log.time ≠ (plainMessage [118]).createTime := by
  obtain ⟨history, hreach, haccepted⟩ := exists_pushed
  have hsound := sound_of_reaches wireFormat_lossless plainConfig_fits hreach
  refine ⟨history, hreach, by rw [haccepted]; rfl,
    ⟨3607, (plainMessage [118]).proto.logged⟩, ?_, ?_⟩
  · rw [hsound.logs_getElem? wireFormat_lossless, haccepted]
    rfl
  · decide

end History

end TapSdk.Tracker
