import TapSdk.Tracker.History
import TapSdk.Tracker.Proof.Layout
import TapSdk.Tracker.WireFormat

/-!
# Decoding undoes encoding, over whole histories

One step lemma says that an operation on a cache that holds the accepted messages succeeds and
leaves a cache that holds the accepted messages; induction over the sequence does the rest.
-/

namespace TapSdk.Tracker

open Library

variable {ext : Externals}

/-- The operations of a history under one configuration: they succeed, and a cache is opened again
with that configuration or with none. -/
def CacheOp.Regular (config : TrackerConfig) : CacheOp → Prop
  | .push env _ => env.Succeeds
  | .clear env => env.Succeeds
  | .reopen given env => env.Succeeds ∧ (given = none ∨ given = some config)

/-- One growth step suffices for the push, or the push is over the limit. -/
def OpenCache.Fits (ext : Externals) (cache : OpenCache) : CacheOp → Prop
  | .push _ message => cache.nextSize ext message ≤ cache.size + cacheCapability
      ∨ cache.nextSize ext message > maxCacheSize
  | _ => True

namespace History

variable {history : History} {config : TrackerConfig}

def Sound (ext : Externals) (config : TrackerConfig) (history : History) : Prop :=
  history.cache.Holds ext config.strings history.accepted

theorem start_sound (hfits : OpenCache.ConfigFits ext config.strings) {env : InitEnv}
    (henv : env.Succeeds) (path : Str) :
    ∃ history, start ext config path env = some history ∧ history.Sound ext config := by
  obtain ⟨cache, hopen, hholds, _⟩ :=
    OpenCache.openAt_absent config.hash_eq hfits henv path
  refine ⟨⟨cache, []⟩, ?_, hholds⟩
  simp only [start, hopen]

/-- **Every operation keeps the cache and the list of accepted messages together**, and none
throws. -/
theorem step_sound (hlossless : ext.Lossless) (hfits : OpenCache.ConfigFits ext config.strings)
    (hsound : history.Sound ext config) {op : CacheOp} (hregular : op.Regular config)
    (hop : history.cache.Fits ext op) :
    ∃ next, history.step ext op = some next ∧ next.Sound ext config := by
  cases op with
  | push env message =>
      by_cases hmax : history.cache.nextSize ext message > maxCacheSize
      · refine ⟨history, ?_, hsound⟩
        simp only [step, OpenCache.perform, OpenCache.push_of_gt hmax]
      · obtain ⟨next, hpush, hholds, _⟩ := hsound.push hregular
          (Nat.not_lt.mp hmax) (hop.resolve_right hmax)
        refine ⟨⟨next, history.accepted ++ [message]⟩, ?_, hholds⟩
        simp only [step, OpenCache.perform, hpush]
  | clear env =>
      obtain ⟨given, hgiven, hstrings⟩ := hsound.config
      obtain ⟨next, hreset, hholds, _⟩ := hsound.whole.reset hregular hgiven
        (by rw [hstrings]; exact hsound.hash) (by rw [hstrings]; exact hfits)
      rw [hstrings] at hholds
      refine ⟨⟨next, []⟩, ?_, hholds⟩
      simp only [step, OpenCache.perform, hreset]
  | reopen given env =>
      obtain ⟨henv, hgiven⟩ := hregular
      have hsame := OpenCache.strings_of_given hgiven
      obtain ⟨next, hopen, hholds, _⟩ := OpenCache.openAt_holds hsound.closed hlossless
        hsound.hash hsame henv history.cache.object.path
      refine ⟨⟨next, history.accepted⟩, ?_, hholds⟩
      simp only [step, OpenCache.perform, hopen]

theorem Sound.fits_push (hsound : history.Sound ext config) {env : PushEnv}
    {message : TrackMessageImpl}
    (hsmall : recordHeaderSize + message.getSerializeSize ext ≤ cacheCapability) :
    history.cache.Fits ext (.push env message) := by
  left
  have hareaEnd := hsound.areaEnd
  have hend := hsound.layout.fits
  have hsize := hsound.whole.size_eq
  rw [OpenCache.nextSize_eq]
  omega

end History

/-- The operations of the round trip: records are at most 64 KiB long. -/
def CacheOp.Small (ext : Externals) : CacheOp → Prop
  | .push _ message => recordHeaderSize + message.getSerializeSize ext ≤ 65536
  | _ => True

namespace History

variable {history : History} {config : TrackerConfig}

theorem run_sound (hlossless : ext.Lossless) (hfits : OpenCache.ConfigFits ext config.strings)
    {ops : List CacheOp} (hops : ∀ op ∈ ops, op.Regular config ∧ op.Small ext)
    (hsound : history.Sound ext config) :
    ∃ last, ops.foldlM (step ext) history = some last ∧ last.Sound ext config := by
  induction ops generalizing history with
  | nil => exact ⟨history, rfl, hsound⟩
  | cons op ops ih =>
      obtain ⟨hregular, hsmall⟩ := hops op List.mem_cons_self
      have hop : history.cache.Fits ext op := by
        cases op with
        | push env message => exact hsound.fits_push hsmall
        | clear env => trivial
        | reopen given env => trivial
      obtain ⟨next, hstep, hnext⟩ := step_sound hlossless hfits hsound hregular hop
      obtain ⟨last, hrun, hlast⟩ := ih (fun op hop => hops op (List.mem_cons_of_mem _ hop)) hnext
      refine ⟨last, ?_, hlast⟩
      rw [List.foldlM_cons, hstep]
      exact hrun

theorem plainConfig_fits : OpenCache.ConfigFits wireFormat plainConfig.strings := by
  unfold OpenCache.ConfigFits
  decide

end History

end TapSdk.Tracker
