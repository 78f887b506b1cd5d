import Mathlib.Data.List.Nodup
import TapSdk.Tracker.Proof.FlushLoop
import TapSdk.Tracker.Proof.Refinement
import TapSdk.Tracker.Service

/-!
# No message is lost or duplicated

The manager, the files and the ledger of the service go hand in hand through every interleaving of
flushes, uploads, completions and restarts, as long as the file operations succeed and no record is
longer than 64 KiB.
-/

namespace TapSdk.Tracker

open Library

variable {ext : Externals}

namespace Service

variable {service next : Service} {trackerGroupSize : UInt32}

/-- What the slots contain, by the ledger. -/
def contents (service : Service) : Contents :=
  fun hash index => (service.ledger.stored (hash, index)).map Prod.snd

/-- The steps of a run in which the file operations succeed, records are at most 64 KiB long, and a
process that starts finds the files the one before has left. -/
def Allowed (ext : Externals) (service : Service) : ServiceOp → Prop
  | .flush _ message env =>
      env.Succeeds ∧ recordHeaderSize + message.getSerializeSize ext ≤ 65536
  | .check _ _ => True
  | .complete _ _ env => env.reset.Succeeds
  | .restart names env => names.Nodup
      ∧ (∀ name, name ∈ names ↔ service.manager.files name ≠ none)
      ∧ ∀ name, (env.init name).Succeeds

structure Sound (ext : Externals) (service : Service) : Prop where
  faithful : service.manager.Faithful ext service.contents []
  exclusive : service.ledger.Exclusive service.acknowledged
  flagged : ∀ entry ∈ service.acknowledged, service.flushed entry.1 = true
  distinct : (service.acknowledged.map Prod.fst).Nodup
  uploaded : service.uploads.map (fun group => group.logs.map (·.contents))
    = service.ledger.delivered.map (fun entries => entries.map fun entry => entry.2.proto.logged)

theorem start_sound (ext : Externals) (trackerGroupSize : UInt32) :
    (start trackerGroupSize).Sound ext := by
  refine ⟨⟨Manager.slots_empty _ _, ?_, ?_, ?_, ?_⟩, Ledger.exclusive_empty, ?_, List.nodup_nil,
    rfl⟩
  · intro hash index cache hcache
    cases hcache
  · intro upload hupload
    cases hupload
  · exact fun hash index _ => Or.inr ⟨rfl, fun _ => rfl⟩
  · exact fun name hname => absurd rfl hname
  · intro entry hentry
    cases hentry

/-! ### One step -/

theorem contents_setSlot (ledger : Ledger Slot Flushed) (hash : UInt64) (index : Nat)
    (entries : List Flushed) :
    (fun other position => ((ledger.setSlot (hash, index) entries).stored (other, position)).map
        Prod.snd)
      = Contents.set (fun other position => (ledger.stored (other, position)).map Prod.snd) hash
        index (entries.map Prod.snd) := by
  funext other position
  simp only [Ledger.setSlot, Contents.set, Prod.mk.injEq]
  split <;> rfl

theorem Sound.flush (h : service.Sound ext) (hlossless : ext.Lossless) (id : Nat)
    {message : TrackMessageImpl} {env : FlushEnv} (henv : env.Succeeds)
    (hsmall : recordHeaderSize + message.getSerializeSize ext ≤ 65536) :
    (service.flush ext id message env).Sound ext := by
  unfold Service.flush
  cases hflag : service.flushed id with
  | true => exact h
  | false =>
  simp only [Bool.false_eq_true, if_false]
  have hflagged : ∀ entry ∈ service.acknowledged,
      (if entry.1 = id then true else service.flushed entry.1) = true := by
    intro entry hentry
    split
    · rfl
    · exact h.flagged entry hentry
  cases hconfig : message.config with
  | none =>
      have hnowhere : service.manager.flushTracker ext message env = (none, service.manager) := by
        simp only [Manager.flushTracker, hconfig]
      simp only [hnowhere]
      exact ⟨h.faithful, h.exclusive, hflagged, h.distinct, h.uploaded⟩
  | some config =>
      have hsettled := h.faithful.flushTracker hlossless hconfig henv hsmall
      cases hflush : service.manager.flushTracker ext message env with
      | mk taken manager =>
      rw [hflush] at hsettled
      cases taken with
      | none => exact ⟨hsettled, h.exclusive, hflagged, h.distinct, h.uploaded⟩
      | some index =>
          have hfresh : id ∉ service.acknowledged.map Prod.fst := by
            intro hmem
            obtain ⟨entry, hentry, rfl⟩ := List.mem_map.mp hmem
            rw [h.flagged entry hentry] at hflag
            cases hflag
          have hnew : (id, message) ∉ service.acknowledged :=
            fun hmem => hfresh (List.mem_map_of_mem hmem)
          refine ⟨?_, h.exclusive.accept hnew, ?_, ?_, h.uploaded⟩
          · have haccount := contents_setSlot service.ledger config.hash index
              (service.ledger.stored (config.hash, index) ++ [(id, message)])
            rw [List.map_append] at haccount
            exact (congrArg (Manager.Faithful ext · [] manager) haccount).mpr hsettled
          · intro entry hentry
            rcases List.mem_append.mp hentry with hold | hlast
            · exact hflagged entry hold
            · rw [List.mem_singleton.mp hlast]
              simp only [if_true]
          · simp only [List.map_append, List.map_cons, List.map_nil]
            rw [← List.concat_eq_append]
            exact List.Nodup.concat hfresh h.distinct

theorem Sound.complete (h : service.Sound ext) {position : Nat} {success : Bool}
    {env : CompletionEnv} (henv : env.reset.Succeeds)
    (hcomplete : service.complete ext position success env = some next) : next.Sound ext := by
  unfold Service.complete at hcomplete
  split at hcomplete
  · rename_i upload manager hupload hmanager
    obtain ⟨landed, hlanded, hrequest, hfaithful⟩ := h.faithful.complete henv hmanager
    obtain rfl := Option.some.inj (hupload.symm.trans hlanded)
    cases success with
    | true =>
        simp only [if_true, Option.some.injEq] at hcomplete
        subst hcomplete
        obtain ⟨group, hgroup⟩ := Option.ne_none_iff_exists'.mp (hrequest rfl)
        have hposted := (h.faithful.flying upload (List.mem_of_getElem? hupload)).2 group hgroup
        refine ⟨?_, h.exclusive.deliver _, h.flagged, h.distinct, ?_⟩
        · have haccount := contents_setSlot service.ledger upload.hash upload.index []
          exact (congrArg (Manager.Faithful ext · [] manager) haccount).mpr hfaithful
        · simp only [Ledger.deliver, List.map_append, h.uploaded, hgroup, Option.toList_some,
            List.map_cons, List.map_nil, hposted, contents, List.map_map]
          rfl
    | false =>
        simp only [Bool.false_eq_true, if_false, Option.some.injEq] at hcomplete
        subst hcomplete
        exact ⟨hfaithful, h.exclusive, h.flagged, h.distinct, h.uploaded⟩
  · cases hcomplete

theorem Sound.step (h : service.Sound ext) (hlossless : ext.Lossless) {op : ServiceOp}
    (hallowed : Allowed ext service op) (hstep : service.step ext op = some next) :
    next.Sound ext := by
  cases op with
  | flush id message env =>
      obtain rfl := Option.some.inj hstep
      exact h.flush hlossless id hallowed.1 hallowed.2
  | check order clock =>
      obtain rfl := Option.some.inj hstep
      refine ⟨?_, h.exclusive, h.flagged, h.distinct, h.uploaded⟩
      dsimp only [Manager.checkAndUploadTrackers]
      repeat' split
      all_goals first | exact h.faithful | exact h.faithful.upload hlossless _ _ _
  | complete position success env => exact h.complete hallowed hstep
  | restart names env =>
      obtain rfl := Option.some.inj hstep
      obtain ⟨hnodup, hnames, hload⟩ := hallowed
      exact ⟨h.faithful.restart hlossless hload hnodup hnames, h.exclusive, h.flagged, h.distinct,
        h.uploaded⟩

/-! ### Every run -/

theorem sound_of_reaches (hlossless : ext.Lossless)
    (hreach : (system ext trackerGroupSize).Reaches (Allowed ext) service) : service.Sound ext := by
  refine hreach.invariant (Sound ext) ?_ ?_
  · rintro state rfl
    exact start_sound ext trackerGroupSize
  · intro state op next hsound hallowed hstep
    exact hsound.step hlossless hallowed hstep

end Service

end TapSdk.Tracker
