import TapSdk.Tracker.Proof.Slots
import TapSdk.Tracker.Service

/-!
# A flush that is refused

`FlushTracker` flags the message before it looks for a cache, and the flag is never taken back. A
refused flush therefore leaves its mark on the message unless it was refused before that point;
every later flush of the message is refused as well, whatever has become of the caches.
-/

namespace TapSdk.Tracker

open Library

variable {ext : Externals}

namespace Manager

/-- The caches, the slots and the set of files are the same, but for a cache that has left with an
upload. -/
structure SameSlots (before after : Manager) : Prop where
  caches : ∀ hash index, (after.registered hash index).isSome
    = (before.registered hash index).isSome
    ∨ ∃ upload ∈ after.inFlight.drop before.inFlight.length,
        upload.hash = hash ∧ upload.index = index
  ids : after.trackerCacheIds = before.trackerCacheIds
  files : ∀ path, (after.files path).isSome = (before.files path).isSome

theorem SameSlots.refl (manager : Manager) : manager.SameSlots manager :=
  ⟨fun _ _ => .inl rfl, rfl, fun _ => rfl⟩

end Manager

namespace Service

variable {service next last : Service} {id : Nat} {message : TrackMessageImpl} {env : FlushEnv}

/-- The call has changed nothing: the message can be flushed again, and the manager is as before,
apart from an upload. -/
structure Unchanged (before after : Service) (tracker : Option Flushed) : Prop where
  unflushed : ∀ id message, tracker = some (id, message) → after.flushed id = false
  manager : before.manager.SameSlots after.manager

/-! ### The flag -/

theorem flush_flushed (h : service.flushed id = false) (other : Nat) :
    (service.flush ext id message env).flushed other
      = if other = id then true else service.flushed other := by
  unfold flush
  rw [if_neg (by rw [h]; exact Bool.false_ne_true)]
  rcases service.manager.flushTracker ext message env with ⟨_ | index, manager⟩
  · rfl
  · cases message.config with
    | none => rfl
    | some config => rfl

theorem flushed_flush (service : Service) (id : Nat) (message : TrackMessageImpl)
    (env : FlushEnv) : (service.flush ext id message env).flushed id = true := by
  cases h : service.flushed id with
  | true =>
      rw [flush, h, if_pos rfl]
      exact h
  | false => rw [flush_flushed h, if_pos rfl]

theorem flushed_flush_of_flushed {other : Nat} (h : service.flushed other = true) :
    (service.flush ext id message env).flushed other = true := by
  cases hid : service.flushed id with
  | true =>
      rw [flush, hid, if_pos rfl]
      exact h
  | false => rw [flush_flushed hid, h, ite_self]

/-- No step takes the flag of a message back. -/
theorem flushed_step {op : ServiceOp} (h : service.flushed id = true)
    (hstep : service.step ext op = some next) : next.flushed id = true := by
  cases op with
  | flush other message env =>
      rw [← Option.some.inj hstep]
      exact flushed_flush_of_flushed h
  | check order clock =>
      rw [← Option.some.inj hstep]
      exact h
  | complete position success env =>
      simp only [step, complete] at hstep
      split at hstep
      · split at hstep
        · rw [← Option.some.inj hstep]
          exact h
        · rw [← Option.some.inj hstep]
          exact h
      · cases hstep
  | restart names env =>
      rw [← Option.some.inj hstep]
      exact h

theorem flushed_run {ops : List ServiceOp} (h : service.flushed id = true)
    (hrun : ops.foldlM (step ext) service = some last) : last.flushed id = true := by
  induction ops generalizing service with
  | nil =>
      rw [← Option.some.inj hrun]
      exact h
  | cons op ops ih =>
      rw [List.foldlM_cons] at hrun
      obtain ⟨next, hstep, hrest⟩ := Option.bind_eq_some_iff.mp hrun
      exact ih (flushed_step h hstep) hrest

theorem flushTracker_of_flushed (inited : Bool) (h : service.flushed id = true) :
    (service.flushTracker ext inited (some (id, message)) env).1 = false := by
  cases inited with
  | false => rfl
  | true => simp only [flushTracker, h, if_true]

theorem flushed_flushTracker (service : Service) (id : Nat) (message : TrackMessageImpl)
    (env : FlushEnv) :
    (service.flushTracker ext true (some (id, message)) env).2.flushed id = true := by
  simp only [flushTracker]
  split
  · rename_i hflagged
    exact hflagged
  · exact flushed_flush service id message env

/-- **A refused flush changes nothing exactly when it is refused at once.** For every state, message
and pattern of failures in which `FlushTracker` returns `false` on a message not flushed before, the
message is still unflushed and the manager as before if and only if the call came before `Init` or
without a message. Otherwise no later flush of the message is accepted, after any further steps. -/
theorem refused_flush_unchanged_iff (ext : Externals) (service : Service) (inited : Bool)
    (tracker : Option Flushed) (env : FlushEnv)
    (hfresh : ∀ id message, tracker = some (id, message) → service.flushed id = false)
    (hrefused : (service.flushTracker ext inited tracker env).1 = false) :
    (service.Unchanged (service.flushTracker ext inited tracker env).2 tracker
      ↔ inited = false ∨ tracker = none)
    ∧ (¬ (inited = false ∨ tracker = none) → ∀ (ops : List ServiceOp) (last : Service),
        ops.foldlM (step ext) (service.flushTracker ext inited tracker env).2 = some last →
        ∀ env, (last.flushTracker ext inited tracker env).1 = false) := by
  constructor
  · constructor
    · intro hunchanged
      by_contra hlate
      obtain ⟨hinited, htracker⟩ := not_or.mp hlate
      obtain ⟨⟨id, message⟩, rfl⟩ := Option.ne_none_iff_exists'.mp htracker
      rw [Bool.not_eq_false] at hinited
      subst hinited
      have hflag := hunchanged.unflushed id message rfl
      rw [flushed_flushTracker] at hflag
      cases hflag
    · rintro (rfl | rfl)
      · exact ⟨hfresh, .refl _⟩
      · cases inited <;> exact ⟨hfresh, .refl _⟩
  · intro hlate ops last hrun env'
    obtain ⟨hinited, htracker⟩ := not_or.mp hlate
    obtain ⟨⟨id, message⟩, rfl⟩ := Option.ne_none_iff_exists'.mp htracker
    rw [Bool.not_eq_false] at hinited
    subst hinited
    exact flushTracker_of_flushed true
      (flushed_run (flushed_flushTracker service id message env) hrun)

theorem refused_flush_before_init :
    (start 1).Unchanged ((start 1).flushTracker wireFormat false
      (some (0, plainMessage [118])) FlushEnv.ideal).2 (some (0, plainMessage [118])) :=
  (refused_flush_unchanged_iff wireFormat (start 1) false (some (0, plainMessage [118]))
    FlushEnv.ideal (fun _ _ _ => rfl) rfl).1.mpr (.inl rfl)

/-- `fsync` fails in the first push. -/
def FlushEnv.uncommitted : FlushEnv :=
  { FlushEnv.ideal with push := fun _ => { PushEnv.ideal with commit := false } }

/-- A cache has been created, and the message is flagged though no cache has accepted it. -/
theorem refused_flush_marks :
    (start 1).flushed 0 = false
      ∧ ((start 1).flushTracker wireFormat true (some (0, plainMessage [118]))
        FlushEnv.uncommitted).1 = false
      ∧ ¬ (start 1).Unchanged ((start 1).flushTracker wireFormat true
          (some (0, plainMessage [118])) FlushEnv.uncommitted).2 (some (0, plainMessage [118]))
      ∧ (((start 1).flushTracker wireFormat true (some (0, plainMessage [118]))
          FlushEnv.uncommitted).2.manager.registered plainConfig.hash 0).isSome = true := by
  refine ⟨rfl, by decide +kernel, fun hunchanged => ?_, by decide +kernel⟩
  have hflag := hunchanged.unflushed 0 _ rfl
  rw [flushed_flushTracker] at hflag
  cases hflag

end Service

end TapSdk.Tracker
