import TapSdk.Tracker.LoadLoop
import TapSdk.Tracker.Proof.RecordArea
import TapSdk.Tracker.WireFormat

/-!
# What `Load` reads

On any file that passes `CheckValid` the loop of `Load` ends, and returns what `loadLoop` says. It
stays in the record area unless whole records leave a rest of 1 to 15 bytes before `record_count`
is reached: then the length field of a header that is not there is read from behind the area.
-/

namespace TapSdk.Tracker

open Library

/-- `offset` is where a chain of `count` whole records ends that starts with the area: each header
says how long its record is, and each record ends inside the area. -/
inductive RecordChain (area : Memory) (recordSize : Nat) : Nat → Nat → Prop where
  | start : RecordChain area recordSize 0 0
  | next {count offset : Nat} : RecordChain area recordSize count offset →
      offset + (recordHeaderSize + (RecordHeader.decode area offset).length.toNat) ≤ recordSize →
      RecordChain area recordSize (count + 1)
        (offset + (recordHeaderSize + (RecordHeader.decode area offset).length.toNat))

variable {ext : Externals} {area : Memory} {recordCount recordSize : UInt32}
  {config : Option TrackerConfig} {clock : Nat → UInt32}

theorem RecordChain.offset_le {size count offset : Nat} (h : RecordChain area size count offset) :
    offset ≤ size := by
  cases h with
  | start => exact Nat.zero_le _
  | next _ hfits => exact hfits

theorem toNat_add_ofNat (a : UInt32) {n : Nat} (h : a.toNat + n < 2 ^ 32) :
    (a + UInt32.ofNat n).toNat = a.toNat + n := by
  rw [UInt32.toNat_add, UInt32.toNat_ofNat', Nat.mod_eq_of_lt (by omega : n < 2 ^ 32),
    Nat.mod_eq_of_lt h]

namespace LoadState

variable {state next : LoadState}

/-! ### One record -/

/-- What a record contributes to the result. -/
def loaded (ext : Externals) (area : Memory) (config : Option TrackerConfig)
    (clock : Nat → UInt32) (i : Nat) (header : RecordHeader) (offset : Nat) :
    List TrackMessageImpl :=
  let data := area.read (offset + recordHeaderSize) header.length.toNat
  if header.magic ≠ recordMagic then []
  else if header.hash ≠ cityHash64 data then []
  else
    match ext.message.parse data with
    | some proto => [⟨config, clock i, proto⟩]
    | none => []

variable {i offset : Nat} {header : RecordHeader}

theorem readRecord_spec (ext : Externals) (area : Memory) (config : Option TrackerConfig)
    (clock : Nat → UInt32) (next : LoadState) (i : Nat) (header : RecordHeader) (offset : Nat) :
    ∃ more : List Span,
      next.readRecord ext area config clock i header offset
        = { next with
            reads := next.reads ++ more
            result := next.result ++ loaded ext area config clock i header offset }
      ∧ ∀ span ∈ more, span.offset + span.size
          ≤ offset + (recordHeaderSize + header.length.toNat) := by
  have hheader : ∀ n, n ≤ recordHeaderSize →
      offset + n ≤ offset + (recordHeaderSize + header.length.toNat) := by omega
  have hmagic : ∀ span ∈ [(⟨offset, 4⟩ : Span)],
      span.offset + span.size ≤ offset + (recordHeaderSize + header.length.toNat) := by
    intro span hspan
    rw [List.mem_singleton.mp hspan]
    exact hheader 4 (by decide)
  have hdata : ∀ span ∈ [(⟨offset, 4⟩ : Span), ⟨offset + 4, 8⟩,
      ⟨offset + recordHeaderSize, header.length.toNat⟩],
      span.offset + span.size ≤ offset + (recordHeaderSize + header.length.toNat) := by
    intro span hspan
    rcases List.mem_cons.mp hspan with rfl | hspan
    · exact hheader 4 (by decide)
    rcases List.mem_cons.mp hspan with rfl | hspan
    · exact hheader 12 (by decide)
    rw [List.mem_singleton.mp hspan]
    exact Nat.le_of_eq (Nat.add_assoc ..)
  unfold readRecord loaded
  by_cases hm : header.magic ≠ recordMagic
  · refine ⟨_, ?_, hmagic⟩
    simp only [if_pos hm, List.append_nil]
  · refine ⟨_, ?_, hdata⟩
    by_cases hh :
        header.hash ≠ cityHash64 (area.read (offset + recordHeaderSize) header.length.toNat)
    · simp only [if_neg hm, if_pos hh, List.append_nil, List.append_assoc, List.cons_append,
        List.nil_append]
    · cases hp : ext.message.parse
        (area.read (offset + recordHeaderSize) header.length.toNat) with
      | none =>
          simp only [if_neg hm, if_neg hh, hp, List.append_nil, List.append_assoc,
            List.cons_append, List.nil_append]
      | some proto =>
          simp only [if_neg hm, if_neg hh, hp, List.append_assoc, List.cons_append,
            List.nil_append]

/-! ### One iteration -/

/-- What one round of the loop can do. -/
inductive Round (ext : Externals) (area : Memory) (recordCount recordSize : UInt32)
    (config : Option TrackerConfig) (clock : Nat → UInt32) (state : LoadState) :
    LoadState → Prop where
  | stop : ¬ (state.i < recordCount ∧ state.readSize < recordSize) →
      Round ext area recordCount recordSize config clock state { state with returned := true }
  | cutOff : state.i < recordCount → state.readSize < recordSize →
      recordSize.toNat < state.curOffset.toNat
        + (recordHeaderSize + (RecordHeader.decode area state.curOffset.toNat).length.toNat) →
      Round ext area recordCount recordSize config clock state
        { state with
          reads := state.reads ++ [⟨state.curOffset.toNat + 12, 4⟩]
          returned := true }
  | record (length : Nat) (more : List Span) :
      length = (RecordHeader.decode area state.curOffset.toNat).length.toNat →
      state.i < recordCount → state.readSize < recordSize →
      state.curOffset.toNat + (recordHeaderSize + length) ≤ recordSize.toNat →
      (∀ span ∈ more, span.offset + span.size
        ≤ state.curOffset.toNat + (recordHeaderSize + length)) →
      Round ext area recordCount recordSize config clock state
        { i := state.i + 1
          readSize := state.readSize + UInt32.ofNat (recordHeaderSize + length)
          curOffset := state.curOffset + UInt32.ofNat (recordHeaderSize + length)
          result := state.result ++ loaded ext area config clock state.i.toNat
            (RecordHeader.decode area state.curOffset.toNat) state.curOffset.toNat
          reads := state.reads ++ ⟨state.curOffset.toNat + 12, 4⟩ :: more
          returned := state.returned }

theorem step_round (ext : Externals) (area : Memory) (recordCount recordSize : UInt32)
    (config : Option TrackerConfig) (clock : Nat → UInt32) (hrunning : state.returned = false) :
    Round ext area recordCount recordSize config clock state
      (state.step ext area recordCount recordSize config clock) := by
  unfold step
  rw [if_neg (by rw [hrunning]; exact Bool.false_ne_true)]
  by_cases hcond : state.i < recordCount ∧ state.readSize < recordSize
  · rw [if_pos hcond]
    by_cases hcut : state.curOffset.toNat + recordHeaderSize
        + (RecordHeader.decode area state.curOffset.toNat).length.toNat > recordSize.toNat
    · simp only [if_pos hcut]
      exact .cutOff hcond.1 hcond.2 (by omega)
    · simp only [if_neg hcut]
      obtain ⟨more, hrecord, hmore⟩ := readRecord_spec ext area config clock
        { state with
          reads := state.reads ++ [⟨state.curOffset.toNat + 12, 4⟩]
          i := state.i + 1
          readSize := state.readSize + UInt32.ofNat (recordHeaderSize
            + (RecordHeader.decode area state.curOffset.toNat).length.toNat)
          curOffset := state.curOffset + UInt32.ofNat (recordHeaderSize
            + (RecordHeader.decode area state.curOffset.toNat).length.toNat) }
        state.i.toNat (RecordHeader.decode area state.curOffset.toNat) state.curOffset.toNat
      rw [hrecord]
      simp only [List.append_assoc, List.cons_append, List.nil_append]
      exact .record _ more rfl hcond.1 hcond.2 (by omega) hmore
  · rw [if_neg hcond]
    exact .stop hcond

theorem step_returned (h : state.returned = true) :
    state.step ext area recordCount recordSize config clock = state := by
  rw [step, h, if_pos rfl]

section

variable (hround : Round ext area recordCount recordSize config clock state next)

/-- The loop after `n` rounds. -/
def after (ext : Externals) (area : Memory) (recordCount recordSize : UInt32)
    (config : Option TrackerConfig) (clock : Nat → UInt32) (n : Nat) : LoadState :=
  (LoadState.step ext area recordCount recordSize config clock)^[n] start

theorem after_succ (n : Nat) :
    (after ext area recordCount recordSize config clock n).returned = true
        ∧ after ext area recordCount recordSize config clock (n + 1)
          = after ext area recordCount recordSize config clock n
      ∨ (after ext area recordCount recordSize config clock n).returned = false
        ∧ Round ext area recordCount recordSize config clock
          (after ext area recordCount recordSize config clock n)
          (after ext area recordCount recordSize config clock (n + 1)) := by
  have hsucc : after ext area recordCount recordSize config clock (n + 1)
      = (after ext area recordCount recordSize config clock n).step ext area recordCount recordSize
        config clock := Function.iterate_succ_apply' ..
  rw [hsucc]
  cases hreturned : (after ext area recordCount recordSize config clock n).returned with
  | true => exact .inl ⟨rfl, step_returned hreturned⟩
  | false => exact .inr ⟨rfl, step_round ext area recordCount recordSize config clock hreturned⟩

/-- What holds at the start and is kept by every round holds after any number of them. -/
theorem after_induction {P : LoadState → Prop} (hstart : P start)
    (hround : ∀ state next, state.returned = false → P state →
      Round ext area recordCount recordSize config clock state next → P next) (n : Nat) :
    P (after ext area recordCount recordSize config clock n) := by
  induction n with
  | zero => exact hstart
  | succ n ih =>
      rcases @after_succ ext area recordCount recordSize config clock n
        with ⟨_, hsame⟩ | ⟨hrunning, hnext⟩
      · rw [hsame]
        exact ih
      · exact hround _ _ hrunning ih hnext

/-! ### The counters -/

/-- Both counters stand at the end of a chain of `i` whole records, so neither has wrapped. -/
structure Tracks (area : Memory) (recordCount recordSize : UInt32) (state : LoadState) : Prop where
  chain : RecordChain area recordSize.toNat state.i.toNat state.curOffset.toNat
  readSize : state.readSize = state.curOffset
  counted : state.i ≤ recordCount

theorem Tracks.succ (h : state.Tracks area recordCount recordSize) {length : Nat}
    (hlength : length = (RecordHeader.decode area state.curOffset.toNat).length.toNat)
    (hlt : state.i < recordCount)
    (hfits : state.curOffset.toNat + (recordHeaderSize + length) ≤ recordSize.toNat) :
    (state.i + 1).toNat = state.i.toNat + 1
      ∧ (state.curOffset + UInt32.ofNat (recordHeaderSize + length)).toNat
        = state.curOffset.toNat + (recordHeaderSize + length)
      ∧ RecordChain area recordSize.toNat (state.i.toNat + 1)
          (state.curOffset.toNat + (recordHeaderSize + length)) := by
  have hword := recordSize.toNat_lt
  have hcount := recordCount.toNat_lt
  have hi := UInt32.lt_iff_toNat_lt.mp hlt
  subst hlength
  refine ⟨?_, toNat_add_ofNat _ (by omega), .next h.chain hfits⟩
  have hnowrap : state.i.toNat + 1 < 2 ^ 32 := by omega
  exact toNat_add_ofNat state.i hnowrap

theorem Tracks.room (h : state.Tracks area recordCount recordSize)
    (hsize : state.readSize < recordSize) : state.curOffset.toNat < recordSize.toNat := by
  rw [h.readSize] at hsize
  exact UInt32.lt_iff_toNat_lt.mp hsize

include hround in
theorem Tracks.round (h : state.Tracks area recordCount recordSize) :
    next.Tracks area recordCount recordSize := by
  cases hround with
  | stop _ => exact ⟨h.chain, h.readSize, h.counted⟩
  | cutOff _ _ _ => exact ⟨h.chain, h.readSize, h.counted⟩
  | record length more hlength hlt _ hfits _ =>
      obtain ⟨hi, hoffset, hchain⟩ := h.succ hlength hlt hfits
      refine ⟨?_, ?_, ?_⟩
      · simp only [hi, hoffset]
        exact hchain
      · simp only [h.readSize]
      · rw [UInt32.le_iff_toNat_le]
        simp only [hi]
        exact UInt32.lt_iff_toNat_lt.mp hlt

theorem after_tracks (n : Nat) :
    (after ext area recordCount recordSize config clock n).Tracks area recordCount recordSize := by
  refine after_induction ?_ (fun _ _ _ htracks hround => htracks.round hround) n
  exact ⟨.start, rfl, UInt32.le_iff_toNat_le.mpr (Nat.zero_le _)⟩

/-- After `n` rounds the loop has returned or has passed `n` records. -/
theorem returned_or_counted (n : Nat) :
    (after ext area recordCount recordSize config clock n).returned = true
      ∨ (after ext area recordCount recordSize config clock n).i.toNat = n := by
  induction n with
  | zero => exact .inr rfl
  | succ n ih =>
      rcases @after_succ ext area recordCount recordSize config clock n
        with ⟨hreturned, hsame⟩ | ⟨hrunning, hnext⟩
      · rw [hsame]
        exact .inl hreturned
      · have hn := ih.resolve_left (by rw [hrunning]; exact Bool.false_ne_true)
        generalize after ext area recordCount recordSize config clock (n + 1) = next at hnext ⊢
        cases hnext with
        | stop _ => exact .inl rfl
        | cutOff _ _ _ => exact .inl rfl
        | record length more hlength hlt _ hfits _ =>
            obtain ⟨hi, _, _⟩ := (after_tracks n).succ hlength hlt hfits
            right
            simp only [hi, hn]

/-- The loop ends: one round past the last record at the latest. -/
theorem returned_of_recordCount :
    (after ext area recordCount recordSize config clock (recordCount.toNat + 1)).returned
      = true := by
  rcases @returned_or_counted ext area recordCount recordSize config clock
    (recordCount.toNat + 1) with hreturned | hcount
  · exact hreturned
  · have hle := UInt32.le_iff_toNat_le.mp (@after_tracks ext area recordCount recordSize config
      clock (recordCount.toNat + 1)).counted
    omega

/-! ### What it returns -/

theorem loadLoop_succ (size remaining i readSize offset : Nat) :
    loadLoop ext area size config clock (remaining + 1) i readSize offset
      = if readSize < size then
          if offset + (recordHeaderSize + (RecordHeader.decode area offset).length.toNat) > size
          then []
          else loaded ext area config clock i (RecordHeader.decode area offset) offset
            ++ loadLoop ext area size config clock remaining (i + 1)
              (readSize + (recordHeaderSize + (RecordHeader.decode area offset).length.toNat))
              (offset + (recordHeaderSize + (RecordHeader.decode area offset).length.toNat))
        else [] := by
  rw [loadLoop]
  by_cases hroom : readSize < size
  · rw [if_pos hroom, if_pos hroom]
    simp only [Nat.add_assoc offset]
    split
    · rfl
    · unfold loaded
      simp only
      split
      · rfl
      split
      · rfl
      cases ext.message.parse (area.read (offset + recordHeaderSize)
        (RecordHeader.decode area offset).length.toNat) with
      | none => rfl
      | some proto => rfl
  · rw [if_neg hroom, if_neg hroom]

/-- What is still to come, in the words of `loadLoop`. -/
def pending (ext : Externals) (area : Memory) (recordCount recordSize : UInt32)
    (config : Option TrackerConfig) (clock : Nat → UInt32) (state : LoadState) :
    List TrackMessageImpl :=
  if state.returned then []
  else
    loadLoop ext area recordSize.toNat config clock (recordCount.toNat - state.i.toNat)
      state.i.toNat state.curOffset.toNat state.curOffset.toNat

include hround in
theorem Tracks.result_pending (h : state.Tracks area recordCount recordSize)
    (hrunning : state.returned = false) :
    next.result ++ next.pending ext area recordCount recordSize config clock
      = state.result ++ state.pending ext area recordCount recordSize config clock := by
  have hpending : state.pending ext area recordCount recordSize config clock
      = loadLoop ext area recordSize.toNat config clock (recordCount.toNat - state.i.toNat)
        state.i.toNat state.curOffset.toNat state.curOffset.toNat := by
    rw [pending, hrunning, if_neg Bool.false_ne_true]
  have hremaining : state.i < recordCount → recordCount.toNat - state.i.toNat
      = (recordCount.toNat - (state.i.toNat + 1)) + 1 := by
    intro hlt
    have hi := UInt32.lt_iff_toNat_lt.mp hlt
    omega
  rw [hpending]
  cases hround with
  | stop hcond =>
      have hnil : loadLoop ext area recordSize.toNat config clock
          (recordCount.toNat - state.i.toNat) state.i.toNat state.curOffset.toNat
          state.curOffset.toNat = [] := by
        by_cases hlt : state.i < recordCount
        · have hfull : ¬ state.curOffset.toNat < recordSize.toNat := by
            rw [← h.readSize]
            exact fun hsize => hcond ⟨hlt, UInt32.lt_iff_toNat_lt.mpr hsize⟩
          rw [hremaining hlt, loadLoop_succ, if_neg hfull]
        · have hzero : recordCount.toNat - state.i.toNat = 0 := by
            have hle := mt UInt32.lt_iff_toNat_lt.mpr hlt
            omega
          rw [hzero, loadLoop]
      rw [hnil]
      rfl
  | cutOff hlt hsize hcut =>
      rw [hremaining hlt, loadLoop_succ, if_pos (h.room hsize), if_pos hcut]
      rfl
  | record length more hlength hlt hsize hfits _ =>
      obtain ⟨hi, hoffset, _⟩ := h.succ hlength hlt hfits
      subst hlength
      rw [hremaining hlt, loadLoop_succ, if_pos (h.room hsize), if_neg (Nat.not_lt.mpr hfits)]
      simp only [pending, hrunning, Bool.false_eq_true, if_false, hi, hoffset, List.append_assoc]

theorem after_result_pending (n : Nat) :
    (after ext area recordCount recordSize config clock n).result
        ++ (after ext area recordCount recordSize config clock n).pending ext area recordCount
          recordSize config clock
      = loadLoop ext area recordSize.toNat config clock recordCount.toNat 0 0 0 := by
  have hboth := @after_induction ext area recordCount recordSize config clock
    (fun state => state.Tracks area recordCount recordSize
      ∧ state.result ++ state.pending ext area recordCount recordSize config clock
        = loadLoop ext area recordSize.toNat config clock recordCount.toNat 0 0 0)
    ⟨@after_tracks ext area recordCount recordSize config clock 0, rfl⟩
    (fun _ _ hrunning hstate hround => ⟨hstate.1.round hround,
      (hstate.1.result_pending hround hrunning).trans hstate.2⟩) n
  exact hboth.2

/-! ### What it reads -/

/-- Where the chain of whole records stops short of the area's end and of `record_count`, there is
room in the area for the length field of one more header. -/
def LengthsInside (area : Memory) (recordCount recordSize : UInt32) : Prop :=
  ∀ count offset, RecordChain area recordSize.toNat count offset → count < recordCount.toNat →
    offset = recordSize.toNat ∨ offset + 16 ≤ recordSize.toNat

include hround in
theorem Tracks.reads_inside (h : state.Tracks area recordCount recordSize)
    (hlengths : LengthsInside area recordCount recordSize)
    (hreads : ∀ span ∈ state.reads, span.offset + span.size ≤ recordSize.toNat) :
    ∀ span ∈ next.reads, span.offset + span.size ≤ recordSize.toNat := by
  have hlength : state.i < recordCount → state.readSize < recordSize →
      state.curOffset.toNat + 12 + 4 ≤ recordSize.toNat := by
    intro hlt hsize
    have hroom := h.room hsize
    have hinside := hlengths _ _ h.chain (UInt32.lt_iff_toNat_lt.mp hlt)
    omega
  cases hround with
  | stop _ => exact hreads
  | cutOff hlt hsize _ =>
      intro span hspan
      rcases List.mem_append.mp hspan with hold | hnew
      · exact hreads span hold
      · rw [List.mem_singleton.mp hnew]
        exact hlength hlt hsize
  | record length more _ hlt hsize hfits hmore =>
      intro span hspan
      rcases List.mem_append.mp hspan with hold | hnew
      · exact hreads span hold
      rcases List.mem_cons.mp hnew with rfl | hbody
      · exact hlength hlt hsize
      · exact Nat.le_trans (hmore span hbody) hfits

theorem after_reads_inside (hlengths : LengthsInside area recordCount recordSize) (n : Nat) :
    ∀ span ∈ (after ext area recordCount recordSize config clock n).reads,
      span.offset + span.size ≤ recordSize.toNat := by
  have hboth := @after_induction ext area recordCount recordSize config clock
    (fun state => state.Tracks area recordCount recordSize
      ∧ ∀ span ∈ state.reads, span.offset + span.size ≤ recordSize.toNat)
    ⟨@after_tracks ext area recordCount recordSize config clock 0,
      fun _ hspan => (List.not_mem_nil hspan).elim⟩
    (fun _ _ _ hstate hround => ⟨hstate.1.round hround,
      hstate.1.reads_inside hround hlengths hstate.2⟩) n
  exact hboth.2

/-- The loop follows every chain of whole records to its end. -/
theorem after_of_chain {count offset : Nat}
    (hchain : RecordChain area recordSize.toNat count offset) (hcount : count ≤ recordCount.toNat) :
    (after ext area recordCount recordSize config clock count).returned = false
      ∧ (after ext area recordCount recordSize config clock count).i.toNat = count
      ∧ (after ext area recordCount recordSize config clock count).curOffset.toNat = offset := by
  induction hchain with
  | start => exact ⟨rfl, rfl, rfl⟩
  | @next count offset hprev hfits ih =>
      obtain ⟨hrunning, hi, hoffset⟩ := ih (by omega)
      have htracks := @after_tracks ext area recordCount recordSize config clock count
      have hnext := ((@after_succ ext area recordCount recordSize config clock count).resolve_left
        (by rw [hrunning]; exact fun h => Bool.false_ne_true h.1)).2
      generalize after ext area recordCount recordSize config clock (count + 1) = next at hnext ⊢
      have hpos : 0 < recordHeaderSize := by decide
      cases hnext with
      | stop hcond =>
          refine absurd ⟨UInt32.lt_iff_toNat_lt.mpr (by omega), ?_⟩ hcond
          rw [htracks.readSize, UInt32.lt_iff_toNat_lt, hoffset]
          omega
      | cutOff _ _ hcut =>
          rw [hoffset] at hcut
          omega
      | record length more hlength hlt _ hroom _ =>
          obtain ⟨hi', hoffset', _⟩ := htracks.succ hlength hlt hroom
          refine ⟨hrunning, ?_, ?_⟩
          · simp only [hi', hi]
          · rw [hoffset', hlength, hoffset]

theorem lengthsInside_of_reads
    (hreads : ∀ n, ∀ span ∈ (after ext area recordCount recordSize config clock n).reads,
      span.offset + span.size ≤ recordSize.toNat) :
    LengthsInside area recordCount recordSize := by
  intro count offset hchain hcount
  by_contra hrest
  have hle := hchain.offset_le
  obtain ⟨hrunning, hi, hoffset⟩ := @after_of_chain ext area recordCount recordSize config clock
    count offset hchain (by omega)
  have htracks := @after_tracks ext area recordCount recordSize config clock count
  have hnext := ((@after_succ ext area recordCount recordSize config clock count).resolve_left
    (by rw [hrunning]; exact fun h => Bool.false_ne_true h.1)).2
  have hlast := hreads (count + 1)
  generalize after ext area recordCount recordSize config clock (count + 1) = next at hnext hlast
  -- the round reads the length field at `offset`
  have hread : ⟨offset + 12, 4⟩ ∈ next.reads := by
    cases hnext with
    | stop hcond =>
        refine absurd ⟨UInt32.lt_iff_toNat_lt.mpr (by omega), ?_⟩ hcond
        rw [htracks.readSize, UInt32.lt_iff_toNat_lt, hoffset]
        omega
    | cutOff _ _ _ =>
        rw [hoffset]
        exact List.mem_append_right _ (List.mem_singleton_self _)
    | record _ _ _ _ _ _ _ =>
        rw [hoffset]
        exact List.mem_append_right _ List.mem_cons_self
  have hinside := hlast _ hread
  simp only at hinside
  omega

end

end LoadState

/-! ### The cache -/

namespace OpenCache

variable {cache : OpenCache}

theorem areaEnd_le_of_checkValid (hvalid : cache.checkValid = true) :
    cache.areaEnd ≤ cache.size := by
  simp only [checkValid, decide_eq_true_eq] at hvalid
  exact hvalid.2.2.2

theorem loadState_of_checkValid (hvalid : cache.checkValid = true) (clock : Nat → UInt32)
    (iterations : Nat) :
    cache.loadState ext clock iterations
      = LoadState.after ext cache.area cache.header.recordCount cache.header.recordSize
        cache.object.config clock iterations := by
  rw [loadState, if_neg (Nat.not_lt.mpr (areaEnd_le_of_checkValid hvalid)), LoadState.after]

/-- The machine computes `load`. -/
theorem loadState_result (hvalid : cache.checkValid = true) (clock : Nat → UInt32)
    {iterations : Nat} (hreturned : (cache.loadState ext clock iterations).returned = true) :
    (cache.loadState ext clock iterations).result = cache.load ext clock := by
  have hload : cache.load ext clock = cache.decodeArea ext clock := by
    rw [load, if_neg (Nat.not_lt.mpr (areaEnd_le_of_checkValid hvalid))]
  rw [loadState_of_checkValid hvalid] at hreturned ⊢
  have hresult := @LoadState.after_result_pending ext cache.area cache.header.recordCount
    cache.header.recordSize cache.object.config clock iterations
  rw [LoadState.pending, hreturned, if_pos rfl, List.append_nil] at hresult
  rw [hresult, hload, decodeArea]

/-- **`Load` on any file.** For every content that passes `CheckValid`, `Load` returns, and every
byte it reads as a record lies in the record area if and only if no chain of fewer than
`record_count` whole records leaves a rest of 1 to 15 bytes. -/
theorem load_inside_iff (ext : Externals) (cache : OpenCache) (hvalid : cache.checkValid = true)
    (clock : Nat → UInt32) :
    ((∃ iterations, (cache.loadState ext clock iterations).returned = true
        ∧ (cache.loadState ext clock iterations).result = cache.load ext clock)
      ∧ ∀ iterations, ∀ span ∈ (cache.loadState ext clock iterations).reads,
          cache.InRecordArea span)
    ↔ ∀ count offset,
        RecordChain cache.area cache.header.recordSize.toNat count offset →
        count < cache.header.recordCount.toNat →
        offset = cache.header.recordSize.toNat
          ∨ offset + 16 ≤ cache.header.recordSize.toNat := by
  have hends : (cache.loadState ext clock (cache.header.recordCount.toNat + 1)).returned
      = true := by
    rw [loadState_of_checkValid hvalid]
    exact LoadState.returned_of_recordCount
  constructor
  · rintro ⟨_, hreads⟩
    apply @LoadState.lengthsInside_of_reads ext _ _ _ cache.object.config clock
    intro n
    rw [← loadState_of_checkValid hvalid]
    exact hreads n
  · intro hlengths
    refine ⟨⟨_, hends, loadState_result hvalid clock hends⟩, ?_⟩
    intro iterations
    rw [loadState_of_checkValid hvalid]
    exact LoadState.after_reads_inside hlengths iterations

/-- A file of the initial size that starts with `header` and is zero from there on, opened. -/
def opensOn (header : CacheHeader) : Bool × OpenCache :=
  openAt wireFormat plainConfig.hash [] (some plainConfig)
    (some ((FileData.empty.resize cacheCapability).pwrite 0 header.bytes)) InitEnv.ideal

/-- One empty record, though the header counts two. -/
def wholeRecord : OpenCache :=
  (opensOn ⟨cacheMagic, cacheVersionCode, plainConfig.hash, 0, 2, 20⟩).2

theorem load_inside_wholeRecord :
    wholeRecord.checkValid = true
      ∧ ∀ iterations, ∀ span ∈ (wholeRecord.loadState wireFormat (fun _ => 0) iterations).reads,
          wholeRecord.InRecordArea span := by
  have hvalid : wholeRecord.checkValid = true := by decide +kernel
  have hsize : wholeRecord.header.recordSize.toNat = 20 := by decide +kernel
  refine ⟨hvalid, ((load_inside_iff wireFormat wholeRecord hvalid fun _ => 0).mpr ?_).2⟩
  rw [hsize]
  intro count offset hchain _
  have hheader : recordHeaderSize = 20 := rfl
  cases hchain with
  | start => exact .inr (by decide)
  | next hprev hfits => exact .inl (by omega)

/-- An area of four bytes that is said to hold a record. -/
def shortTail : OpenCache :=
  (opensOn ⟨cacheMagic, cacheVersionCode, plainConfig.hash, 0, 1, 4⟩).2

theorem load_outside_shortTail :
    shortTail.checkValid = true
      ∧ ¬ ((∃ iterations, (shortTail.loadState wireFormat (fun _ => 0) iterations).returned = true
            ∧ (shortTail.loadState wireFormat (fun _ => 0) iterations).result
              = shortTail.load wireFormat fun _ => 0)
          ∧ ∀ iterations, ∀ span ∈ (shortTail.loadState wireFormat (fun _ => 0) iterations).reads,
              shortTail.InRecordArea span) := by
  refine ⟨by decide +kernel, fun ⟨_, hreads⟩ => ?_⟩
  have hread : (⟨12, 4⟩ : Span) ∈ (shortTail.loadState wireFormat (fun _ => 0) 1).reads := by
    decide +kernel
  have houtside : ¬ shortTail.InRecordArea ⟨12, 4⟩ := by decide +kernel
  exact houtside (hreads 1 _ hread)

end OpenCache

end TapSdk.Tracker
