import TapSdk.Login.Polling

/-!
# When a login times out

The loop subtracts two readings of the online clock without a sign and compares the difference with
what the server sent, without a sign as well. A clock that has gone back shows almost as many
seconds as there are, and so does a time to expire that is negative.
-/

namespace TapSdk.Login

open Library

/-! ### Without a sign -/

theorem toNat_toUInt64 (value : Int64) : (value.toUInt64.toNat : Int)
    = if 0 ≤ value.toInt then value.toInt else value.toInt + 18446744073709551616 := by
  have hcond : value.toInt = if 2 * value.toUInt64.toNat < 18446744073709551616
      then (value.toUInt64.toNat : Int) else value.toUInt64.toNat - 18446744073709551616 :=
    BitVec.toInt_eq_toNat_cond value.toBitVec
  have hlt : value.toUInt64.toNat < 18446744073709551616 := value.toUInt64.toNat_lt
  split at hcond <;> split <;> omega

/-- The whole seconds that the online clock shows. -/
def Reading.seconds (reading : Reading) : Int := reading.online.toInt.tdiv 1000

theorem Reading.toInt_div (reading : Reading) : (reading.online / 1000).toInt = reading.seconds :=
  Int64.toInt_div_of_ne_right _ _ (by decide)

theorem Reading.seconds_bounds (reading : Reading) :
    -9223372036854776 ≤ reading.seconds ∧ reading.seconds ≤ 9223372036854776 := by
  have hlt : reading.online.toInt < 9223372036854775808 := reading.online.toInt_lt
  have hle : -9223372036854775808 ≤ reading.online.toInt := reading.online.le_toInt
  have habs : (reading.online.toInt.tdiv 1000).natAbs = reading.online.toInt.natAbs / 1000 :=
    Int.natAbs_tdiv _ _
  unfold Reading.seconds
  omega

/-- What the online clock says has elapsed, which is negative when it has gone back. -/
def onlineElapsed (start reading : Reading) : Int := reading.seconds - start.seconds

theorem toNat_timeSecNow_sub (start reading : Reading) :
    ((reading.timeSecNow - start.timeSecNow).toNat : Int) = if 0 ≤ onlineElapsed start reading
      then onlineElapsed start reading
      else onlineElapsed start reading + 18446744073709551616 := by
  have hreading := toNat_toUInt64 (reading.online / 1000)
  have hstart := toNat_toUInt64 (start.online / 1000)
  have hreadingBounds := reading.seconds_bounds
  have hstartBounds := start.seconds_bounds
  have hsub : (reading.timeSecNow - start.timeSecNow).toNat
      = (18446744073709551616 - start.timeSecNow.toNat + reading.timeSecNow.toNat)
        % 18446744073709551616 := UInt64.toNat_sub _ _
  have hlt : start.timeSecNow.toNat < 18446744073709551616 := start.timeSecNow.toNat_lt
  rw [Reading.toInt_div] at hreading hstart
  unfold Reading.timeSecNow at hsub hlt ⊢
  unfold onlineElapsed
  split at hreading <;> split at hstart <;> split <;> omega

/-! ### The condition of the loop -/

/-- The online clock has gone forward, and not yet by so many seconds. With a negative time to
expire, it has not gone back, or by more than that. -/
def WithinExpiry (expiresIn elapsed : Int) : Prop :=
  if 0 ≤ expiresIn then 0 ≤ elapsed ∧ elapsed < expiresIn else 0 ≤ elapsed ∨ elapsed < expiresIn

theorem polls_iff (start reading : Reading) (expiresIn : Int64) :
    reading.timeSecNow - start.timeSecNow < expiresIn.toUInt64
      ↔ WithinExpiry expiresIn.toInt (onlineElapsed start reading) := by
  have hsub := toNat_timeSecNow_sub start reading
  have hexpires := toNat_toUInt64 expiresIn
  have hlt : expiresIn.toInt < 9223372036854775808 := expiresIn.toInt_lt
  have hle : -9223372036854775808 ≤ expiresIn.toInt := expiresIn.le_toInt
  have hreadingBounds := reading.seconds_bounds
  have hstartBounds := start.seconds_bounds
  have hbounds : -18446744073709552 ≤ onlineElapsed start reading
      ∧ onlineElapsed start reading ≤ 18446744073709552 := by
    unfold onlineElapsed
    omega
  rw [UInt64.lt_iff_toNat_lt]
  unfold WithinExpiry
  split at hsub <;> split at hexpires <;> split <;> omega

/-! ### The checks -/

def timeoutError : Net.Error := ⟨-1, -1, ascii "Timeout!"⟩

section Loop

variable {client : Net.TapHttpClient} {forms : Bytes} {start : Reading} {expiresIn : Int64}

theorem checkState_of_goesOn {check : Check} {rounds : List Round}
    (hpolls : check.reading.timeSecNow - start.timeSecNow < expiresIn.toUInt64)
    (hgoesOn : check.goesOn client forms = true) :
    checkState client forms start.timeSecNow expiresIn.toUInt64 (check.round :: rounds)
      = checkState client forms start.timeSecNow expiresIn.toUInt64 rounds := by
  have hround : check.round.now - start.timeSecNow < expiresIn.toUInt64 := hpolls
  unfold Check.goesOn at hgoesOn
  rw [checkState, if_pos hround]
  simp only [Check.round]
  -- a request that gives no token, in a window that is still open
  cases hvalue : check.token forms with
  | none =>
      rw [hvalue] at hgoesOn
      cases hgoesOn
  | some value =>
      rw [hvalue] at hgoesOn
      dsimp only at hgoesOn ⊢
      cases hpost : client.postAsync AccessToken.construct value with
      | ok token =>
          rw [hpost] at hgoesOn
          cases hgoesOn
      | error error =>
          rw [hpost] at hgoesOn
          have hopen : check.canceled = false := by simpa using hgoesOn
          exact if_neg (Bool.eq_false_iff.mp hopen)

theorem checkState_of_not_goesOn {check : Check} {rounds : List Round}
    (hpolls : check.reading.timeSecNow - start.timeSecNow < expiresIn.toUInt64)
    (hgoesOn : check.goesOn client forms = false) :
    checkState client forms start.timeSecNow expiresIn.toUInt64 (check.round :: rounds)
      ≠ some (.error timeoutError) := by
  have hround : check.round.now - start.timeSecNow < expiresIn.toUInt64 := hpolls
  unfold Check.goesOn at hgoesOn
  rw [checkState, if_pos hround]
  simp only [Check.round]
  cases hvalue : check.token forms with
  | none =>
      intro hsame
      cases hsame
  | some value =>
      rw [hvalue] at hgoesOn
      dsimp only at hgoesOn ⊢
      cases hpost : client.postAsync AccessToken.construct value with
      | ok token =>
          intro hsame
          cases hsame
      | error error =>
          rw [hpost] at hgoesOn
          have hcanceled : check.canceled = true := by simpa using hgoesOn
          exact (if_pos hcanceled).trans_ne (by decide)

/-- The loop returns the error at a check after which it does not send a request. -/
theorem pollState_timeout_iff (checks : List Check) :
    pollState client forms start expiresIn checks = some (.error timeoutError)
      ↔ ∃ check, (check, false) ∈ checksMade client forms start expiresIn checks := by
  unfold pollState
  induction checks with
  | nil => simp [checkState, checksMade]
  | cons check rest ih =>
      rw [List.map_cons, checksMade]
      by_cases hpolls : check.reading.timeSecNow - start.timeSecNow < expiresIn.toUInt64
      · rw [if_pos hpolls]
        cases hgoesOn : check.goesOn client forms with
        | true =>
            rw [checkState_of_goesOn hpolls hgoesOn, ih]
            simp
        | false =>
            refine iff_of_false (checkState_of_not_goesOn hpolls hgoesOn) ?_
            simp
      · rw [if_neg hpolls, checkState]
        exact iff_of_true (if_neg hpolls) ⟨check, List.mem_singleton_self _⟩

theorem polled_iff_of_mem {checks : List Check} {check : Check} {polled : Bool}
    (h : (check, polled) ∈ checksMade client forms start expiresIn checks) :
    polled = true ↔ WithinExpiry expiresIn.toInt (onlineElapsed start check.reading) := by
  rw [← polls_iff]
  induction checks with
  | nil => cases h
  | cons first rest ih =>
      rw [checksMade] at h
      split at h
      · rename_i hpolls
        rcases List.mem_cons.mp h with hfirst | hrest
        · obtain ⟨rfl, rfl⟩ := Prod.mk.inj hfirst
          exact iff_of_true rfl hpolls
        · split at hrest
          · exact ih hrest
          · cases hrest
      · rename_i hpolls
        obtain ⟨rfl, rfl⟩ := Prod.mk.inj (List.mem_singleton.mp h)
        exact iff_of_false (by decide) hpolls

/-! ### Timing out -/

/-- The milliseconds that have elapsed on the local clock. -/
def localElapsed (start reading : Reading) : Int := reading.localNow.toInt - start.localNow.toInt

def Expired (start : Reading) (expiresIn : Int64) (reading : Reading) : Prop :=
  1000 * expiresIn.toInt ≤ localElapsed start reading

/-- The loop ends with the error only at a check at which the code has expired, and sends a request
only after one at which it has not. -/
def TimesOutAtExpiry (client : Net.TapHttpClient) (forms : Bytes) (start : Reading)
    (expiresIn : Int64) (checks : List Check) : Prop :=
  (∀ check, (check, false) ∈ checksMade client forms start expiresIn checks →
    Expired start expiresIn check.reading)
  ∧ ∀ check, (check, true) ∈ checksMade client forms start expiresIn checks →
    ¬ Expired start expiresIn check.reading

/-- The loop times out at the expiry exactly when the two clocks agree on it at every check. -/
theorem times_out_at_expiry_iff (client : Net.TapHttpClient) (forms : Bytes) (start : Reading)
    (expiresIn : Int64) (checks : List Check) :
    (TimesOutAtExpiry client forms start expiresIn checks
      ↔ ∀ made ∈ checksMade client forms start expiresIn checks,
          (WithinExpiry expiresIn.toInt (onlineElapsed start made.1.reading)
            ↔ localElapsed start made.1.reading < 1000 * expiresIn.toInt))
    ∧ (pollState client forms start expiresIn checks = some (.error timeoutError)
        ↔ ∃ check, (check, false) ∈ checksMade client forms start expiresIn checks) := by
  refine ⟨?_, pollState_timeout_iff checks⟩
  have hexpired : ∀ reading, localElapsed start reading < 1000 * expiresIn.toInt
      ↔ ¬ Expired start expiresIn reading := fun reading => Int.not_le.symm
  constructor
  · rintro ⟨htimeout, hpolling⟩ ⟨check, polled⟩ hmade
    have hpolled := polled_iff_of_mem hmade
    rw [← hpolled, hexpired]
    cases polled with
    | true => exact iff_of_true rfl (hpolling check hmade)
    | false => exact iff_of_false (by decide) (fun hnot => hnot (htimeout check hmade))
  · intro hagree
    constructor
    · intro check hmade
      have hpolled := polled_iff_of_mem hmade
      have hcheck := hagree _ hmade
      rw [← hpolled, hexpired] at hcheck
      by_contra hnot
      exact absurd (hcheck.mpr hnot) (by decide)
    · intro check hmade
      have hpolled := polled_iff_of_mem hmade
      have hcheck := hagree _ hmade
      rw [← hpolled, hexpired] at hcheck
      exact hcheck.mp rfl

/-- The online clock is set back by five seconds, and the loop ends before any time has passed. -/
theorem set_back_clock_times_out :
    ¬ ∀ (client : Net.TapHttpClient) (forms : Bytes) (start : Reading) (expiresIn : Int64)
      (checks : List Check), TimesOutAtExpiry client forms start expiresIn checks := by
  intro hall
  have hend := (hall ⟨fun _ => ⟨-1, [], .null⟩⟩ [] ⟨1000000, .unset⟩ 300
    [⟨⟨1000000, .setOnlineTime 995000 1000000⟩, fun _ => none, false⟩]).1
    ⟨⟨1000000, .setOnlineTime 995000 1000000⟩, fun _ => none, false⟩
  have hexpired := hend (List.mem_singleton_self _)
  exact absurd hexpired (by unfold Expired; decide)

end Loop

end TapSdk.Login
