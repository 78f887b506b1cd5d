import TapSdk.Login.Unwrap

/-!
# When a response unwraps to zero

The two envelopes, member by member. A conversion to an integer takes more values to zero than the
number zero, and the old envelope takes the code of an error from the server as it is.
-/

namespace TapSdk.Login.Net

open Library

variable {library : JsonLibrary} {α β : Type}

/-! ### The steps -/

theorem run_ofExcept_bind (value : Except JsonError α) (rest : α → Unwrapping β)
    (result : ResultWrapper) :
    ((MonadExcept.ofExcept value : Unwrapping α) >>= rest).run result
      = match value with
        | .ok value => (rest value).run result
        | .error error => (.error error, result) := by
  cases value <;> rfl

theorem run_setCode_bind (code : Int) (rest : Unit → Unwrapping β) (result : ResultWrapper) :
    (setCode code >>= rest).run result = (rest ()).run { result with code := code } := rfl

theorem run_get_bind (rest : ResultWrapper → Unwrapping β) (result : ResultWrapper) :
    ((get : Unwrapping ResultWrapper) >>= rest).run result = (rest result).run result := rfl

theorem run_tryCatch (body : Unwrapping α) (handler : JsonError → Unwrapping α)
    (result : ResultWrapper) :
    (tryCatch body handler).run result
      = match body.run result with
        | (.ok value, result) => (.ok value, result)
        | (.error error, result) => (handler error).run result := by
  simp only [tryCatch, tryCatchThe, MonadExceptOf.tryCatch, ExceptT.tryCatch,
    ExceptT.run, ExceptT.mk, bind, StateT.bind]
  obtain ⟨outcome, after⟩ := body result
  cases outcome <;> rfl

/-- The member of an object, or null. -/
def memberOf (members : List (Bytes × Json)) (key : Bytes) : Json := (lookup members key).getD .null

theorem index_object (members : List (Bytes × Json)) (key : Bytes) :
    index (.object members) key = .ok (memberOf members key) := rfl

theorem memberOf_of_lookup {members : List (Bytes × Json)} {key : Bytes} {value : Json}
    (h : lookup members key = some value) :
    contains (.object members) key = true ∧ memberOf members key = value := by
  rw [contains, memberOf, h]
  exact ⟨rfl, rfl⟩

theorem ok_bind (value : α) (convert : α → Except JsonError β) :
    (Except.ok value >>= convert) = convert value := rfl

/-- The code that is left when the body of the `try` is through or has thrown. -/
def finalCode : Except JsonError Unit × ResultWrapper → Int
  | (.ok _, result) => result.code
  | (.error _, _) => -1

theorem finalCode_threw (error : JsonError) (result : ResultWrapper) :
    finalCode (.error error, result) ≠ 0 := (by decide : (-1 : Int) ≠ 0)

/-- Nothing that is thrown gets out. -/
theorem tapUnwrapResult_ok (library : JsonLibrary) {response : Bytes} (hresponse : response ≠ []) :
    ∃ result, library.tapUnwrapResult response = .ok result ∧ result.code
      = finalCode ((library.tryUnwrap response).run ⟨-1, invalidResponse, .null⟩) := by
  unfold JsonLibrary.tapUnwrapResult JsonLibrary.unwrap
  rw [if_neg hresponse, run_tryCatch]
  obtain ⟨outcome, result⟩ := (library.tryUnwrap response).run ⟨-1, invalidResponse, .null⟩
  cases outcome with
  | ok value => exact ⟨result, rfl, rfl⟩
  | error error => exact ⟨{ result with code := -1, msg := invalidResponse }, rfl, rfl⟩

/-! ### The envelopes -/

/-- The member is there and converts to zero. -/
def CodeReadsZero (library : JsonLibrary) (members : List (Bytes × Json)) : Prop :=
  ∃ code, lookup members (ascii "code") = some code ∧ library.getInt code = .ok 0

theorem codeReadsZero_iff (members : List (Bytes × Json)) : CodeReadsZero library members
    ↔ library.getInt (memberOf members (ascii "code")) = .ok 0 := by
  unfold CodeReadsZero memberOf
  cases hcode : lookup members (ascii "code") with
  | none => exact iff_of_false (fun ⟨_, hsome, _⟩ => by cases hsome) nofun
  | some code =>
      constructor
      · rintro ⟨_, hsame, hzero⟩
        obtain rfl := Option.some.inj hsame
        exact hzero
      · intro hzero
        exact ⟨code, rfl, hzero⟩

theorem finalCode_new {members : List (Bytes × Json)}
    (hnew : lookup members (ascii "success") = none) {response : Bytes}
    (hparse : library.parse response = some (.object members)) (result : ResultWrapper) :
    finalCode ((library.tryUnwrap response).run result) = 0 ↔ CodeReadsZero library members := by
  have hcontains : contains (.object members) (ascii "success") = false := by
    rw [contains, hnew]
    rfl
  rw [codeReadsZero_iff]
  unfold JsonLibrary.tryUnwrap
  simp only [hparse, pure_bind, hcontains, Bool.false_eq_true, if_false, run_ofExcept_bind,
    index_object, ok_bind, run_setCode_bind, run_get_bind]
  cases library.getInt (memberOf members (ascii "code")) with
  | error error => exact iff_of_false (finalCode_threw _ _) nofun
  | ok code =>
      dsimp only
      by_cases hzero : code = 0
      · rw [if_pos hzero, run_ofExcept_bind]
        subst hzero
        exact iff_of_true rfl rfl
      · rw [if_neg hzero, run_ofExcept_bind]
        refine iff_of_false ?_ fun hok => hzero (Except.ok.inj hok)
        cases getString (memberOf members (ascii "msg")) with
        | error error => exact finalCode_threw _ _
        | ok msg => exact hzero

theorem finalCode_success {members : List (Bytes × Json)}
    (hsuccess : lookup members (ascii "success") = some (.boolean true)) {response : Bytes}
    (hparse : library.parse response = some (.object members)) (result : ResultWrapper) :
    finalCode ((library.tryUnwrap response).run result) = 0 := by
  obtain ⟨hcontains, hmember⟩ := memberOf_of_lookup hsuccess
  unfold JsonLibrary.tryUnwrap
  simp only [hparse, pure_bind, hcontains, if_true, run_ofExcept_bind, index_object,
    ok_bind, hmember, getBool, run_setCode_bind]
  rfl

/-- The old envelope of an error: its data says zero, and has a message. -/
structure ErrorReadsZero (library : JsonLibrary) (members inner : List (Bytes × Json)) : Prop where
  data : lookup members (ascii "data") = some (.object inner)
  code : CodeReadsZero library inner
  msg : ∃ text, lookup inner (ascii "msg") = some (.string text)

theorem lookup_of_memberOf {members : List (Bytes × Json)} {key : Bytes} {value : Json}
    (hmember : memberOf members key = value) (hvalue : value ≠ .null) :
    lookup members key = some value := by
  unfold memberOf at hmember
  cases hfound : lookup members key with
  | none =>
      rw [hfound] at hmember
      exact absurd hmember.symm hvalue
  | some found =>
      rw [hfound] at hmember
      exact congrArg some hmember

theorem getString_ok_iff (value : Json) (text : Bytes) :
    getString value = .ok text ↔ value = .string text := by
  cases value <;> simp [getString]

theorem finalCode_error {members : List (Bytes × Json)}
    (hsuccess : lookup members (ascii "success") = some (.boolean false)) {response : Bytes}
    (hparse : library.parse response = some (.object members)) (result : ResultWrapper) :
    finalCode ((library.tryUnwrap response).run result) = 0
      ↔ ∃ inner, ErrorReadsZero library members inner := by
  obtain ⟨hcontains, hmember⟩ := memberOf_of_lookup hsuccess
  have hnone : ∀ value, memberOf members (ascii "data") = value →
      (∀ inner, value ≠ .object inner) → ¬ ∃ inner, ErrorReadsZero library members inner := by
    rintro value hdata hnot ⟨inner, herror⟩
    exact hnot inner (hdata.symm.trans (memberOf_of_lookup herror.data).2)
  unfold JsonLibrary.tryUnwrap
  simp only [hparse, pure_bind, hcontains, if_true, run_ofExcept_bind, index_object,
    ok_bind, hmember, getBool, run_setCode_bind, Bool.false_eq_true, if_false]
  cases hdata : memberOf members (ascii "data") with
  | object inner =>
      simp only [index_object, ok_bind]
      have hinner : ∀ other, ErrorReadsZero library members other → other = inner := by
        intro other herror
        exact Json.object.inj ((memberOf_of_lookup herror.data).2.symm.trans hdata)
      have hcodeIff := @codeReadsZero_iff library inner
      cases hcode : library.getInt (memberOf inner (ascii "code")) with
      | error error =>
          refine iff_of_false (finalCode_threw _ _) ?_
          rintro ⟨other, herror⟩
          obtain rfl := hinner other herror
          cases hcode.symm.trans (hcodeIff.mp herror.code)
      | ok code =>
          dsimp only
          cases hmsg : getString (memberOf inner (ascii "msg")) with
          | error error =>
              refine iff_of_false (finalCode_threw _ _) ?_
              rintro ⟨other, herror⟩
              obtain rfl := hinner other herror
              obtain ⟨text, htext⟩ := herror.msg
              rw [memberOf, htext] at hmsg
              cases hmsg
          | ok text =>
              have htext := (getString_ok_iff _ _).mp hmsg
              constructor
              · intro hzero
                have hread : CodeReadsZero library inner := by
                  rw [hcodeIff, hcode]
                  exact congrArg Except.ok hzero
                exact ⟨inner, lookup_of_memberOf hdata nofun, hread,
                  ⟨text, lookup_of_memberOf htext nofun⟩⟩
              · rintro ⟨other, herror⟩
                obtain rfl := hinner other herror
                exact Except.ok.inj (hcode.symm.trans (hcodeIff.mp herror.code))
  | null =>
      refine iff_of_false (finalCode_threw .typeError302 result) (hnone _ hdata nofun)
  | _ => exact iff_of_false (finalCode_threw .typeError305 result) (hnone _ hdata nofun)

/-- Anything else throws. -/
theorem finalCode_invalid {response : Bytes} (result : ResultWrapper)
    (hinvalid : ∀ members, library.parse response = some (.object members) →
      ∃ value, lookup members (ascii "success") = some value ∧ ∀ flag, value ≠ .boolean flag) :
    finalCode ((library.tryUnwrap response).run result) ≠ 0 := by
  unfold JsonLibrary.tryUnwrap
  cases hparse : library.parse response with
  | none => exact finalCode_threw .parseError result
  | some resp =>
      simp only [pure_bind]
      cases resp with
      | object members =>
          obtain ⟨value, hsuccess, hnot⟩ := hinvalid members hparse
          obtain ⟨hcontains, hmember⟩ := memberOf_of_lookup hsuccess
          simp only [hcontains, if_true, run_ofExcept_bind, index_object, ok_bind, hmember]
          cases value with
          | boolean flag => exact absurd rfl (hnot flag)
          | _ => exact finalCode_threw .typeError302 result
      | null => exact finalCode_threw .typeError302 result
      | _ => exact finalCode_threw .typeError305 result

/-! ### Numbers that convert to zero -/

/-- The number zero. -/
def JsonLibrary.IsZero (library : JsonLibrary) : Json → Prop
  | .unsigned value => value = 0
  | .integer value => value = 0
  | .float text => (library.floatValue text).num = 0
  | _ => False

/-- Not the number zero, and converted to zero: false, a multiple of `2 ^ 32`, a fraction, and what
is out of range where the conversion happens to give zero. -/
def JsonLibrary.WrapsToZero (library : JsonLibrary) : Json → Prop
  | .boolean value => value = false
  | .unsigned value => value ≠ 0 ∧ value.toNat % 4294967296 = 0
  | .integer value => value ≠ 0 ∧ value % 4294967296 = 0
  | .float text =>
      (library.floatValue text).num ≠ 0
        ∧ ((library.floatValue text).num.natAbs < (library.floatValue text).den
          ∨ ¬ (-2147483648 ≤ (library.floatValue text).num.tdiv (library.floatValue text).den
              ∧ (library.floatValue text).num.tdiv (library.floatValue text).den < 2147483648)
            ∧ library.castBeyond text = 0)
  | _ => False

theorem castInteger_eq_zero_iff (value : Int) : castInteger value = 0 ↔ value % 4294967296 = 0 := by
  unfold castInteger
  rw [← Int.dvd_iff_bmod_eq_zero]
  omega

theorem tdiv_eq_zero_iff (value : Rat) :
    value.num.tdiv value.den = 0 ↔ value.num.natAbs < value.den := by
  have hden := value.den_pos
  have hdiv : value.num.natAbs / value.den = 0 ↔ value.num.natAbs < value.den := by
    rw [Nat.div_eq_zero_iff]
    omega
  rw [← Int.natAbs_eq_zero, Int.natAbs_tdiv, Int.natAbs_natCast]
  exact hdiv

theorem castFloat_eq_zero_iff (library : JsonLibrary) (text : Bytes) :
    library.castFloat text = 0 ↔ library.IsZero (.float text)
      ∨ library.WrapsToZero (.float text) := by
  have hwhole := tdiv_eq_zero_iff (library.floatValue text)
  have hden := (library.floatValue text).den_pos
  simp only [JsonLibrary.castFloat, JsonLibrary.IsZero, JsonLibrary.WrapsToZero]
  generalize (library.floatValue text).num.tdiv (library.floatValue text).den = whole at hwhole ⊢
  by_cases hfits : -2147483648 ≤ whole ∧ whole < 2147483648
  · rw [if_pos hfits, hwhole]
    constructor
    · intro hsmall
      by_cases hnum : (library.floatValue text).num = 0
      · exact Or.inl hnum
      · exact Or.inr ⟨hnum, Or.inl hsmall⟩
    · rintro (hnum | ⟨_, hsmall | ⟨hbeyond, _⟩⟩)
      · rw [hnum]
        exact hden
      · exact hsmall
      · exact absurd hfits hbeyond
  · have hlarge : ¬ (library.floatValue text).num.natAbs < (library.floatValue text).den := by
      rw [← hwhole]
      omega
    rw [if_neg hfits]
    constructor
    · intro hzero
      refine Or.inr ⟨fun hnum => hlarge ?_, Or.inr ⟨hfits, hzero⟩⟩
      rw [hnum]
      exact hden
    · rintro (hnum | ⟨_, hsmall | ⟨_, hzero⟩⟩)
      · rw [hnum] at hlarge
        exact absurd hden hlarge
      · exact absurd hsmall hlarge
      · exact hzero

theorem getInt_eq_zero_iff (library : JsonLibrary) (value : Json) :
    library.getInt value = .ok 0 ↔ library.IsZero value ∨ library.WrapsToZero value := by
  cases value with
  | boolean flag =>
      cases flag <;> simp [JsonLibrary.getInt, JsonLibrary.IsZero, JsonLibrary.WrapsToZero]
  | unsigned value =>
      have hzero : value = 0 ↔ value.toNat = 0 := by rw [← UInt64.toNat_inj]; rfl
      simp only [JsonLibrary.getInt, JsonLibrary.IsZero, JsonLibrary.WrapsToZero, Except.ok.injEq,
        castInteger_eq_zero_iff, hzero, ne_eq]
      omega
  | integer value =>
      simp only [JsonLibrary.getInt, JsonLibrary.IsZero, JsonLibrary.WrapsToZero, Except.ok.injEq,
        castInteger_eq_zero_iff]
      omega
  | float text =>
      rw [← castFloat_eq_zero_iff]
      simp only [JsonLibrary.getInt, Except.ok.injEq]
  | _ => simp [JsonLibrary.getInt, JsonLibrary.IsZero, JsonLibrary.WrapsToZero]

theorem not_wrapsToZero_of_isZero {value : Json} (hzero : library.IsZero value) :
    ¬ library.WrapsToZero value := by
  cases value with
  | unsigned value => exact fun hwraps => hwraps.1 hzero
  | integer value => exact fun hwraps => hwraps.1 hzero
  | float text => exact fun hwraps => hwraps.1 hzero
  | _ => cases hzero

/-! ### Success responses -/

/-- What a success response is: an object with `success` true, or with no `success` and a `code`
that is the number zero. -/
def JsonLibrary.IsSuccess (library : JsonLibrary) (response : Bytes) : Prop :=
  ∃ members, library.parse response = some (.object members)
    ∧ (lookup members (ascii "success") = some (.boolean true)
      ∨ lookup members (ascii "success") = none
        ∧ ∃ code, lookup members (ascii "code") = some code ∧ library.IsZero code)

/-- An error in the old envelope whose data has a code that converts to zero and a message, or a
`code` in the new one that converts to zero and is not the number zero. -/
def JsonLibrary.Misleads (library : JsonLibrary) (response : Bytes) : Prop :=
  ∃ members, library.parse response = some (.object members)
    ∧ (lookup members (ascii "success") = some (.boolean false)
        ∧ (∃ inner, lookup members (ascii "data") = some (.object inner)
          ∧ (∃ code, lookup inner (ascii "code") = some code
            ∧ (library.IsZero code ∨ library.WrapsToZero code))
          ∧ ∃ text, lookup inner (ascii "msg") = some (.string text))
      ∨ lookup members (ascii "success") = none
        ∧ ∃ code, lookup members (ascii "code") = some code ∧ library.WrapsToZero code)

theorem not_misleads_of_isSuccess {response : Bytes} (hsuccess : library.IsSuccess response) :
    ¬ library.Misleads response := by
  rintro ⟨members, hparse, hmisleads⟩
  obtain ⟨other, hother, hright⟩ := hsuccess
  obtain rfl : members = other :=
    Json.object.inj (Option.some.inj (hparse.symm.trans hother))
  rcases hmisleads with ⟨hfalse, _⟩ | ⟨hnone, code, hcode, hwraps⟩
  · rcases hright with htrue | ⟨hnone, _⟩
    · rw [hfalse] at htrue
      cases htrue
    · rw [hfalse] at hnone
      cases hnone
  · rcases hright with htrue | ⟨_, zero, hzero, hnumber⟩
    · rw [hnone] at htrue
      cases htrue
    · obtain rfl := Option.some.inj (hcode.symm.trans hzero)
      exact not_wrapsToZero_of_isZero hnumber hwraps

theorem codeReadsZero_cases (members : List (Bytes × Json)) : CodeReadsZero library members
    ↔ (∃ code, lookup members (ascii "code") = some code ∧ library.IsZero code)
      ∨ ∃ code, lookup members (ascii "code") = some code ∧ library.WrapsToZero code := by
  unfold CodeReadsZero
  simp only [getInt_eq_zero_iff]
  constructor
  · rintro ⟨code, hcode, hzero | hwraps⟩
    · exact Or.inl ⟨code, hcode, hzero⟩
    · exact Or.inr ⟨code, hcode, hwraps⟩
  · rintro (⟨code, hcode, hzero⟩ | ⟨code, hcode, hwraps⟩)
    · exact ⟨code, hcode, Or.inl hzero⟩
    · exact ⟨code, hcode, Or.inr hwraps⟩

/-- The members of the body, if it is an object. -/
theorem isSuccess_iff {response : Bytes} {members : List (Bytes × Json)}
    (hparse : library.parse response = some (.object members)) : library.IsSuccess response
      ↔ (lookup members (ascii "success") = some (.boolean true)
        ∨ lookup members (ascii "success") = none
          ∧ ∃ code, lookup members (ascii "code") = some code ∧ library.IsZero code) := by
  constructor
  · rintro ⟨other, hother, hright⟩
    obtain rfl : members = other := Json.object.inj (Option.some.inj (hparse.symm.trans hother))
    exact hright
  · intro hright
    exact ⟨members, hparse, hright⟩

theorem misleads_iff {response : Bytes} {members : List (Bytes × Json)}
    (hparse : library.parse response = some (.object members)) : library.Misleads response
      ↔ (lookup members (ascii "success") = some (.boolean false)
          ∧ (∃ inner, ErrorReadsZero library members inner)
        ∨ lookup members (ascii "success") = none
          ∧ ∃ code, lookup members (ascii "code") = some code ∧ library.WrapsToZero code) := by
  have herror : (∃ inner, ErrorReadsZero library members inner)
      ↔ ∃ inner, lookup members (ascii "data") = some (.object inner)
        ∧ (∃ code, lookup inner (ascii "code") = some code
          ∧ (library.IsZero code ∨ library.WrapsToZero code))
        ∧ ∃ text, lookup inner (ascii "msg") = some (.string text) := by
    simp only [← getInt_eq_zero_iff]
    constructor
    · rintro ⟨inner, hinner⟩
      exact ⟨inner, hinner.data, hinner.code, hinner.msg⟩
    · rintro ⟨inner, hdata, hcode, hmsg⟩
      exact ⟨inner, hdata, hcode, hmsg⟩
  rw [herror]
  constructor
  · rintro ⟨other, hother, hmisleads⟩
    obtain rfl : members = other := Json.object.inj (Option.some.inj (hparse.symm.trans hother))
    exact hmisleads
  · intro hmisleads
    exact ⟨members, hparse, hmisleads⟩

theorem finalCode_eq_zero_iff (response : Bytes) (result : ResultWrapper) :
    finalCode ((library.tryUnwrap response).run result) = 0
      ↔ library.IsSuccess response ∨ library.Misleads response := by
  by_cases hobject : ∃ members, library.parse response = some (.object members)
  · obtain ⟨members, hparse⟩ := hobject
    rw [isSuccess_iff hparse, misleads_iff hparse]
    cases hsuccess : lookup members (ascii "success") with
    | none =>
        rw [finalCode_new hsuccess hparse, codeReadsZero_cases]
        simp
    | some value =>
        cases value with
        | boolean flag =>
            cases flag with
            | true =>
                have hzero := finalCode_success hsuccess hparse result
                simp [hzero]
            | false =>
                rw [finalCode_error hsuccess hparse]
                simp
        | _ =>
            refine iff_of_false (finalCode_invalid result fun other hother => ?_) (by simp)
            obtain rfl : members = other :=
              Json.object.inj (Option.some.inj (hparse.symm.trans hother))
            exact ⟨_, hsuccess, nofun⟩
  · refine iff_of_false (finalCode_invalid result fun members hparse => ?_) ?_
    · exact absurd ⟨members, hparse⟩ hobject
    · rintro (⟨members, hparse, _⟩ | ⟨members, hparse, _⟩)
      · exact hobject ⟨members, hparse⟩
      · exact hobject ⟨members, hparse⟩

theorem exists_unwrapped (hempty : library.parse [] = none) (response : Bytes) :
    ∃ result, library.tapUnwrapResult response = .ok result
      ∧ (result.code = 0 ↔ library.IsSuccess response ∨ library.Misleads response) := by
  by_cases hresponse : response = []
  · subst hresponse
    refine ⟨_, rfl, iff_of_false (by decide) ?_⟩
    rintro (⟨members, hparse, _⟩ | ⟨members, hparse, _⟩)
    · cases hempty.symm.trans hparse
    · cases hempty.symm.trans hparse
  · obtain ⟨result, hresult, hcode⟩ := tapUnwrapResult_ok library hresponse
    refine ⟨result, hresult, ?_⟩
    rw [hcode]
    exact finalCode_eq_zero_iff response _

/-- What the client takes for a success, in a response with the status 200. -/
theorem requestAsync_ok_iff (hempty : library.parse [] = none) (value : RespData) :
    (∃ content, library.client.requestAsync value = .ok content) ↔ value.status = 200
      ∧ (library.IsSuccess value.respBody ∨ library.Misleads value.respBody) := by
  obtain ⟨result, hresult, hcode⟩ := exists_unwrapped hempty value.respBody
  have hunwrap : library.client.unwrapResult value.respBody = result := by
    simp only [JsonLibrary.client, hresult]
  rw [← hcode, TapHttpClient.requestAsync, hunwrap]
  by_cases hstatus : value.status = 200
  · rw [if_pos hstatus]
    by_cases hzero : result.code = 0 <;> simp [hstatus, hzero]
  · rw [if_neg hstatus]
    simp [hstatus]

/-- **A response unwraps to zero exactly if it is a success response, unless it is one of those that
mislead**: nothing is thrown, and the code is what it should be if and only if the body is neither
an error in the old envelope with a code that converts to zero and a message, nor one in the new
envelope with a code that converts to zero and is not the number zero. -/
theorem unwraps_right_iff (hempty : library.parse [] = none) (response : Bytes) :
    (∃ result, library.tapUnwrapResult response = .ok result
        ∧ (result.code = 0 ↔ library.IsSuccess response))
      ↔ ¬ library.Misleads response := by
  obtain ⟨result, hresult, hcode⟩ := exists_unwrapped hempty response
  constructor
  · rintro ⟨other, hother, hright⟩ hmisleads
    obtain rfl := Except.ok.inj (hresult.symm.trans hother)
    have hsuccess := hright.mp (hcode.mpr (Or.inr hmisleads))
    exact not_misleads_of_isSuccess hsuccess hmisleads
  · intro hnot
    refine ⟨result, hresult, hcode.trans ?_⟩
    exact or_iff_left hnot

/-! ### Some responses -/

def okBody : Bytes := ascii "\x7b\"code\":0\x7d"

/-- An error of the server, in the old envelope. -/
def errorBody : Bytes :=
  ascii "\x7b\"success\":false,\"data\":\x7b\"code\":0,\"msg\":\"denied\"\x7d\x7d"

def falseBody : Bytes := ascii "\x7b\"code\":false\x7d"

def halfBody : Bytes := ascii "\x7b\"code\":0.5\x7d"

def largeBody : Bytes := ascii "\x7b\"code\":4294967296\x7d"

/-- What the parser makes of these. -/
def parseBody (response : Bytes) : Option Json :=
  if response = okBody then some (.object [(ascii "code", .unsigned 0)])
  else if response = errorBody then
    some (.object [(ascii "data", .object [(ascii "code", .unsigned 0),
      (ascii "msg", .string (ascii "denied"))]), (ascii "success", .boolean false)])
  else if response = falseBody then some (.object [(ascii "code", .boolean false)])
  else if response = halfBody then some (.object [(ascii "code", .float (ascii "0.5"))])
  else if response = largeBody then some (.object [(ascii "code", .unsigned 4294967296)])
  else none

def bodyLibrary : JsonLibrary where
  parse := parseBody
  floatValue text := if text = ascii "0.5" then mkRat 1 2 else 0
  castBeyond _ := -2147483648

theorem unwraps_right_ok : bodyLibrary.IsSuccess okBody
    ∧ ∃ result, bodyLibrary.tapUnwrapResult okBody = .ok result
      ∧ (result.code = 0 ↔ bodyLibrary.IsSuccess okBody) := by
  have hsuccess : bodyLibrary.IsSuccess okBody :=
    ⟨_, rfl, Or.inr ⟨rfl, .unsigned 0, rfl, rfl⟩⟩
  refine ⟨hsuccess, ?_⟩
  exact (unwraps_right_iff rfl okBody).mpr (not_misleads_of_isSuccess hsuccess)

/-- A response that misleads: its code is zero, and it is not a success. -/
def Misled (library : JsonLibrary) (response : Bytes) : Prop :=
  ∃ result, library.tapUnwrapResult response = .ok result ∧ result.code = 0
    ∧ ¬ library.IsSuccess response

theorem misled_of_misleads (hempty : library.parse [] = none) {response : Bytes}
    (hmisleads : library.Misleads response) : Misled library response := by
  obtain ⟨result, hresult, hcode⟩ := exists_unwrapped hempty response
  exact ⟨result, hresult, hcode.mpr (Or.inr hmisleads),
    fun hsuccess => not_misleads_of_isSuccess hsuccess hmisleads⟩

theorem error_unwraps_to_zero : Misled bodyLibrary errorBody ∧ Misled bodyLibrary falseBody
    ∧ Misled bodyLibrary halfBody ∧ Misled bodyLibrary largeBody := by
  refine ⟨misled_of_misleads rfl ?_, misled_of_misleads rfl ?_, misled_of_misleads rfl ?_,
    misled_of_misleads rfl ?_⟩
  · exact ⟨_, rfl, Or.inl ⟨rfl, _, rfl, ⟨.unsigned 0, rfl, Or.inl rfl⟩, _, rfl⟩⟩
  · exact ⟨_, rfl, Or.inr ⟨rfl, .boolean false, rfl, rfl⟩⟩
  · exact ⟨_, rfl, Or.inr ⟨rfl, .float (ascii "0.5"), rfl, by decide, Or.inl (by decide)⟩⟩
  · exact ⟨_, rfl, Or.inr ⟨rfl, .unsigned 4294967296, rfl, by decide, by decide⟩⟩

end TapSdk.Login.Net
