import TapSdk.Login.TapLogin
import TapSdk.Library.Form

/-!
# Forms and queries

`ToContent` of `net/httpclient.cpp` and `ToParam` of `net/coro_httpclient.cpp` write keys and values
as they are. A receiver reads back what was written exactly when nothing in it means something else
to the receiver.
-/

namespace TapSdk.Login.Net

open Library

/-- A query without its leading question mark. -/
def dropQuestionMark : Bytes → Bytes
  | [] => []
  | first :: rest => if [first] = ascii "?" then rest else first :: rest

/-! ### The two texts -/

theorem encodePair_eq (pair : Bytes × Bytes) :
    Form.encodePair pair = pair.1 ++ ascii "=" ++ pair.2 := by
  rw [List.append_assoc]
  rfl

theorem toContent_singleton (pair : Bytes × Bytes) : toContent [pair] = Form.encodePair pair := by
  rw [encodePair_eq]
  exact List.intercalate_singleton

theorem toContent_cons_cons (pair other : Bytes × Bytes) (rest : List (Bytes × Bytes)) :
    toContent (pair :: other :: rest)
      = Form.encodePair pair ++ Form.ampersand :: toContent (other :: rest) := by
  unfold toContent
  rw [List.map_cons, List.map_cons, List.intercalate_cons_cons, encodePair_eq, List.append_assoc]
  rfl

theorem foldl_appendParam (param : Bytes × Bytes) (rest : List (Bytes × Bytes)) (text : Bytes) :
    (rest.foldl appendParam (text ++ Form.encodePair param, false)).1
      = text ++ toContent (param :: rest) := by
  induction rest generalizing param text with
  | nil => rw [toContent_singleton, List.foldl_nil]
  | cons other rest ih =>
      have hround : appendParam (text ++ Form.encodePair param, false) other
          = (text ++ (Form.encodePair param ++ [Form.ampersand])
            ++ Form.encodePair other, false) := by
        simp only [appendParam, encodePair_eq, List.append_assoc]
        rfl
      rw [List.foldl_cons, hround, ih, toContent_cons_cons]
      simp only [List.append_assoc, List.cons_append, List.nil_append]

theorem toParam_cons (param : Bytes × Bytes) (rest : List (Bytes × Bytes)) :
    toParam (param :: rest) = ascii "?" ++ toContent (param :: rest) := by
  have hround : appendParam ([], true) param = (ascii "?" ++ Form.encodePair param, false) := by
    rw [encodePair_eq]
    rfl
  unfold toParam
  rw [List.foldl_cons, hround, foldl_appendParam]

theorem dropQuestionMark_toParam (params : List (Bytes × Bytes)) :
    dropQuestionMark (toParam params) = toContent params := by
  cases params with
  | nil => rfl
  | cons param rest =>
      rw [toParam_cons]
      rfl

/-! ### Reading back -/

theorem decode_toContent_iff (forms : List (Bytes × Bytes)) :
    Form.decode (toContent forms) = forms ↔ ∀ form ∈ forms, Form.Plain form := by
  induction forms with
  | nil => exact iff_of_true rfl fun form hform => absurd hform List.not_mem_nil
  | cons form rest ih =>
      rw [List.forall_mem_cons, ← ih]
      cases rest with
      | nil =>
          have hone := Form.decode_encodePair_append_iff form [] []
          rw [List.append_nil] at hone
          rw [toContent_singleton, hone]
          exact and_congr_right fun _ => iff_of_true rfl rfl
      | cons other rest =>
          rw [toContent_cons_cons, Form.decode_append, Form.decode_encodePair_append_iff]

theorem toContent_injOn {forms others : List (Bytes × Bytes)}
    (hforms : ∀ form ∈ forms, Form.Plain form) (hothers : ∀ form ∈ others, Form.Plain form)
    (hsame : toContent forms = toContent others) : forms = others := by
  rw [← (decode_toContent_iff forms).mpr hforms, hsame]
  exact (decode_toContent_iff others).mpr hothers

/-- A form and a query are read back exactly when every key and value is plain, and plain lists that
differ make different requests. -/
theorem requests_decode_iff_plain (forms : List (Bytes × Bytes)) :
    (Form.decode (toContent forms) = forms
        ∧ Form.decode (dropQuestionMark (toParam forms)) = forms
      ↔ ∀ form ∈ forms, Form.Plain form)
    ∧ ((∀ form ∈ forms, Form.Plain form) → ∀ others : List (Bytes × Bytes),
        (∀ form ∈ others, Form.Plain form) →
          toContent forms = toContent others ∨ toParam forms = toParam others →
            forms = others) := by
  constructor
  · rw [dropQuestionMark_toParam, and_self]
    exact decode_toContent_iff forms
  · intro hforms others hothers hsame
    rcases hsame with hsame | hsame
    · exact toContent_injOn hforms hothers hsame
    · apply toContent_injOn hforms hothers
      rw [← dropQuestionMark_toParam, hsame, dropQuestionMark_toParam]

/-- An ampersand in a value adds a pair. -/
theorem ampersand_splits_value :
    ¬ ∀ forms : List (Bytes × Bytes), Form.decode (toContent forms) = forms
      ∧ Form.decode (dropQuestionMark (toParam forms)) = forms
      ∧ ∀ others : List (Bytes × Bytes), toContent forms = toContent others → forms = others := by
  intro hdecode
  have hsame := (hdecode [(ascii "a", ascii "b&c=d")]).2.2
    [(ascii "a", ascii "b"), (ascii "c", ascii "d")] rfl
  exact absurd hsame (by decide)

end TapSdk.Login.Net
