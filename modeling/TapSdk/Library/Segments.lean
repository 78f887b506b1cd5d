import TapSdk.Library.Json

/-!
# Reading from a connection

What a connection delivers comes in pieces, cut anywhere. A reader keeps in a buffer what it has
received and not consumed, and receives more only when the buffer is not enough. What is read does
not depend on the cuts.
-/

namespace TapSdk.Library

structure Inflow where
  buffer : Bytes
  pieces : List Bytes
  deriving DecidableEq

/-- How many bytes there are up to the end of the first such mark. -/
def markEnd (mark : Bytes) : Bytes → Option Nat
  | [] => none
  | first :: rest =>
      if mark.isPrefixOf (first :: rest) then some mark.length else (markEnd mark rest).map (· + 1)

namespace Inflow

/-- All that there is and that is still to come. -/
def all (inflow : Inflow) : Bytes := inflow.buffer ++ inflow.pieces.flatten

def consume (inflow : Inflow) (count : Nat) : Inflow :=
  { inflow with buffer := inflow.buffer.drop count }

def receiveUntil (mark buffer : Bytes) : List Bytes → Option Nat × Inflow
  | [] => (markEnd mark buffer, ⟨buffer, []⟩)
  | piece :: pieces =>
      match markEnd mark buffer with
      | some count => (some count, ⟨buffer, piece :: pieces⟩)
      | none => receiveUntil mark (buffer ++ piece) pieces

/-- Until the mark is in the buffer. -/
def readUntil (inflow : Inflow) (mark : Bytes) : Option Nat × Inflow :=
  receiveUntil mark inflow.buffer inflow.pieces

def receive (buffer : Bytes) : Nat → List Bytes → Bool × Inflow
  | count, [] => (count = 0, ⟨buffer, []⟩)
  | count, piece :: pieces =>
      if count ≤ piece.length then (true, ⟨buffer ++ piece.take count, piece.drop count :: pieces⟩)
      else receive (buffer ++ piece) (count - piece.length) pieces

/-- So many bytes more. -/
def readMore (inflow : Inflow) (count : Nat) : Bool × Inflow :=
  receive inflow.buffer count inflow.pieces

end Inflow

/-! ### Marks -/

variable {mark : Bytes} {count : Nat}

theorem markEnd_bounds {text : Bytes} (h : markEnd mark text = some count) :
    mark.length ≤ count ∧ count ≤ text.length := by
  induction text generalizing count with
  | nil => cases h
  | cons first text ih =>
      rw [markEnd] at h
      split at h
      · next hprefix =>
          cases h
          exact ⟨Nat.le_refl _, (List.isPrefixOf_iff_prefix.mp hprefix).length_le⟩
      · obtain ⟨found, hfound, rfl⟩ := Option.map_eq_some_iff.mp h
        obtain ⟨hlow, hhigh⟩ := ih hfound
        rw [List.length_cons]
        omega

/-- The first mark stays the first when there is more. -/
theorem markEnd_append {text : Bytes} (h : markEnd mark text = some count) (more : Bytes) :
    markEnd mark (text ++ more) = some count := by
  induction text generalizing count with
  | nil => cases h
  | cons first text ih =>
      rw [markEnd] at h
      rw [List.cons_append, markEnd]
      split at h
      · next hprefix =>
          cases h
          have hlonger : mark <+: first :: (text ++ more) :=
            (List.isPrefixOf_iff_prefix.mp hprefix).trans (List.prefix_append (first :: text) more)
          rw [if_pos (List.isPrefixOf_iff_prefix.mpr hlonger)]
      · next hprefix =>
          obtain ⟨found, hfound, rfl⟩ := Option.map_eq_some_iff.mp h
          obtain ⟨hlow, hhigh⟩ := markEnd_bounds hfound
          have hno : ¬ mark.isPrefixOf (first :: (text ++ more)) = true := by
            intro hlonger
            refine hprefix (List.isPrefixOf_iff_prefix.mpr ?_)
            refine List.prefix_of_prefix_length_le (List.isPrefixOf_iff_prefix.mp hlonger)
              (List.prefix_append (first :: text) more) ?_
            rw [List.length_cons]
            omega
          rw [if_neg hno, ih hfound, Option.map_some]

/-- A line, before what does not begin with another end of a line. -/
theorem markEnd_line {line rest : Bytes} (hline : 0x0D ∉ line) (hrest : rest.head? ≠ some 0x0D) :
    markEnd [0x0D, 0x0A, 0x0D, 0x0A] (line ++ 0x0D :: 0x0A :: rest)
      = (markEnd [0x0D, 0x0A, 0x0D, 0x0A] rest).map (· + (line.length + 2)) := by
  induction line with
  | nil =>
      cases rest with
      | nil => rfl
      | cons first rest =>
          have hfirst : (0x0D == first) = false := beq_false_of_ne fun heq => hrest (heq ▸ rfl)
          have hno : ¬ [0x0D, 0x0A, 0x0D, 0x0A].isPrefixOf (0x0D :: 0x0A :: first :: rest)
              = true := by
            simp [List.isPrefixOf, hfirst]
          have hnext : ¬ [0x0D, 0x0A, 0x0D, 0x0A].isPrefixOf (0x0A :: first :: rest) = true := by
            simp [List.isPrefixOf]
          rw [List.nil_append, markEnd, if_neg hno, markEnd, if_neg hnext, Option.map_map]
          rfl
  | cons first line ih =>
      rw [List.mem_cons, not_or] at hline
      have hfirst : (0x0D == first) = false := beq_false_of_ne hline.1
      have hno : ¬ [0x0D, 0x0A, 0x0D, 0x0A].isPrefixOf (first :: (line ++ 0x0D :: 0x0A :: rest))
          = true := by
        simp [List.isPrefixOf, hfirst]
      rw [List.cons_append, markEnd, if_neg hno, ih hline.2, Option.map_map]
      rfl

/-- The mark is found behind a text without its first byte. -/
theorem markEnd_first {first : UInt8} {text : Bytes} (htext : first ∉ text) (tail rest : Bytes) :
    markEnd (first :: tail) (text ++ first :: (tail ++ rest))
      = some (text.length + (tail.length + 1)) := by
  induction text with
  | nil =>
      have hprefix : (first :: tail).isPrefixOf (first :: (tail ++ rest)) = true := by
        simp [List.isPrefixOf_iff_prefix]
      rw [List.nil_append, markEnd, if_pos hprefix, List.length_cons, List.length_nil, Nat.zero_add]
  | cons other text ih =>
      rw [List.mem_cons, not_or] at htext
      have hno : ¬ (first :: tail).isPrefixOf (other :: (text ++ first :: (tail ++ rest)))
          = true := by
        simp [List.isPrefixOf, htext.1]
      rw [List.cons_append, markEnd, if_neg hno, ih htext.2, Option.map_some, List.length_cons]
      exact congrArg some (by omega)

/-! ### Reading -/

namespace Inflow

variable {inflow : Inflow}

theorem receiveUntil_some {buffer : Bytes} {pieces : List Bytes}
    (h : markEnd mark (buffer ++ pieces.flatten) = some count) :
    ∃ left, receiveUntil mark buffer pieces = (some count, left)
      ∧ left.all = buffer ++ pieces.flatten
      ∧ count ≤ left.buffer.length := by
  induction pieces generalizing buffer with
  | nil =>
      rw [List.flatten_nil, List.append_nil] at h
      exact ⟨⟨buffer, []⟩, by rw [receiveUntil, h], rfl, (markEnd_bounds h).2⟩
  | cons piece pieces ih =>
      cases hfound : markEnd mark buffer with
      | some found =>
          have hsame := markEnd_append hfound (piece :: pieces).flatten
          rw [h, Option.some.injEq] at hsame
          subst hsame
          exact ⟨⟨buffer, piece :: pieces⟩, by rw [receiveUntil, hfound], rfl,
            (markEnd_bounds hfound).2⟩
      | none =>
          rw [List.flatten_cons, ← List.append_assoc] at h ⊢
          rw [receiveUntil, hfound]
          exact ih h

theorem receiveUntil_none {buffer : Bytes} {pieces : List Bytes}
    (h : markEnd mark (buffer ++ pieces.flatten) = none) :
    receiveUntil mark buffer pieces = (none, ⟨buffer ++ pieces.flatten, []⟩) := by
  induction pieces generalizing buffer with
  | nil =>
      rw [List.flatten_nil, List.append_nil] at h ⊢
      rw [receiveUntil, h]
  | cons piece pieces ih =>
      cases hfound : markEnd mark buffer with
      | some found =>
          rw [markEnd_append hfound] at h
          cases h
      | none =>
          rw [List.flatten_cons, ← List.append_assoc] at h ⊢
          rw [receiveUntil, hfound]
          exact ih h

theorem readUntil_some (h : markEnd mark inflow.all = some count) :
    ∃ left, inflow.readUntil mark = (some count, left) ∧ left.all = inflow.all
      ∧ count ≤ left.buffer.length :=
  receiveUntil_some h

theorem readUntil_none (h : markEnd mark inflow.all = none) :
    inflow.readUntil mark = (none, ⟨inflow.all, []⟩) := receiveUntil_none h

/-- What is in the buffer is found at once. -/
theorem readUntil_buffered (h : markEnd mark inflow.buffer = some count) :
    inflow.readUntil mark = (some count, inflow) := by
  obtain ⟨buffer, pieces⟩ := inflow
  cases pieces with
  | nil => rw [readUntil, receiveUntil, h]
  | cons piece pieces => rw [readUntil, receiveUntil, h]

theorem markEnd_receiveUntil {buffer : Bytes} {pieces : List Bytes} {left : Inflow}
    (h : receiveUntil mark buffer pieces = (some count, left)) :
    markEnd mark left.buffer = some count := by
  induction pieces generalizing buffer with
  | nil =>
      rw [receiveUntil, Prod.mk.injEq] at h
      obtain ⟨hcount, rfl⟩ := h
      exact hcount
  | cons piece pieces ih =>
      rw [receiveUntil] at h
      split at h
      · next found hfound =>
          rw [Prod.mk.injEq, Option.some.injEq] at h
          obtain ⟨rfl, rfl⟩ := h
          exact hfound
      · exact ih h

theorem receive_of_le {buffer : Bytes} {pieces : List Bytes} (h : count ≤ pieces.flatten.length) :
    ∃ left, receive buffer count pieces = (true, left) ∧ left.all = buffer ++ pieces.flatten
      ∧ left.buffer = buffer ++ pieces.flatten.take count := by
  induction pieces generalizing buffer count with
  | nil =>
      obtain rfl := Nat.le_zero.mp h
      exact ⟨⟨buffer, []⟩, rfl, rfl, (List.append_nil buffer).symm⟩
  | cons piece pieces ih =>
      rw [List.flatten_cons, List.length_append] at h
      rw [receive]
      by_cases hle : count ≤ piece.length
      · rw [if_pos hle]
        refine ⟨_, rfl, ?_, ?_⟩
        · rw [all, List.flatten_cons, List.append_assoc, ← List.append_assoc (piece.take count),
            List.take_append_drop, List.flatten_cons]
        · rw [List.flatten_cons, List.take_append_of_le_length hle]
      · rw [if_neg hle]
        obtain ⟨left, hleft, hall, hbuffer⟩ :=
          @ih (count - piece.length) (buffer ++ piece) (by omega)
        refine ⟨left, hleft, ?_, ?_⟩
        · rw [hall, List.flatten_cons, List.append_assoc]
        · have hpiece : piece.take count = piece := List.take_of_length_le (Nat.le_of_not_le hle)
          rw [hbuffer, List.flatten_cons, List.take_append, hpiece, List.append_assoc]

theorem receive_of_lt {buffer : Bytes} {pieces : List Bytes} (h : pieces.flatten.length < count) :
    receive buffer count pieces = (false, ⟨buffer ++ pieces.flatten, []⟩) := by
  induction pieces generalizing buffer count with
  | nil =>
      rw [receive, List.flatten_nil, List.append_nil,
        decide_eq_false (p := count = 0) (Nat.ne_of_gt h)]
  | cons piece pieces ih =>
      rw [List.flatten_cons, List.length_append] at h
      rw [receive, if_neg (by omega), ih (by omega), List.flatten_cons, List.append_assoc]

theorem readMore_of_le (h : count ≤ inflow.pieces.flatten.length) :
    ∃ left, inflow.readMore count = (true, left) ∧ left.all = inflow.all
      ∧ left.buffer = inflow.buffer ++ inflow.pieces.flatten.take count := receive_of_le h

theorem readMore_of_lt (h : inflow.pieces.flatten.length < count) :
    inflow.readMore count = (false, ⟨inflow.all, []⟩) := receive_of_lt h

theorem all_readMore (inflow : Inflow) (count : Nat) :
    (inflow.readMore count).2.all = inflow.all := by
  by_cases hle : count ≤ inflow.pieces.flatten.length
  · obtain ⟨left, hleft, hall, -⟩ := readMore_of_le hle
    rw [hleft]
    exact hall
  · rw [readMore_of_lt (Nat.lt_of_not_le hle)]
    exact List.append_nil _

theorem length_consume_le (inflow : Inflow) (count : Nat) :
    (inflow.consume count).all.length ≤ inflow.all.length := by
  show (inflow.buffer.drop count ++ inflow.pieces.flatten).length
    ≤ (inflow.buffer ++ inflow.pieces.flatten).length
  rw [List.length_append, List.length_append, List.length_drop]
  exact Nat.add_le_add_right (Nat.sub_le _ _) _

theorem all_consume (h : count ≤ inflow.buffer.length) :
    (inflow.consume count).all = inflow.all.drop count := by
  rw [all, all, List.drop_append_of_le_length h]
  rfl

theorem take_buffer (h : count ≤ inflow.buffer.length) :
    inflow.buffer.take count = inflow.all.take count :=
  (List.take_append_of_le_length h).symm

end Inflow

end TapSdk.Library
