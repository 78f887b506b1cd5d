import Mathlib.Data.List.Basic

/-!
# JSON values and their text

A value as a program builds it, and the text that a strict writer gives it. A string is a list of
bytes, which need not be UTF-8; the writer checks every key and every string, and has no text for a
value with a string that is not. The members of an object are kept in the order of their keys.
-/

namespace TapSdk.Library

abbrev Bytes := List UInt8

def ascii (text : String) : Bytes := text.toList.map fun char => char.toNat.toUInt8

/-! ### UTF-8 -/

/-- What a decoder waits for: how many bytes the character still has, and the range of the next. -/
structure Utf8 where
  owed : Nat
  low : UInt8
  high : UInt8

namespace Utf8

def start : Utf8 := ⟨0, 0x80, 0xBF⟩

/-- The first byte of a character. The ranges leave out overlong forms, surrogates, and what is
beyond the last code point. -/
def lead (byte : UInt8) : Option Utf8 :=
  if byte < 0x80 then some start
  else if byte < 0xC2 then none
  else if byte < 0xE0 then some ⟨1, 0x80, 0xBF⟩
  else if byte = 0xE0 then some ⟨2, 0xA0, 0xBF⟩
  else if byte = 0xED then some ⟨2, 0x80, 0x9F⟩
  else if byte < 0xF0 then some ⟨2, 0x80, 0xBF⟩
  else if byte = 0xF0 then some ⟨3, 0x90, 0xBF⟩
  else if byte < 0xF4 then some ⟨3, 0x80, 0xBF⟩
  else if byte = 0xF4 then some ⟨3, 0x80, 0x8F⟩
  else none

def decode (state : Utf8) (byte : UInt8) : Option Utf8 :=
  match state.owed with
  | 0 => lead byte
  | owed + 1 => if state.low ≤ byte ∧ byte ≤ state.high then some ⟨owed, 0x80, 0xBF⟩ else none

def accepts (state : Utf8) : Bytes → Bool
  | [] => state.owed = 0
  | byte :: rest =>
      match state.decode byte with
      | none => false
      | some next => next.accepts rest

end Utf8

def isUtf8 (bytes : Bytes) : Bool := Utf8.start.accepts bytes

/-! ### Values -/

/-- A floating-point number stands for the text that the writer gives it. -/
inductive Json where
  | null
  | boolean (value : Bool)
  | unsigned (value : UInt64)
  | integer (value : Int)
  | float (text : Bytes)
  | string (bytes : Bytes)
  | array (items : List Json)
  | object (members : List (Bytes × Json))

namespace Json

/-- Assigns to the member with this key. -/
def assign (key : Bytes) (value : Json) : List (Bytes × Json) → List (Bytes × Json)
  | [] => [(key, value)]
  | member :: rest =>
      if member.1 = key then (key, value) :: rest
      else if key < member.1 then (key, value) :: member :: rest
      else member :: assign key value rest

/-- The object that these assignments make, one after the other. -/
def ofFields (fields : List (Bytes × Json)) : Json :=
  .object (fields.foldl (fun members field => assign field.1 field.2 members) [])

/-- The value that `push_back` makes of these items, starting with `null`. -/
def ofItems : List Json → Json
  | [] => .null
  | items => .array items

/-! ### The writer -/

def digits (value : Nat) : Bytes := (Nat.toDigits 10 value).map fun char => char.toNat.toUInt8

def hex (value : Nat) : UInt8 := (Nat.digitChar value).toNat.toUInt8

/-- Only single bytes are escaped; the bytes of a longer character are copied. -/
def escape (byte : UInt8) : Bytes :=
  if byte = 0x08 then ascii "\\b"
  else if byte = 0x09 then ascii "\\t"
  else if byte = 0x0A then ascii "\\n"
  else if byte = 0x0C then ascii "\\f"
  else if byte = 0x0D then ascii "\\r"
  else if byte = 0x22 then ascii "\\\""
  else if byte = 0x5C then ascii "\\\\"
  else if byte ≤ 0x1F then ascii "\\u00" ++ [hex (byte.toNat / 16), hex (byte.toNat % 16)]
  else [byte]

def dumpEscaped (state : Utf8) : Bytes → Option Bytes
  | [] => if state.owed = 0 then some [] else none
  | byte :: rest =>
      match state.decode byte with
      | none => none
      | some next => (dumpEscaped next rest).map fun text => escape byte ++ text

def dumpString (bytes : Bytes) : Option Bytes :=
  (dumpEscaped Utf8.start bytes).map fun text => ascii "\"" ++ text ++ ascii "\""

mutual

def dump : Json → Option Bytes
  | .null => some (ascii "null")
  | .boolean value => some (ascii (if value then "true" else "false"))
  | .unsigned value => some (digits value.toNat)
  | .integer value =>
      some (if value < 0 then ascii "-" ++ digits value.natAbs else digits value.natAbs)
  | .float text => some text
  | .string bytes => dumpString bytes
  | .array items => (dumpItems items).map fun texts =>
      ascii "[" ++ (ascii ",").intercalate texts ++ ascii "]"
  | .object members => (dumpMembers members).map fun texts =>
      ascii "\x7b" ++ (ascii ",").intercalate texts ++ ascii "\x7d"

def dumpItems : List Json → Option (List Bytes)
  | [] => some []
  | item :: rest => do
      let text ← item.dump
      let texts ← dumpItems rest
      some (text :: texts)

def dumpMembers : List (Bytes × Json) → Option (List Bytes)
  | [] => some []
  | (key, value) :: rest => do
      let name ← dumpString key
      let text ← value.dump
      let texts ← dumpMembers rest
      some ((name ++ ascii ":" ++ text) :: texts)

end

/-! ### What has a text -/

/-- The writer does not throw on the value. -/
def Dumps (value : Json) : Prop := value.dump.isSome = true

instance (value : Json) : Decidable value.Dumps := inferInstanceAs (Decidable (_ = true))

theorem isSome_dumpEscaped (state : Utf8) (bytes : Bytes) :
    (dumpEscaped state bytes).isSome = state.accepts bytes := by
  induction bytes generalizing state with
  | nil =>
      unfold dumpEscaped Utf8.accepts
      split <;> simp_all
  | cons byte rest ih =>
      unfold dumpEscaped Utf8.accepts
      cases hnext : state.decode byte with
      | none => rfl
      | some next => simpa using ih next

theorem isSome_dumpString (bytes : Bytes) : (dumpString bytes).isSome = isUtf8 bytes := by
  rw [dumpString, Option.isSome_map]
  exact isSome_dumpEscaped Utf8.start bytes

example : isUtf8 [0xE2, 0x82, 0xAC] = true ∧ isUtf8 [0xE2, 0x82] = false
    ∧ isUtf8 [0xED, 0xA0, 0x80] = false := by decide

@[simp]
theorem dumps_unsigned (value : UInt64) : (Json.unsigned value).Dumps := rfl

@[simp]
theorem dumps_string (bytes : Bytes) : (Json.string bytes).Dumps ↔ isUtf8 bytes = true := by
  unfold Dumps dump
  rw [isSome_dumpString]

theorem isSome_dumpItems (items : List Json) :
    (dumpItems items).isSome = true ↔ ∀ item ∈ items, item.Dumps := by
  induction items with
  | nil => simp [dumpItems]
  | cons item rest ih =>
      rw [List.forall_mem_cons, ← ih]
      rw [dumpItems, Dumps]
      cases item.dump <;> cases dumpItems rest <;> simp

theorem isSome_dumpMembers (members : List (Bytes × Json)) : (dumpMembers members).isSome = true ↔
    ∀ member ∈ members, isUtf8 member.1 = true ∧ member.2.Dumps := by
  induction members with
  | nil => simp [dumpMembers]
  | cons member rest ih =>
      rw [List.forall_mem_cons, ← ih, ← isSome_dumpString, dumpMembers, Dumps]
      cases dumpString member.1 <;> cases member.2.dump <;> cases dumpMembers rest <;> simp

theorem dumps_object (members : List (Bytes × Json)) : (Json.object members).Dumps ↔
    ∀ member ∈ members, isUtf8 member.1 = true ∧ member.2.Dumps := by
  rw [← isSome_dumpMembers, Dumps, dump, Option.isSome_map]

theorem dumps_ofItems (items : List Json) :
    (ofItems items).Dumps ↔ ∀ item ∈ items, item.Dumps := by
  rw [← isSome_dumpItems]
  cases items with
  | nil => exact iff_of_true rfl rfl
  | cons item rest =>
      change (Json.array (item :: rest)).Dumps ↔ _
      rw [Dumps, dump, Option.isSome_map]

theorem mem_assign {key : Bytes} {value : Json} {members : List (Bytes × Json)}
    (hnew : ∀ member ∈ members, member.1 ≠ key) (member : Bytes × Json) :
    member ∈ assign key value members ↔ member = (key, value) ∨ member ∈ members := by
  induction members with
  | nil => simp [assign]
  | cons first rest ih =>
      obtain ⟨hfirst, hrest⟩ := List.forall_mem_cons.mp hnew
      unfold assign
      rw [if_neg hfirst]
      split
      · exact List.mem_cons
      · rw [List.mem_cons, ih hrest, List.mem_cons]
        exact or_left_comm

theorem mem_foldl_assign {fields members : List (Bytes × Json)}
    (hdistinct : (fields.map Prod.fst).Nodup)
    (hnew : ∀ field ∈ fields, ∀ member ∈ members, member.1 ≠ field.1) (member : Bytes × Json) :
    member ∈ fields.foldl (fun members field => assign field.1 field.2 members) members
      ↔ member ∈ members ∨ member ∈ fields := by
  induction fields generalizing members with
  | nil => simp
  | cons field rest ih =>
      obtain ⟨hfield, hrest⟩ := List.forall_mem_cons.mp hnew
      rw [List.map_cons, List.nodup_cons] at hdistinct
      rw [List.foldl_cons, ih hdistinct.2, mem_assign hfield, List.mem_cons]
      · rw [or_comm (a := member = (field.1, field.2)), or_assoc]
      · intro later hlater other hother
        rcases (mem_assign hfield other).mp hother with rfl | hold
        · intro hsame
          exact hdistinct.1 (hsame ▸ List.mem_map_of_mem hlater)
        · exact hrest later hlater other hold

theorem dumps_ofFields {fields : List (Bytes × Json)} (hdistinct : (fields.map Prod.fst).Nodup) :
    (ofFields fields).Dumps ↔ ∀ field ∈ fields, isUtf8 field.1 = true ∧ field.2.Dumps := by
  rw [ofFields, dumps_object]
  have hmem := mem_foldl_assign hdistinct fun field _ member (hmember : member ∈ []) =>
    absurd hmember List.not_mem_nil
  simp only [hmem, List.not_mem_nil, false_or]

end Json

end TapSdk.Library
