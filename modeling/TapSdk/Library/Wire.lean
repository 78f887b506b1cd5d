import Mathlib.Data.List.Basic

/-!
# Codecs and the length-delimited wire format

A codec is a serializer and a parser; it is lossless when parsing undoes serializing. The wire
format is the one of protocol buffers: base-128 varints, and fields that carry a tag, a length and
that many bytes. What is proved is that a list of fields is read back as it was written.
-/

namespace TapSdk.Library

structure Codec (α : Type) where
  serialize : α → List UInt8
  parse : List UInt8 → Option α

def Codec.Lossless {α : Type} (codec : Codec α) : Prop :=
  ∀ value, codec.parse (codec.serialize value) = some value

namespace Wire

/-- `fuel` bounds the number of continuation bytes. -/
def varintUpTo : Nat → Nat → List UInt8
  | 0, value => [UInt8.ofNat value]
  | fuel + 1, value =>
      if value < 128 then [UInt8.ofNat value]
      else UInt8.ofNat (value % 128 + 128) :: varintUpTo fuel (value / 128)

def varint (value : Nat) : List UInt8 := varintUpTo value value

def readVarint : List UInt8 → Option (Nat × List UInt8)
  | [] => none
  | byte :: rest =>
      if byte.toNat < 128 then some (byte.toNat, rest)
      else (readVarint rest).map fun (value, tail) => (byte.toNat - 128 + 128 * value, tail)

theorem readVarint_varintUpTo {fuel value : Nat} (h : value < 128 ∨ value ≤ fuel)
    (tail : List UInt8) :
    readVarint (varintUpTo fuel value ++ tail) = some (value, tail) := by
  have hsmall : ∀ {small : Nat}, small < 128 →
      readVarint (UInt8.ofNat small :: tail) = some (small, tail) := by
    intro small hlt
    have hbyte : (UInt8.ofNat small).toNat = small := by
      rw [UInt8.toNat_ofNat']
      omega
    rw [readVarint, hbyte, if_pos hlt]
  induction fuel generalizing value with
  | zero => exact hsmall (by omega)
  | succ fuel ih =>
      unfold varintUpTo
      split
      · rename_i hlt
        exact hsmall hlt
      · rename_i hge
        have hbyte : (UInt8.ofNat (value % 128 + 128)).toNat = value % 128 + 128 := by
          rw [UInt8.toNat_ofNat']
          omega
        rw [List.cons_append, readVarint, hbyte, if_neg (by omega), ih (by omega)]
        simp only [Option.map_some, Option.some.injEq, Prod.mk.injEq, and_true]
        omega

@[simp]
theorem readVarint_varint (value : Nat) (tail : List UInt8) :
    readVarint (varint value ++ tail) = some (value, tail) :=
  readVarint_varintUpTo (Or.inr (Nat.le_refl value)) tail

theorem varint_ne_nil (value : Nat) : varint value ≠ [] := by
  unfold varint
  cases value with
  | zero => simp [varintUpTo]
  | succ value =>
      unfold varintUpTo
      split <;> simp

/-! ### Length-delimited fields -/

/-- A field number and the bytes the field carries. -/
abbrev Field := Nat × List UInt8

/-- Wire type 2: the tag, the length, the bytes. -/
def Field.bytes (field : Field) : List UInt8 :=
  varint (8 * field.1 + 2) ++ varint field.2.length ++ field.2

def readField (bytes : List UInt8) : Option (Field × List UInt8) := do
  let (tag, rest) ← readVarint bytes
  let (length, rest) ← readVarint rest
  if tag % 8 = 2 ∧ length ≤ rest.length then
    some ((tag / 8, rest.take length), rest.drop length)
  else none

/-- `fuel` bounds the number of fields. -/
def readFieldsUpTo : Nat → List UInt8 → Option (List Field)
  | _, [] => some []
  | 0, _ :: _ => none
  | fuel + 1, byte :: rest => do
      let (field, tail) ← readField (byte :: rest)
      let fields ← readFieldsUpTo fuel tail
      some (field :: fields)

def readFields (bytes : List UInt8) : Option (List Field) := readFieldsUpTo bytes.length bytes

theorem readField_bytes (field : Field) (tail : List UInt8) :
    readField (Field.bytes field ++ tail) = some (field, tail) := by
  obtain ⟨number, payload⟩ := field
  have hdiv : (8 * number + 2) / 8 = number := by omega
  have hmod : (8 * number + 2) % 8 = 2 := by omega
  simp [readField, Field.bytes, List.append_assoc, hdiv, hmod]

theorem readFieldsUpTo_flatMap (fields : List Field) {fuel : Nat}
    (hfuel : fields.length ≤ fuel) :
    readFieldsUpTo fuel (fields.flatMap Field.bytes) = some fields := by
  induction fields generalizing fuel with
  | nil =>
      cases fuel <;> rfl
  | cons field fields ih =>
      obtain ⟨fuel, rfl⟩ : ∃ n, fuel = n + 1 := ⟨fuel - 1, by simp at hfuel; omega⟩
      have htail : readFieldsUpTo fuel (fields.flatMap Field.bytes) = some fields :=
        ih (by simpa using hfuel)
      have hfield := readField_bytes field (fields.flatMap Field.bytes)
      rw [List.flatMap_cons]
      cases hbytes : Field.bytes field ++ fields.flatMap Field.bytes with
      | nil =>
          rw [hbytes] at hfield
          simp [readField, readVarint] at hfield
      | cons byte rest =>
          rw [hbytes] at hfield
          simp [readFieldsUpTo, hfield, htail]

theorem length_le_flatMap (fields : List Field) :
    fields.length ≤ (fields.flatMap Field.bytes).length := by
  induction fields with
  | nil => simp
  | cons field fields ih =>
      have hpos : 0 < (varint (8 * field.1 + 2)).length :=
        List.length_pos_iff.mpr (varint_ne_nil _)
      simp only [List.flatMap_cons, List.length_append, List.length_cons, Field.bytes]
      omega

/-- **A field list survives the wire.** -/
@[simp]
theorem readFields_flatMap (fields : List Field) :
    readFields (fields.flatMap Field.bytes) = some fields :=
  readFieldsUpTo_flatMap fields (length_le_flatMap fields)

/-- A singular field of string type is left out when it is empty. -/
def stringField (number : Nat) (value : List UInt8) : List Field :=
  if value = [] then [] else [(number, value)]

/-- The value a reader keeps for a singular field: the last one given, or the empty default. -/
def lastValue (number : Nat) (fields : List Field) : List UInt8 :=
  fields.foldl (fun value field => if field.1 = number then field.2 else value) []

theorem foldl_stringField (number wanted : Nat) (value start : List UInt8) :
    (stringField number value).foldl
        (fun value field => if field.1 = wanted then field.2 else value) start
      = if number = wanted ∧ value ≠ [] then value else start := by
  unfold stringField
  split <;> simp_all

end Wire

end TapSdk.Library
