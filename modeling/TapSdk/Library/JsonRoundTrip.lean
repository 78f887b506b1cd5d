import TapSdk.Library.JsonReader

/-!
# What is written is read

The text of a value is read as that value, whatever is behind it. Only the kind of an integer that
is not negative is not kept.
-/

namespace TapSdk.Library.Json

/-! ### Values that can be read -/

mutual

/-- Integers fit into 64 bits, a floating-point number is written as one, and the keys of an object
are in order. -/
def Readable : Json → Prop
  | .integer value => -0x8000000000000000 ≤ value ∧ value < 0x10000000000000000
  | .float text => text.all isNumberByte = true ∧ readNumber text = some (.float text)
  | .array items => ReadableItems items
  | .object members => members.Pairwise (·.1 < ·.1) ∧ ReadableMembers members
  | _ => True

def ReadableItems : List Json → Prop
  | [] => True
  | item :: rest => item.Readable ∧ ReadableItems rest

def ReadableMembers : List (Bytes × Json) → Prop
  | [] => True
  | (_, value) :: rest => value.Readable ∧ ReadableMembers rest

end

mutual

/-- The value as a reader builds it. -/
def normalize : Json → Json
  | .integer value => if 0 ≤ value then .unsigned (UInt64.ofNat value.toNat) else .integer value
  | .array items => .array (normalizeItems items)
  | .object members => .object (normalizeMembers members)
  | value => value

def normalizeItems : List Json → List Json
  | [] => []
  | item :: rest => item.normalize :: normalizeItems rest

def normalizeMembers : List (Bytes × Json) → List (Bytes × Json)
  | [] => []
  | (key, value) :: rest => (key, value.normalize) :: normalizeMembers rest

end

/-! ### Strings -/

theorem hexValue_hex : ∀ value < 16, hexValue (hex value) = some value := by decide

theorem readEscape_unit (byte : UInt8) (h : byte < 0x20) (tail : Bytes) :
    readEscape (0x75 :: 0x30 :: 0x30 :: hex (byte.toNat / 16) :: hex (byte.toNat % 16) :: tail)
      = some ([byte], tail) := by
  have hlt : byte.toNat < 32 := h
  have hzero : hexValue 0x30 = some 0 := rfl
  have hhigh := hexValue_hex (byte.toNat / 16) (by omega)
  have hlow := hexValue_hex (byte.toNat % 16) (by omega)
  have hpoint : 0 * 4096 + 0 * 256 + byte.toNat / 16 * 16 + byte.toNat % 16 = byte.toNat := by omega
  have hunit : readUnit (0x30 :: 0x30 :: hex (byte.toNat / 16) :: hex (byte.toNat % 16) :: tail)
      = some (byte.toNat, tail) := by
    simp only [readUnit, hzero, hhigh, hlow, Option.bind_eq_bind, Option.bind_some, hpoint]
  have hutf8 : utf8 byte.toNat = [byte] := by
    rw [utf8, if_pos (by omega), UInt8.ofNat_toNat]
  rw [readEscape, if_pos rfl, hunit]
  simp only [Option.bind_eq_bind, Option.bind_some]
  rw [if_neg (by omega), if_neg (by omega), hutf8]

/-- An escaped byte is read as the byte. -/
theorem readChars_escape (fuel : Nat) (byte : UInt8) (tail : Bytes) :
    readChars (fuel + 1) (escape byte ++ tail)
      = (readChars fuel tail).map fun (chars, left) => (byte :: chars, left) := by
  have hescape (letter byte : UInt8) (hletter : readEscape (letter :: tail) = some ([byte], tail)) :
      readChars (fuel + 1) (0x5C :: letter :: tail)
        = (readChars fuel tail).map fun (chars, left) => (byte :: chars, left) := by
    rw [readChars, if_neg (by decide), if_pos rfl, hletter]
    simp only [Option.bind_eq_bind, Option.bind_some]
    cases readChars fuel tail <;> rfl
  unfold escape
  split
  · next heq => exact heq ▸ hescape 0x62 0x08 rfl
  split
  · next heq => exact heq ▸ hescape 0x74 0x09 rfl
  split
  · next heq => exact heq ▸ hescape 0x6E 0x0A rfl
  split
  · next heq => exact heq ▸ hescape 0x66 0x0C rfl
  split
  · next heq => exact heq ▸ hescape 0x72 0x0D rfl
  split
  · next heq => exact heq ▸ hescape 0x22 0x22 rfl
  split
  · next heq => exact heq ▸ hescape 0x5C 0x5C rfl
  split
  · next hle =>
      have hunit := readEscape_unit byte (UInt8.lt_of_le_of_lt hle (by decide)) tail
      show readChars (fuel + 1) (0x5C :: 0x75 :: 0x30 :: 0x30 :: hex (byte.toNat / 16)
        :: hex (byte.toNat % 16) :: tail) = _
      rw [readChars, if_neg (by decide), if_pos rfl, hunit]
      simp only [Option.bind_eq_bind, Option.bind_some]
      cases readChars fuel tail <;> rfl
  · next hquote hslash hlow =>
      have hnot : ¬byte < 0x20 := by
        intro hlt
        exact hlow (UInt8.le_iff_toNat_le.mpr (Nat.le_of_lt_succ (UInt8.lt_iff_toNat_lt.mp hlt)))
      rw [List.singleton_append, readChars, if_neg hquote, if_neg hslash, if_neg hnot]

theorem readChars_dumpEscaped {state : Utf8} {bytes text : Bytes}
    (h : dumpEscaped state bytes = some text) {fuel : Nat} (hfuel : text.length < fuel)
    (rest : Bytes) :
    readChars fuel (text ++ 0x22 :: rest) = some (bytes, rest) := by
  induction bytes generalizing state text fuel with
  | nil =>
      obtain ⟨fuel, rfl⟩ := Nat.exists_eq_add_of_lt hfuel
      unfold dumpEscaped at h
      split at h
      · cases h
        rfl
      · cases h
  | cons byte bytes ih =>
      unfold dumpEscaped at h
      split at h
      · cases h
      · next next hnext =>
          obtain ⟨later, hlater, rfl⟩ := Option.map_eq_some_iff.mp h
          obtain ⟨fuel, rfl⟩ := Nat.exists_eq_succ_of_ne_zero (Nat.ne_zero_of_lt hfuel)
          have hpos : 0 < (escape byte).length := by
            unfold escape
            split_ifs <;> simp [ascii]
          rw [List.length_append] at hfuel
          rw [List.append_assoc, readChars_escape, ih hlater (by omega)]
          rfl

theorem readString_dumpString {bytes text : Bytes} (h : dumpString bytes = some text)
    (rest : Bytes) :
    readString (text ++ rest) = some (bytes, rest) := by
  have hutf8 : isUtf8 bytes = true := by rw [← isSome_dumpString, h]; rfl
  obtain ⟨escaped, hescaped, rfl⟩ := Option.map_eq_some_iff.mp h
  have hread := readChars_dumpEscaped hescaped
    (show escaped.length < (escaped ++ 0x22 :: rest).length by simp) rest
  show readString (0x22 :: (escaped ++ [0x22] ++ rest)) = _
  rw [List.append_assoc, List.singleton_append, readString, if_pos rfl, hread]
  simp only [Option.filter_some, hutf8, if_true]

/-! ### Numbers -/

/-- What is behind a number does not go on with it. -/
def Apart (rest : Bytes) : Prop := ∀ byte ∈ rest.head?, isNumberByte byte = false

theorem takeWhile_append {p : UInt8 → Bool} {first rest : Bytes} (hfirst : first.all p = true)
    (hrest : ∀ byte ∈ rest.head?, p byte = false) :
    (first ++ rest).takeWhile p = first ∧ (first ++ rest).dropWhile p = rest := by
  rw [List.all_eq_true] at hfirst
  rw [List.takeWhile_append_of_pos hfirst, List.dropWhile_append_of_pos hfirst]
  cases rest with
  | nil => exact ⟨List.append_nil first, rfl⟩
  | cons byte rest =>
      have hbyte : ¬p byte = true := by
        rw [hrest byte rfl]
        exact Bool.false_ne_true
      rw [List.takeWhile_cons_of_neg hbyte, List.dropWhile_cons_of_neg hbyte, List.append_nil]
      exact ⟨rfl, rfl⟩

theorem all_isDigit (value : Nat) : (digits value).all isDigit = true :=
  List.all_eq_true.mpr fun _ hbyte => Decimal.isDigit_of_mem_digits hbyte

theorem digits_of_lt {value : Nat} (h : value < 10) :
    digits value = [(Nat.digitChar value).toNat.toUInt8] := by
  rw [digits, Nat.toDigits_of_lt_base h, List.map_singleton]

theorem digits_of_ge {value : Nat} (h : 10 ≤ value) :
    digits value = digits (value / 10) ++ [(Nat.digitChar (value % 10)).toNat.toUInt8] := by
  rw [digits, Nat.toDigits_of_base_le (by decide) h, List.map_append, List.map_singleton, digits]

theorem head_digits_ne {value : Nat} (h : 0 < value) : (digits value).head? ≠ some 0x30 := by
  induction value using Nat.strongRecOn with
  | ind value ih =>
      by_cases hlt : value < 10
      · have hdigit : ∀ value < 10, 0 < value →
            [(Nat.digitChar value).toNat.toUInt8].head? ≠ some 0x30 := by decide
        rw [digits_of_lt hlt]
        exact hdigit value hlt h
      · have hge := Nat.not_lt.mp hlt
        rw [digits_of_ge hge, List.head?_append_of_ne_nil _ (Decimal.digits_ne_nil _)]
        exact ih (value / 10) (Nat.div_lt_self h (by decide)) (Nat.div_pos hge (by decide))

theorem isNatural_digits (value : Nat) : isNatural (digits value) = true := by
  have hne := Decimal.digits_ne_nil value
  by_cases hlt : value < 10
  · simp [isNatural, digits_of_lt hlt]
  · have hhead := head_digits_ne (show 0 < value by omega)
    simp only [isNatural, Bool.and_eq_true, bne_iff_ne, Bool.or_eq_true]
    exact ⟨hne, Or.inl hhead⟩

theorem dropWhile_digits (value : Nat) :
    (digits value).takeWhile isDigit = digits value ∧ (digits value).dropWhile isDigit = [] := by
  have hsplit := @takeWhile_append isDigit (digits value) [] (all_isDigit value) nofun
  rwa [List.append_nil] at hsplit

theorem head_digits (value : Nat) :
    ∃ byte, (digits value).head? = some byte ∧ isDigit byte = true := by
  obtain ⟨byte, rest, hcons⟩ := List.exists_cons_of_ne_nil (Decimal.digits_ne_nil value)
  have hmem : byte ∈ digits value := hcons ▸ List.mem_cons_self
  refine ⟨byte, ?_, Decimal.isDigit_of_mem_digits hmem⟩
  rw [hcons]
  rfl

theorem head_digits_ne_minus (value : Nat) : (digits value).head? ≠ some 0x2D := by
  obtain ⟨byte, hhead, hdigit⟩ := head_digits value
  rw [hhead]
  intro heq
  rw [Option.some.inj heq] at hdigit
  exact absurd hdigit (by decide)

theorem readNumber_unsigned (value : UInt64) :
    readNumber (digits value.toNat) = some (.unsigned value) := by
  obtain ⟨htake, hdrop⟩ := dropWhile_digits value.toNat
  have hfraction : isFraction [] = true := rfl
  have hlt : value.toNat < 0x10000000000000000 := value.toNat_lt
  rw [readNumber]
  simp only [head_digits_ne_minus, if_false, htake, hdrop, isNatural_digits,
    hfraction, Bool.and_true, if_true, false_and, and_false, not_false_eq_true, true_and,
    Decimal.value_digits, hlt, UInt64.ofNat_toNat]

theorem readNumber_negative {value : Int} (hneg : value < 0) (hlow : -0x8000000000000000 ≤ value) :
    readNumber (ascii "-" ++ digits value.natAbs) = some (.integer value) := by
  obtain ⟨htake, hdrop⟩ := dropWhile_digits value.natAbs
  have hfraction : isFraction [] = true := rfl
  have hle : value.natAbs ≤ 0x8000000000000000 := by omega
  have hvalue : -(value.natAbs : Int) = value := by omega
  have hhead : (ascii "-" ++ digits value.natAbs).head? = some 0x2D := rfl
  have htail : (ascii "-" ++ digits value.natAbs).drop 1 = digits value.natAbs := rfl
  rw [readNumber]
  simp only [hhead, htail, if_true, htake, hdrop, isNatural_digits, hfraction, Bool.and_true,
    true_and, Decimal.value_digits, hle, hvalue]

/-! ### Scalars -/

/-- A byte that a value may begin with, other than an array or an object. -/
def isScalarHead (byte : UInt8) : Bool :=
  !isSpace byte && byte != 0x5B && byte != 0x7B && byte != 0x5D

theorem numberByte_cases {byte : UInt8} (h : isNumberByte byte = true) :
    isScalarHead byte = true ∧ byte ≠ 0x22 ∧ byte ≠ 0x6E ∧ byte ≠ 0x74 ∧ byte ≠ 0x66 := by
  have hall := forall_byte
    (p := fun byte => !isNumberByte byte || (isScalarHead byte && byte != 0x22 && byte != 0x6E
      && byte != 0x74 && byte != 0x66))
    (by decide +kernel) byte
  simpa [h, and_assoc] using hall

theorem isNumberByte_of_isDigit {byte : UInt8} (h : isDigit byte = true) :
    isNumberByte byte = true := by
  rw [isNumberByte, h, Bool.true_or]

theorem all_isNumberByte (value : Nat) : (digits value).all isNumberByte = true :=
  List.all_eq_true.mpr fun _ hbyte => isNumberByte_of_isDigit (Decimal.isDigit_of_mem_digits hbyte)

theorem ne_nil_of_readNumber {text : Bytes} {value : Json} (h : readNumber text = some value) :
    text ≠ [] := by
  rintro rfl
  cases h

/-- The text of a number: what a reader makes of it, and that it does not begin anything else. -/
theorem readScalar_number {text : Bytes} {value : Json} (hall : text.all isNumberByte = true)
    (hnumber : readNumber text = some value) {rest : Bytes} (hrest : Apart rest) :
    readScalar (text ++ rest) = some (value, rest)
      ∧ ∃ byte, text.head? = some byte ∧ isScalarHead byte = true := by
  obtain ⟨byte, more, rfl⟩ := List.exists_cons_of_ne_nil (ne_nil_of_readNumber hnumber)
  have hbyte := List.all_eq_true.mp hall byte List.mem_cons_self
  obtain ⟨hhead, hquote, hn, ht, hf⟩ := numberByte_cases hbyte
  obtain ⟨htake, hdrop⟩ := takeWhile_append hall hrest
  refine ⟨?_, byte, rfl, hhead⟩
  have hsome : (byte :: more ++ rest).head? = some byte := rfl
  simp only [readScalar, hsome, Option.some.injEq, hquote, hn, ht, hf, if_false, htake,
    hdrop, hnumber, Option.map_some]

theorem readWord_append (word : Bytes) (value : Json) (rest : Bytes) :
    readWord word value (word ++ rest) = some (value, rest) := by
  rw [readWord, if_pos (List.isPrefixOf_iff_prefix.mpr (List.prefix_append word rest)),
    List.drop_left]

/-- Neither an array nor an object. -/
def isScalar : Json → Bool
  | .array _ => false
  | .object _ => false
  | _ => true

theorem readScalar_dump {value : Json} (hscalar : value.isScalar = true) (hread : value.Readable)
    {text : Bytes} (h : value.dump = some text) {rest : Bytes} (hrest : Apart rest) :
    readScalar (text ++ rest) = some (value.normalize, rest)
      ∧ ∃ byte, text.head? = some byte ∧ isScalarHead byte = true := by
  cases value with
  | null =>
      cases h
      exact ⟨readWord_append (ascii "null") .null rest, 0x6E, rfl, rfl⟩
  | boolean value =>
      cases value with
      | false =>
          cases h
          exact ⟨readWord_append (ascii "false") (.boolean false) rest, 0x66, rfl, rfl⟩
      | true =>
          cases h
          exact ⟨readWord_append (ascii "true") (.boolean true) rest, 0x74, rfl, rfl⟩
  | unsigned value =>
      cases h
      exact readScalar_number (all_isNumberByte _) (readNumber_unsigned value) hrest
  | integer value =>
      obtain ⟨hlow, hhigh⟩ := hread
      unfold dump at h
      cases h
      by_cases hneg : value < 0
      · rw [if_pos hneg, normalize, if_neg (Int.not_le.mpr hneg)]
        have hall : (ascii "-" ++ digits value.natAbs).all isNumberByte = true := by
          rw [List.all_append, all_isNumberByte]
          rfl
        exact readScalar_number hall (readNumber_negative hneg hlow) hrest
      · have hnat : (UInt64.ofNat value.toNat).toNat = value.natAbs := by
          rw [UInt64.toNat_ofNat']
          omega
        rw [if_neg hneg, normalize, if_pos (Int.not_lt.mp hneg), ← hnat]
        exact readScalar_number (all_isNumberByte _) (readNumber_unsigned _) hrest
  | float text =>
      cases h
      exact readScalar_number hread.1 hread.2 hrest
  | string bytes =>
      unfold dump at h
      have hstring := readString_dumpString h rest
      obtain ⟨escaped, -, rfl⟩ := Option.map_eq_some_iff.mp h
      refine ⟨?_, 0x22, rfl, rfl⟩
      have hhead : (ascii "\"" ++ escaped ++ ascii "\"" ++ rest).head? = some 0x22 := rfl
      rw [readScalar, if_pos hhead, hstring]
      rfl
  | array items => cases hscalar
  | object members => cases hscalar

/-! ### Marks -/

theorem skip_of_head {bytes : Bytes} {byte : UInt8} (hhead : bytes.head? = some byte)
    (hspace : isSpace byte = false) : skip bytes = bytes := by
  obtain ⟨rest, rfl⟩ := List.head?_eq_some_iff.mp hhead
  apply List.dropWhile_cons_of_neg
  rw [hspace]
  exact Bool.false_ne_true

theorem readMark_cons {mark : UInt8} (h : isSpace mark = false) (rest : Bytes) :
    readMark mark (mark :: rest) = some rest := by
  rw [readMark, skip_of_head rfl h]
  exact if_pos rfl

theorem readMark_of_head {mark byte : UInt8} {bytes : Bytes} (hhead : bytes.head? = some byte)
    (hspace : isSpace byte = false) (hne : byte ≠ mark) : readMark mark bytes = none := by
  rw [readMark, skip_of_head hhead hspace, hhead]
  exact if_neg fun heq => hne (Option.some.inj heq)

theorem apart_cons {byte : UInt8} (h : isNumberByte byte = false) (rest : Bytes) :
    Apart (byte :: rest) := by
  rintro first ⟨⟩
  exact h

theorem intercalate_cons_cons (separator first second : Bytes) (texts : List Bytes) :
    separator.intercalate (first :: second :: texts)
      = first ++ (separator ++ separator.intercalate (second :: texts)) := rfl

theorem intercalate_singleton (separator text : Bytes) : separator.intercalate [text] = text :=
  List.append_nil text

/-- What a value begins with. -/
theorem head_dump {value : Json} (hread : value.Readable) {text : Bytes}
    (h : value.dump = some text) :
    ∃ byte, text.head? = some byte ∧ isSpace byte = false ∧ byte ≠ 0x5D := by
  cases hscalar : value.isScalar with
  | true =>
      have hnil : Apart [] := nofun
      obtain ⟨-, byte, hhead, hbyte⟩ := readScalar_dump hscalar hread h hnil
      simp only [isScalarHead, Bool.and_eq_true, Bool.not_eq_true', bne_iff_ne] at hbyte
      exact ⟨byte, hhead, hbyte.1.1.1, hbyte.2⟩
  | false =>
      cases value with
      | array items =>
          unfold dump at h
          obtain ⟨texts, -, rfl⟩ := Option.map_eq_some_iff.mp h
          exact ⟨0x5B, rfl, rfl, by decide⟩
      | object members =>
          unfold dump at h
          obtain ⟨texts, -, rfl⟩ := Option.map_eq_some_iff.mp h
          exact ⟨0x7B, rfl, rfl, by decide⟩
      | _ => cases hscalar

theorem head_append {text rest : Bytes} {byte : UInt8} (h : text.head? = some byte) :
    (text ++ rest).head? = some byte := by
  obtain ⟨more, rfl⟩ := List.head?_eq_some_iff.mp h
  rfl

theorem readValue_scalar {value : Json} (hscalar : value.isScalar = true) (hread : value.Readable)
    {text : Bytes} (h : value.dump = some text) {rest : Bytes} (hrest : Apart rest) (fuel : Nat) :
    readValue (fuel + 1) (text ++ rest) = some (value.normalize, rest) := by
  obtain ⟨hscalar, byte, hhead, hbyte⟩ := readScalar_dump hscalar hread h hrest
  simp only [isScalarHead, Bool.and_eq_true, Bool.not_eq_true', bne_iff_ne] at hbyte
  obtain ⟨⟨⟨hspace, harray⟩, hobject⟩, -⟩ := hbyte
  have happend := @head_append text rest byte hhead
  rw [readValue, readMark_of_head happend hspace harray, readMark_of_head happend hspace hobject]
  simp only [skip_of_head happend hspace, hscalar]

/-! ### Objects -/

theorem assign_append {key : Bytes} {members : List (Bytes × Json)}
    (h : ∀ member ∈ members, member.1 < key) (value : Json) :
    assign key value members = members ++ [(key, value)] := by
  induction members with
  | nil => rfl
  | cons member members ih =>
      obtain ⟨hlt, hrest⟩ := List.forall_mem_cons.mp h
      have hne : member.1 ≠ key := fun heq => List.lt_irrefl key (heq ▸ hlt)
      rw [assign, if_neg hne, if_neg (List.lt_asymm hlt), ih hrest, List.cons_append]

theorem foldl_assign {fields members : List (Bytes × Json)}
    (h : (members ++ fields).Pairwise (·.1 < ·.1)) :
    fields.foldl (fun members field => assign field.1 field.2 members) members
      = members ++ fields := by
  induction fields generalizing members with
  | nil => exact (List.append_nil members).symm
  | cons field fields ih =>
      have hbefore : ∀ member ∈ members, member.1 < field.1 := fun member hmember =>
        (List.pairwise_append.mp h).2.2 member hmember field List.mem_cons_self
      rw [List.append_cons] at h ⊢
      rw [List.foldl_cons, assign_append hbefore, ih h]

/-- Fields in order make the object of these fields. -/
theorem ofFields_of_pairwise {fields : List (Bytes × Json)} (h : fields.Pairwise (·.1 < ·.1)) :
    ofFields fields = .object fields := by
  rw [ofFields, @foldl_assign fields [] h, List.nil_append]

theorem map_fst_normalizeMembers (members : List (Bytes × Json)) :
    (normalizeMembers members).map Prod.fst = members.map Prod.fst := by
  induction members with
  | nil => rfl
  | cons member members ih =>
      obtain ⟨key, value⟩ := member
      rw [normalizeMembers, List.map_cons, List.map_cons, ih]

theorem pairwise_normalizeMembers {members : List (Bytes × Json)}
    (h : members.Pairwise (·.1 < ·.1)) :
    (normalizeMembers members).Pairwise (·.1 < ·.1) := by
  rw [← List.pairwise_map (f := Prod.fst)] at h ⊢
  rwa [map_fst_normalizeMembers]

/-! ### Values -/

theorem dumpItems_cons {item : Json} {rest : List Json} {texts : List Bytes}
    (h : dumpItems (item :: rest) = some texts) :
    ∃ text later, item.dump = some text ∧ dumpItems rest = some later ∧ texts = text :: later := by
  rw [dumpItems] at h
  obtain ⟨text, htext, h⟩ := Option.bind_eq_some_iff.mp h
  obtain ⟨later, hlater, h⟩ := Option.bind_eq_some_iff.mp h
  exact ⟨text, later, htext, hlater, (Option.some.inj h).symm⟩

theorem dumpMembers_cons {key : Bytes} {value : Json} {rest : List (Bytes × Json)}
    {texts : List Bytes} (h : dumpMembers ((key, value) :: rest) = some texts) :
    ∃ name text later, dumpString key = some name ∧ value.dump = some text
      ∧ dumpMembers rest = some later
      ∧ texts = (name ++ ascii ":" ++ text) :: later := by
  rw [dumpMembers] at h
  obtain ⟨name, hname, h⟩ := Option.bind_eq_some_iff.mp h
  obtain ⟨text, htext, h⟩ := Option.bind_eq_some_iff.mp h
  obtain ⟨later, hlater, h⟩ := Option.bind_eq_some_iff.mp h
  exact ⟨name, text, later, hname, htext, hlater, (Option.some.inj h).symm⟩

theorem head_dumpString {bytes text : Bytes} (h : dumpString bytes = some text) :
    text.head? = some 0x22 := by
  obtain ⟨escaped, -, rfl⟩ := Option.map_eq_some_iff.mp h
  rfl

theorem length_pos_of_head {bytes : Bytes} {byte : UInt8} (h : bytes.head? = some byte) :
    0 < bytes.length := by
  obtain ⟨rest, rfl⟩ := List.head?_eq_some_iff.mp h
  exact Nat.succ_pos _

/-- The text is read as the value, with fuel for its length. -/
def Reads (value : Json) (text : Bytes) : Prop :=
  ∀ {fuel : Nat}, text.length ≤ fuel → ∀ {rest : Bytes}, Apart rest →
    readValue fuel (text ++ rest) = some (value.normalize, rest)

theorem readItems_dump {items : List Json} {texts : List Bytes} (hne : items ≠ [])
    (h : dumpItems items = some texts)
    (hitems : ∀ item ∈ items, ∀ text, item.dump = some text → item.Reads text)
    {fuel : Nat} (hfuel : ((ascii ",").intercalate texts).length < fuel) (rest : Bytes) :
    readItems fuel ((ascii ",").intercalate texts ++ 0x5D :: rest)
      = some (normalizeItems items, rest) := by
  induction items generalizing texts fuel with
  | nil => exact absurd rfl hne
  | cons item items ih =>
      obtain ⟨text, later, htext, hlater, rfl⟩ := dumpItems_cons h
      obtain ⟨hitem, hothers⟩ := List.forall_mem_cons.mp hitems
      obtain ⟨fuel, rfl⟩ := Nat.exists_eq_succ_of_ne_zero (Nat.ne_zero_of_lt hfuel)
      cases items with
      | nil =>
          cases hlater
          rw [intercalate_singleton] at hfuel ⊢
          have hapart : Apart (0x5D :: rest) := apart_cons rfl rest
          have hread := hitem text htext (Nat.le_of_lt_succ hfuel) hapart
          have hcomma : readMark 0x2C (0x5D :: rest) = none := readMark_of_head rfl rfl (by decide)
          have hend : readMark 0x5D (0x5D :: rest) = some rest := readMark_cons rfl rest
          rw [readItems, hread]
          simp only [Option.bind_eq_bind, Option.bind_some, hcomma, hend, Option.map_some]
          rfl
      | cons second items =>
          obtain ⟨other, others, -, -, rfl⟩ := dumpItems_cons hlater
          rw [intercalate_cons_cons] at hfuel ⊢
          simp only [List.length_append] at hfuel
          rw [show (ascii ",").length = 1 from rfl] at hfuel
          have htextFuel : text.length ≤ fuel := by omega
          have htailFuel : ((ascii ",").intercalate (other :: others)).length < fuel := by omega
          have htail := ih (List.cons_ne_nil _ _) hlater hothers htailFuel
          generalize (ascii ",").intercalate (other :: others) = tail at htail ⊢
          have hapart : Apart (0x2C :: (tail ++ 0x5D :: rest)) := apart_cons rfl _
          have hread := hitem text htext htextFuel hapart
          have hcomma : readMark 0x2C (0x2C :: (tail ++ 0x5D :: rest))
              = some (tail ++ 0x5D :: rest) :=
            readMark_cons rfl _
          rw [List.append_assoc, List.append_assoc, show ascii "," = [0x2C] from rfl,
            List.singleton_append, readItems, hread]
          simp only [Option.bind_eq_bind, Option.bind_some, hcomma, htail]
          rfl

theorem readMembers_dump {members : List (Bytes × Json)} {texts : List Bytes} (hne : members ≠ [])
    (h : dumpMembers members = some texts)
    (hmembers : ∀ member ∈ members, ∀ text, member.2.dump = some text → member.2.Reads text)
    {fuel : Nat} (hfuel : ((ascii ",").intercalate texts).length < fuel) (rest : Bytes) :
    readMembers fuel ((ascii ",").intercalate texts ++ 0x7D :: rest)
      = some (normalizeMembers members, rest) := by
  induction members generalizing texts fuel with
  | nil => exact absurd rfl hne
  | cons member members ih =>
      obtain ⟨key, value⟩ := member
      obtain ⟨name, text, later, hname, htext, hlater, rfl⟩ := dumpMembers_cons h
      obtain ⟨hvalue, hothers⟩ := List.forall_mem_cons.mp hmembers
      obtain ⟨fuel, rfl⟩ := Nat.exists_eq_succ_of_ne_zero (Nat.ne_zero_of_lt hfuel)
      have hkey (left : Bytes) : readString (skip (name ++ (0x3A :: left)))
          = some (key, 0x3A :: left) := by
        rw [skip_of_head (head_append (head_dumpString hname)) rfl, readString_dumpString hname]
      have hcolon (left : Bytes) : readMark 0x3A (0x3A :: left) = some left :=
        readMark_cons rfl left
      cases members with
      | nil =>
          cases hlater
          rw [intercalate_singleton, List.length_append] at hfuel
          rw [intercalate_singleton]
          have hapart : Apart (0x7D :: rest) := apart_cons rfl rest
          have htextFuel : text.length ≤ fuel := by omega
          have hread := hvalue text htext htextFuel hapart
          have hcomma : readMark 0x2C (0x7D :: rest) = none := readMark_of_head rfl rfl (by decide)
          have hend : readMark 0x7D (0x7D :: rest) = some rest := readMark_cons rfl rest
          rw [List.append_assoc, List.append_assoc, show ascii ":" = [0x3A] from rfl,
            List.singleton_append, readMembers, hkey]
          simp only [Option.bind_eq_bind, Option.bind_some, hcolon, hread, hcomma, hend,
            Option.map_some]
          rfl
      | cons second members =>
          obtain ⟨secondName, secondText, others, -, -, -, rfl⟩ := dumpMembers_cons hlater
          rw [intercalate_cons_cons] at hfuel ⊢
          simp only [List.length_append] at hfuel
          rw [show (ascii ",").length = 1 from rfl] at hfuel
          have htextFuel : text.length ≤ fuel := by omega
          have htailFuel :
            ((ascii ",").intercalate ((secondName ++ ascii ":" ++ secondText) :: others)).length
              < fuel := by omega
          have htail := ih (List.cons_ne_nil _ _) hlater hothers htailFuel
          generalize (ascii ",").intercalate ((secondName ++ ascii ":" ++ secondText) :: others)
            = tail at htail ⊢
          have hapart : Apart (0x2C :: (tail ++ 0x7D :: rest)) := apart_cons rfl _
          have hread := hvalue text htext htextFuel hapart
          have hcomma : readMark 0x2C (0x2C :: (tail ++ 0x7D :: rest))
              = some (tail ++ 0x7D :: rest) :=
            readMark_cons rfl _
          rw [List.append_assoc, List.append_assoc, List.append_assoc, List.append_assoc,
            show ascii ":" = [0x3A] from rfl, show ascii "," = [0x2C] from rfl,
            List.singleton_append, List.singleton_append, readMembers, hkey]
          simp only [Option.bind_eq_bind, Option.bind_some, hcolon, hread, hcomma, htail]
          rfl

theorem readable_of_mem {items : List Json} (h : ReadableItems items) :
    ∀ item ∈ items, item.Readable := by
  induction items with
  | nil => exact nofun
  | cons item items ih =>
      rw [ReadableItems] at h
      exact List.forall_mem_cons.mpr ⟨h.1, ih h.2⟩

theorem readable_of_mem_members {members : List (Bytes × Json)} (h : ReadableMembers members) :
    ∀ member ∈ members, member.2.Readable := by
  induction members with
  | nil => exact nofun
  | cons member members ih =>
      rw [ReadableMembers] at h
      exact List.forall_mem_cons.mpr ⟨h.1, ih h.2⟩

theorem reads_scalar {value : Json} (hscalar : value.isScalar = true) (hread : value.Readable)
    {text : Bytes} (h : value.dump = some text) : value.Reads text := by
  intro fuel hfuel rest hrest
  obtain ⟨byte, hhead, -⟩ := head_dump hread h
  have hpos := length_pos_of_head hhead
  obtain ⟨fuel, rfl⟩ : ∃ less, fuel = less + 1 := ⟨fuel - 1, by omega⟩
  exact readValue_scalar hscalar hread h hrest fuel

theorem reads_array {items : List Json} (hread : (Json.array items).Readable)
    (hitems : ∀ item ∈ items, ∀ text, item.dump = some text → item.Reads text) {text : Bytes}
    (h : (Json.array items).dump = some text) : (Json.array items).Reads text := by
  intro fuel hfuel rest _
  unfold dump at h
  obtain ⟨texts, htexts, rfl⟩ := Option.map_eq_some_iff.mp h
  rw [List.length_append, List.length_append, show (ascii "[").length = 1 from rfl,
    show (ascii "]").length = 1 from rfl] at hfuel
  obtain ⟨fuel, rfl⟩ : ∃ less, fuel = less + 1 := ⟨fuel - 1, by omega⟩
  have hmark (left : Bytes) : readMark 0x5B (0x5B :: left) = some left := readMark_cons rfl left
  rw [List.append_assoc, List.append_assoc, show ascii "[" = [0x5B] from rfl,
    show ascii "]" = [0x5D] from rfl, List.singleton_append, List.singleton_append, readValue,
    hmark, normalize]
  cases items with
  | nil =>
      cases htexts
      have hend : readMark 0x5D ((ascii ",").intercalate [] ++ 0x5D :: rest) = some rest :=
        readMark_cons rfl rest
      simp only [hend]
      rfl
  | cons item items =>
      have hlist := readItems_dump (List.cons_ne_nil item items) htexts hitems
        (show ((ascii ",").intercalate texts).length < fuel by omega) rest
      have hend : readMark 0x5D ((ascii ",").intercalate texts ++ 0x5D :: rest) = none := by
        obtain ⟨first, later, hfirst, -, rfl⟩ := dumpItems_cons htexts
        obtain ⟨byte, hhead, hspace, hne⟩ :=
          head_dump (readable_of_mem hread item List.mem_cons_self) hfirst
        refine readMark_of_head (head_append ?_) hspace hne
        cases later with
        | nil => rw [intercalate_singleton, hhead]
        | cons second later => exact head_append hhead
      simp only [hend, hlist, Option.map_some]

theorem reads_object {members : List (Bytes × Json)} (hread : (Json.object members).Readable)
    (hmembers : ∀ member ∈ members, ∀ text, member.2.dump = some text → member.2.Reads text)
    {text : Bytes} (h : (Json.object members).dump = some text) :
    (Json.object members).Reads text := by
  intro fuel hfuel rest _
  unfold dump at h
  obtain ⟨texts, htexts, rfl⟩ := Option.map_eq_some_iff.mp h
  rw [List.length_append, List.length_append, show (ascii "\x7b").length = 1 from rfl,
    show (ascii "\x7d").length = 1 from rfl] at hfuel
  obtain ⟨fuel, rfl⟩ : ∃ less, fuel = less + 1 := ⟨fuel - 1, by omega⟩
  have harray (left : Bytes) : readMark 0x5B (0x7B :: left) = none :=
    readMark_of_head rfl rfl (by decide)
  have hmark (left : Bytes) : readMark 0x7B (0x7B :: left) = some left := readMark_cons rfl left
  rw [List.append_assoc, List.append_assoc, show ascii "\x7b" = [0x7B] from rfl,
    show ascii "\x7d" = [0x7D] from rfl, List.singleton_append, List.singleton_append, readValue,
    harray, hmark, normalize]
  cases members with
  | nil =>
      cases htexts
      have hend : readMark 0x7D ((ascii ",").intercalate [] ++ 0x7D :: rest) = some rest :=
        readMark_cons rfl rest
      simp only [hend]
      rfl
  | cons member members =>
      have hlist := readMembers_dump (List.cons_ne_nil member members) htexts hmembers
        (show ((ascii ",").intercalate texts).length < fuel by omega) rest
      have hend : readMark 0x7D ((ascii ",").intercalate texts ++ 0x7D :: rest) = none := by
        obtain ⟨name, first, later, hname, -, -, rfl⟩ := dumpMembers_cons htexts
        have hhead := head_dumpString hname
        refine @readMark_of_head 0x7D 0x22 _ (head_append ?_) rfl (by decide)
        cases later with
        | nil =>
            rw [intercalate_singleton, List.append_assoc]
            exact head_append hhead
        | cons second later =>
            rw [intercalate_cons_cons, List.append_assoc, List.append_assoc]
            exact head_append hhead
      rw [Readable] at hread
      simp only [hend, hlist, Option.map_some,
        ofFields_of_pairwise (pairwise_normalizeMembers hread.1)]

/-- **What is written is read**, whatever is behind it. -/
theorem reads_of_dump (value : Json) (hread : value.Readable) {text : Bytes}
    (h : value.dump = some text) :
    value.Reads text :=
  match value with
  | .array items =>
      reads_array hread
        (fun item hmem _ hitem => reads_of_dump item (readable_of_mem hread item hmem) hitem) h
  | .object members =>
      reads_object hread (fun member hmem _ hmember =>
        reads_of_dump member.2 (readable_of_mem_members hread.2 member hmem) hmember) h
  | .null => reads_scalar rfl hread h
  | .boolean _ => reads_scalar rfl hread h
  | .unsigned _ => reads_scalar rfl hread h
  | .integer _ => reads_scalar rfl hread h
  | .float _ => reads_scalar rfl hread h
  | .string _ => reads_scalar rfl hread h
termination_by sizeOf value
decreasing_by
  · have hsize := List.sizeOf_lt_of_mem hmem
    simp only [array.sizeOf_spec]
    omega
  · have hsize := List.sizeOf_lt_of_mem hmem
    have hvalue : sizeOf member.2 < sizeOf member := by
      obtain ⟨key, value⟩ := member
      simp only [Prod.mk.sizeOf_spec]
      omega
    simp only [object.sizeOf_spec]
    omega

theorem parse_dump {value : Json} (hread : value.Readable) {text : Bytes}
    (h : value.dump = some text) :
    parse text = some value.normalize := by
  have hvalue := reads_of_dump value hread h (Nat.le_succ text.length) (show Apart [] from nofun)
  rw [List.append_nil] at hvalue
  rw [parse, hvalue]
  rfl

/-! ### Members -/

/-- The member with this key. -/
def member (key : Bytes) : Json → Option Json
  | .object members => (members.find? fun member => member.1 = key).map Prod.snd
  | _ => none

theorem member_cons (key : Bytes) (first : Bytes × Json) (members : List (Bytes × Json)) :
    member key (.object (first :: members))
      = if first.1 = key then some first.2 else member key (.object members) := by
  rw [member, member, List.find?_cons]
  by_cases heq : first.1 = key
  · rw [if_pos heq, decide_eq_true heq]
    rfl
  · rw [if_neg heq, decide_eq_false heq]

theorem mem_of_mem_assign {key : Bytes} {value : Json} {members : List (Bytes × Json)}
    {member : Bytes × Json} (h : member ∈ assign key value members) :
    member = (key, value) ∨ member ∈ members := by
  induction members with
  | nil => exact Or.inl (List.mem_singleton.mp h)
  | cons first members ih =>
      rw [assign] at h
      split at h
      · rcases List.mem_cons.mp h with rfl | h
        · exact Or.inl rfl
        · exact Or.inr (List.mem_cons_of_mem _ h)
      · split at h
        · exact List.mem_cons.mp h
        · rcases List.mem_cons.mp h with rfl | h
          · exact Or.inr List.mem_cons_self
          · exact (ih h).imp_right (List.mem_cons_of_mem _)

theorem pairwise_assign {members : List (Bytes × Json)} (h : members.Pairwise (·.1 < ·.1))
    (key : Bytes) (value : Json) :
    (assign key value members).Pairwise (·.1 < ·.1) := by
  induction members with
  | nil => exact List.pairwise_singleton _ _
  | cons first members ih =>
      obtain ⟨hfirst, hmembers⟩ := List.pairwise_cons.mp h
      rw [assign]
      split
      · next heq =>
          exact List.pairwise_cons.mpr ⟨fun member hmember => heq ▸ hfirst member hmember, hmembers⟩
      · next hne =>
          split
          · next hlt =>
              refine List.pairwise_cons.mpr ⟨fun member hmember => ?_, h⟩
              rcases List.mem_cons.mp hmember with rfl | hmember
              · exact hlt
              · exact List.lt_trans hlt (hfirst member hmember)
          · next hge =>
              have hlt : first.1 < key := Decidable.byContradiction fun hnot =>
                hne (List.le_antisymm hge hnot)
              refine List.pairwise_cons.mpr ⟨fun member hmember => ?_, ih hmembers⟩
              rcases mem_of_mem_assign hmember with rfl | hmember
              · exact hlt
              · exact hfirst member hmember

/-- The members of an object that was put together are in order. -/
theorem pairwise_foldl_assign {members : List (Bytes × Json)} (h : members.Pairwise (·.1 < ·.1))
    (fields : List (Bytes × Json)) :
    (fields.foldl (fun members field => assign field.1 field.2 members) members).Pairwise
      (·.1 < ·.1) := by
  induction fields generalizing members with
  | nil => exact h
  | cons field fields ih => exact ih (pairwise_assign h field.1 field.2)

theorem readableMembers_iff {members : List (Bytes × Json)} :
    ReadableMembers members ↔ ∀ member ∈ members, member.2.Readable := by
  refine ⟨readable_of_mem_members, fun h => ?_⟩
  induction members with
  | nil => trivial
  | cons first members ih =>
      obtain ⟨hfirst, hmembers⟩ := List.forall_mem_cons.mp h
      exact ⟨hfirst, ih hmembers⟩

theorem readable_ofFields {fields : List (Bytes × Json)} (hdistinct : (fields.map Prod.fst).Nodup)
    (h : ∀ field ∈ fields, field.2.Readable) : (ofFields fields).Readable := by
  refine ⟨pairwise_foldl_assign List.Pairwise.nil fields,
    readableMembers_iff.mpr fun member hmember => ?_⟩
  rw [mem_foldl_assign hdistinct fun field _ member (hmember : member ∈ []) =>
    absurd hmember List.not_mem_nil]
    at hmember
  exact h member (hmember.resolve_left List.not_mem_nil)

theorem member_eq {key : Bytes} {value : Json} {members : List (Bytes × Json)}
    (h : members.Pairwise (·.1 < ·.1)) (hmem : (key, value) ∈ members) :
    member key (.object members) = some value := by
  induction members with
  | nil => cases hmem
  | cons first members ih =>
      obtain ⟨hfirst, hmembers⟩ := List.pairwise_cons.mp h
      rcases List.mem_cons.mp hmem with rfl | hmem
      · rw [member_cons, if_pos rfl]
      · have hlt : first.1 < key := hfirst (key, value) hmem
        have hne : first.1 ≠ key := fun heq => List.lt_irrefl key (heq ▸ hlt)
        rw [member_cons, if_neg hne, ih hmembers hmem]

theorem member_ofFields {fields : List (Bytes × Json)} (hdistinct : (fields.map Prod.fst).Nodup)
    {key : Bytes} {value : Json} (h : (key, value) ∈ fields) :
    member key (ofFields fields) = some value := by
  refine member_eq (pairwise_foldl_assign List.Pairwise.nil fields) ?_
  rw [mem_foldl_assign hdistinct fun field _ member (hmember : member ∈ []) =>
    absurd hmember List.not_mem_nil]
  exact Or.inr h

theorem member_ofFields_eq_none {fields : List (Bytes × Json)}
    (hdistinct : (fields.map Prod.fst).Nodup) {key : Bytes} (h : key ∉ fields.map Prod.fst) :
    member key (ofFields fields) = none := by
  rw [ofFields, member, List.find?_eq_none.mpr]
  · rfl
  · intro member hmember heq
    rw [mem_foldl_assign hdistinct fun field _ member (hmember : member ∈ []) =>
      absurd hmember List.not_mem_nil]
      at hmember
    exact h (decide_eq_true_eq.mp heq ▸ List.mem_map_of_mem (hmember.resolve_left List.not_mem_nil))

theorem member_normalize (key : Bytes) (value : Json) :
    member key value.normalize = (member key value).map normalize := by
  cases value with
  | object members =>
      rw [normalize]
      induction members with
      | nil => rfl
      | cons first members ih =>
          obtain ⟨name, value⟩ := first
          rw [normalizeMembers, member_cons, member_cons, ih]
          split <;> rfl
  | integer value =>
      rw [normalize]
      split <;> rfl
  | _ => rfl

end TapSdk.Library.Json
