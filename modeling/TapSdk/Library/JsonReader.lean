import TapSdk.Library.Decimal

/-!
# Reading JSON

A reader of RFC 8259 for the values of `Json`: whitespace, escapes with surrogates, and the grammar
of numbers. A number with neither fraction nor exponent is an integer where it fits into 64 bits;
any other is kept as it is written. Of two members with one key the later stands. Every reader
returns what is left.
-/

namespace TapSdk.Library.Json

def isSpace (byte : UInt8) : Bool := byte = 0x20 || byte = 0x09 || byte = 0x0A || byte = 0x0D

def skip (bytes : Bytes) : Bytes := bytes.dropWhile isSpace

/-! ### Strings -/

def hexValue (byte : UInt8) : Option Nat :=
  if 0x30 ≤ byte ∧ byte ≤ 0x39 then some (byte.toNat - 48)
  else if 0x61 ≤ byte ∧ byte ≤ 0x66 then some (byte.toNat - 87)
  else if 0x41 ≤ byte ∧ byte ≤ 0x46 then some (byte.toNat - 55)
  else none

/-- Four hexadecimal digits. -/
def readUnit : Bytes → Option (Nat × Bytes)
  | first :: second :: third :: fourth :: rest => do
      let first ← hexValue first
      let second ← hexValue second
      let third ← hexValue third
      let fourth ← hexValue fourth
      some (first * 4096 + second * 256 + third * 16 + fourth, rest)
  | _ => none

def utf8 (point : Nat) : Bytes :=
  if point < 0x80 then [UInt8.ofNat point]
  else if point < 0x800 then [UInt8.ofNat (0xC0 + point / 64), UInt8.ofNat (0x80 + point % 64)]
  else if point < 0x10000 then
    [UInt8.ofNat (0xE0 + point / 4096), UInt8.ofNat (0x80 + point / 64 % 64),
      UInt8.ofNat (0x80 + point % 64)]
  else
    [UInt8.ofNat (0xF0 + point / 262144), UInt8.ofNat (0x80 + point / 4096 % 64),
      UInt8.ofNat (0x80 + point / 64 % 64), UInt8.ofNat (0x80 + point % 64)]

/-- The byte that a backslash and this letter stand for. -/
def unescape (letter : UInt8) : Option UInt8 :=
  if letter = 0x22 ∨ letter = 0x5C ∨ letter = 0x2F then some letter
  else if letter = 0x62 then some 0x08
  else if letter = 0x66 then some 0x0C
  else if letter = 0x6E then some 0x0A
  else if letter = 0x72 then some 0x0D
  else if letter = 0x74 then some 0x09
  else none

/-- What is behind a backslash. -/
def readEscape : Bytes → Option (Bytes × Bytes)
  | [] => none
  | letter :: rest =>
      if letter = 0x75 then do
        let (unit, rest) ← readUnit rest
        if 0xD800 ≤ unit ∧ unit < 0xDC00 then
          if (ascii "\\u").isPrefixOf rest then do
            let (low, rest) ← readUnit (rest.drop 2)
            if 0xDC00 ≤ low ∧ low < 0xE000 then
              some (utf8 (0x10000 + (unit - 0xD800) * 0x400 + (low - 0xDC00)), rest)
            else none
          else none
        else if 0xDC00 ≤ unit ∧ unit < 0xE000 then none
        else some (utf8 unit, rest)
      else (unescape letter).map fun byte => ([byte], rest)

/-- The characters up to the closing quote. -/
def readChars : Nat → Bytes → Option (Bytes × Bytes)
  | 0, _ => none
  | _ + 1, [] => none
  | fuel + 1, byte :: rest =>
      if byte = 0x22 then some ([], rest)
      else if byte = 0x5C then do
        let (text, rest) ← readEscape rest
        let (chars, left) ← readChars fuel rest
        some (text ++ chars, left)
      else if byte < 0x20 then none
      else (readChars fuel rest).map fun (chars, left) => (byte :: chars, left)

def readString : Bytes → Option (Bytes × Bytes)
  | [] => none
  | quote :: rest =>
      if quote = 0x22 then
        (readChars rest.length rest).filter fun (chars, _) => isUtf8 chars
      else none

/-! ### Numbers -/

def isNumberByte (byte : UInt8) : Bool := isDigit byte || (ascii "+-.eE").contains byte

/-- No digits, or those of a number without a leading zero. -/
def isNatural (digits : Bytes) : Bool :=
  digits != [] && (digits.head? != some 0x30 || digits.length == 1)

def isExponent : Bytes → Bool
  | [] => true
  | mark :: rest =>
      let digits :=
        if rest.head?.any fun sign => sign = 0x2B || sign = 0x2D then rest.drop 1 else rest
      (mark = 0x65 || mark = 0x45) && digits != [] && digits.all isDigit

/-- A fraction and an exponent, each of which may be missing. -/
def isFraction : Bytes → Bool
  | 0x2E :: rest => rest.head?.any isDigit && isExponent (rest.dropWhile isDigit)
  | text => isExponent text

def readNumber (text : Bytes) : Option Json :=
  let negative := text.head? = some 0x2D
  let magnitude := if negative then text.drop 1 else text
  let whole := magnitude.takeWhile isDigit
  let fraction := magnitude.dropWhile isDigit
  if isNatural whole && isFraction fraction then
    if fraction = [] ∧ negative ∧ Decimal.value whole ≤ 0x8000000000000000 then
      some (.integer (-(Decimal.value whole : Int)))
    else if fraction = [] ∧ ¬negative ∧ Decimal.value whole < 0x10000000000000000 then
      some (.unsigned (UInt64.ofNat (Decimal.value whole)))
    else some (.float text)
  else none

/-! ### Values -/

/-- The value of this word, if the text begins with it. -/
def readWord (word : Bytes) (value : Json) (bytes : Bytes) : Option (Json × Bytes) :=
  if word.isPrefixOf bytes then some (value, bytes.drop word.length) else none

def readScalar (bytes : Bytes) : Option (Json × Bytes) :=
  if bytes.head? = some 0x22 then (readString bytes).map fun (chars, rest) => (.string chars, rest)
  else if bytes.head? = some 0x6E then readWord (ascii "null") .null bytes
  else if bytes.head? = some 0x74 then readWord (ascii "true") (.boolean true) bytes
  else if bytes.head? = some 0x66 then readWord (ascii "false") (.boolean false) bytes
  else (readNumber (bytes.takeWhile isNumberByte)).map fun value =>
    (value, bytes.dropWhile isNumberByte)

/-- What is left behind this mark and the whitespace before it. -/
def readMark (mark : UInt8) (bytes : Bytes) : Option Bytes :=
  if (skip bytes).head? = some mark then some ((skip bytes).drop 1) else none

mutual

/-- `fuel` bounds how deep the calls go. -/
def readValue : Nat → Bytes → Option (Json × Bytes)
  | 0, _ => none
  | fuel + 1, bytes =>
      match readMark 0x5B bytes, readMark 0x7B bytes with
      | some rest, _ =>
          match readMark 0x5D rest with
          | some left => some (.array [], left)
          | none => (readItems fuel rest).map fun (items, left) => (.array items, left)
      | none, some rest =>
          match readMark 0x7D rest with
          | some left => some (.object [], left)
          | none => (readMembers fuel rest).map fun (members, left) => (ofFields members, left)
      | none, none => readScalar (skip bytes)

def readItems : Nat → Bytes → Option (List Json × Bytes)
  | 0, _ => none
  | fuel + 1, bytes => do
      let (item, rest) ← readValue fuel bytes
      match readMark 0x2C rest with
      | some rest => do
          let (items, left) ← readItems fuel rest
          some (item :: items, left)
      | none => (readMark 0x5D rest).map fun left => ([item], left)

def readMembers : Nat → Bytes → Option (List (Bytes × Json) × Bytes)
  | 0, _ => none
  | fuel + 1, bytes => do
      let (key, rest) ← readString (skip bytes)
      let rest ← readMark 0x3A rest
      let (value, rest) ← readValue fuel rest
      match readMark 0x2C rest with
      | some rest => do
          let (members, left) ← readMembers fuel rest
          some ((key, value) :: members, left)
      | none => (readMark 0x7D rest).map fun left => ([(key, value)], left)

end

/-- A value with nothing but whitespace behind it. -/
def parse (text : Bytes) : Option Json :=
  match readValue (text.length + 1) text with
  | some (value, rest) => if skip rest = [] then some value else none
  | none => none

end TapSdk.Library.Json
