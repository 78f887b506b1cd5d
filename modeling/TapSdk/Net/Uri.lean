import TapSdk.Library.Decimal

/-!
# The addresses of requests

`uri_t` of `cinatra/uri.hpp` and the `WebPath` of `base/types.h`. An address is read as a C string.
-/

namespace TapSdk.Net

open Library

/-- `operator/` of `WebPath`. -/
def webPath (left right : Bytes) : Bytes := left ++ ascii "/" ++ right

/-- `uri_t`. -/
structure Uri where
  schema : Bytes
  uinfo : Bytes
  host : Bytes
  port : Bytes
  path : Bytes
  query : Bytes
  fragment : Bytes
  isSsl : Bool
  deriving DecidableEq

namespace Uri

def isAlpha (c : UInt8) : Bool := (0x41 ≤ c && c ≤ 0x5A) || (0x61 ≤ c && c ≤ 0x7A)

def isUnreserved (c : UInt8) : Bool := isAlpha c || isDigit c || (ascii "-._~").contains c

def isSubDelim (c : UInt8) : Bool := (ascii "!$&'()*+,;=").contains c

def isUserInfoCharacter (c : UInt8) : Bool :=
  isUnreserved c || isSubDelim c || (ascii "%:").contains c

def isPathCharacter (c : UInt8) : Bool :=
  isUnreserved c || isSubDelim c || (ascii "%/:@").contains c

def isQueryCharacter (c : UInt8) : Bool := isPathCharacter c || c = 0x3F

def isAuthorityCharacter (c : UInt8) : Bool :=
  isUnreserved c || isSubDelim c || (ascii "%@:[]").contains c

def isSchemeCharacter (c : UInt8) : Bool := isAlpha c || isDigit c || (ascii "+-.").contains c

/-- A colon is before the first slash. -/
def hasScheme (text : Bytes) : Bool := (text.takeWhile (· ≠ 0x2F)).contains 0x3A

/-- The schema, and what is after its colon. -/
def parseSchema (text : Bytes) : Option (Bytes × Bytes) :=
  let schema := text.takeWhile (· ≠ 0x3A)
  if hasScheme text ∧ schema.head?.any isAlpha ∧ schema.all isSchemeCharacter then
    some (schema, (text.dropWhile (· ≠ 0x3A)).drop 1)
  else none

/-- A part of the address: up to one of its delimiters, all of it characters it may have. -/
def parsePart (delimiters : Bytes) (legal : UInt8 → Bool) (text : Bytes) : Option (Bytes × Bytes) :=
  let part := text.takeWhile fun c => !delimiters.contains c
  if part.all legal then some (part, text.dropWhile fun c => !delimiters.contains c) else none

/-- The port behind the last colon of the authority, if there are only digits after it. -/
def splitPort (authority : Bytes) : Bytes × Bytes :=
  let port := (authority.reverse.takeWhile isDigit).reverse
  let rest := (authority.reverse.dropWhile isDigit).reverse
  if rest.getLast? = some 0x3A then (rest.dropLast, port) else (authority, [])

/-- The user information and the host. -/
def splitUser (text : Bytes) : Bytes × Bytes :=
  match text.dropWhile isUserInfoCharacter with
  | 0x40 :: host => (text.takeWhile isUserInfoCharacter, host)
  | _ => ([], text)

/-- The part that this character begins, if the text begins with it. -/
def parseMarked (mark : UInt8) (delimiters : Bytes) (legal : UInt8 → Bool) (text : Bytes) :
    Option (Bytes × Bytes) :=
  if text.head? = some mark then parsePart delimiters legal (text.drop 1) else some ([], text)

/-- `parse_from`. -/
def parseFrom (encoded : Bytes) : Option Uri := do
  let text := encoded.takeWhile (· ≠ 0)
  let (schema, text) ← parseSchema text
  let (authority, text) ←
    if (ascii "//").isPrefixOf text then parsePart (ascii "/?#") isAuthorityCharacter (text.drop 2)
    else some ([], text)
  let (hostText, port) := splitPort authority
  let (uinfo, host) := splitUser hostText
  let (path, text) ←
    if text.head?.any fun c => c = 0x2F || isPathCharacter c then
      parsePart (ascii "?#") isPathCharacter text
    else some ([], text)
  let (query, text) ← parseMarked 0x3F (ascii "#") isQueryCharacter text
  let (fragment, _) ← parseMarked 0x23 [] isQueryCharacter text
  some ⟨schema, uinfo, host, port, path, query, fragment,
    schema = ascii "https" || schema = ascii "wss"⟩

def getPath (uri : Uri) : Bytes := if uri.path = [] then ascii "/" else uri.path

end Uri

end TapSdk.Net
