/-
  Phrasing/Storage/Address.lean
  =============================
  **Addresses.**

  An address is a scheme, a colon and a body.  The scheme is an ASCII letter
  followed by letters, digits and a few marks.  A body is well formed if it holds
  plain characters, bytes written as two digits after a percent sign, and at most
  one hash mark; a question mark or the hash mark ends the part that tells a path.
-/
import Phrasing.Storage.Utf8
import Phrasing.Text.Digit

namespace Phrasing

/-- An address: a scheme and what follows its colon. -/
structure Address where
  scheme : Text
  body : Text
deriving DecidableEq

namespace Address

/-! ### Reading -/

/-- The ASCII letters. -/
def isLetter (c : CodePoint) : Bool := c.within [(0x41, 0x5A), (0x61, 0x7A)]

def isOneOf (marks : String) (c : CodePoint) : Bool := (marks : Text).contains c

/-- Whether a text can name a scheme. -/
def isScheme : Text → Bool
  | [] => false
  | c :: rest => isLetter c && rest.all fun c => isLetter c || c.asciiDigit?.isSome || isOneOf "+-." c

/-- The address that a text spells: its scheme ends at the first colon. -/
def ofText? (t : Text) : Option Address :=
  match t.dropWhile (· ≠ (':' : CodePoint)) with
  | [] => none
  | _ :: body =>
    let scheme := t.takeWhile (· ≠ (':' : CodePoint))
    if isScheme scheme then some ⟨scheme, body⟩ else none

/-- Whether the scheme is of a length that schemes have: a single letter may be a name instead. -/
def isUsual (a : Address) : Bool := 2 ≤ a.scheme.length && a.scheme.length ≤ 36

/-! ### Bodies -/

/-- A code point that an address may hold as it is. -/
def isPlain (c : CodePoint) : Bool :=
  isLetter c || c.asciiDigit?.isSome || isOneOf "-._~!$&'()*+,;=:@/?" c

/-- Whether a text is a well-formed body; `marked` tells whether the hash mark was met. -/
def isBody (marked : Bool) : Text → Bool
  | [] => true
  | c :: rest =>
    if c = '%' then
      match rest with
      | a :: b :: rest => a.hexValue?.isSome && b.hexValue?.isSome && isBody marked rest
      | _ => false
    else if c = '#' then !marked && isBody true rest
    else isPlain c && isBody marked rest

def isWellFormed (a : Address) : Bool := isBody false a.body

/-! ### Paths -/

/-- The byte that a percent sign and two digits spell. -/
def escapedByte? (c a b : CodePoint) : Option UInt8 :=
  if c = '%' then do
    let high ← a.hexValue?
    let low ← b.hexValue?
    return (high * 16 + low).toUInt8
  else none

/-- The bytes of a text in which some are spelled by their digits. -/
def unescape : Text → Bytes
  | [] => []
  | c :: rest =>
    match rest with
    | a :: b :: after =>
      match escapedByte? c a b with
      | some byte => byte :: unescape after
      | none => Utf8.encodeCodePoint c ++ unescape (a :: b :: after)
    | rest => Utf8.encodeCodePoint c ++ unescape rest

/-- The path in the body of an address, unless its bytes are no text. -/
def path? (a : Address) : Option Text :=
  Utf8.decode? (unescape (a.body.takeWhile fun c => !isOneOf "?#" c))

end Address

end Phrasing
