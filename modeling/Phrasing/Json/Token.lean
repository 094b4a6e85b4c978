/-
  Phrasing/Json/Token.lean
  ========================
  **The tokens of a JSON text.**

  A text is cut into tokens from left to right, each with the offset at which it
  starts.  A piece that is no token ends the list as a token of its own, with
  what is wrong about it: whether that matters is known only to the reader, which
  may find fault with the place of the piece before it looks inside.
-/
import Phrasing.Json.Basic

namespace Phrasing.Json

/-- What can be wrong with a JSON text. -/
inductive Defect where
  | expectingValue
  | expectingKey
  | expectingColon
  | expectingComma
  | unterminatedString
  | controlCharacter
  | badEscape
  | badUnicodeEscape
  | trailingData
  | byteOrderMark
deriving DecidableEq, Repr

/-- A defect at an offset. -/
structure Fault where
  what : Defect
  offset : Nat
deriving DecidableEq, Repr

/-- The kinds of token. -/
inductive Lexeme where
  | openArray
  | closeArray
  | openObject
  | closeObject
  | comma
  | colon
  /-- A string. -/
  | text (value : Text)
  /-- A number or one of the named values. -/
  | scalar (value : Json)
  /-- A string that cannot be read. -/
  | brokenText (fault : Fault)
  /-- An integer with so many digits, more than may be read. -/
  | longInteger (digits : Nat)
  /-- Something that begins no token. -/
  | junk
  /-- The end of the text. -/
  | finish

/-- A token and the offset at which it starts. -/
structure Token where
  offset : Nat
  lexeme : Lexeme

/-- Whether nothing after the lexeme is ever looked at. -/
def Lexeme.isLast : Lexeme → Bool
  | .brokenText _ | .longInteger _ | .junk | .finish => true
  | _ => false

/-- The blanks that may stand between tokens. -/
def isSpacing (c : CodePoint) : Bool := c = ' ' || c = '\t' || c = '\n' || c = '\r'

/-! ### Strings -/

/-- One unit of a string: a code point, or the number of an escape. -/
inductive Glyph where
  | plain (c : CodePoint)
  | escaped (n : Nat)

def Glyph.codePoint : Glyph → CodePoint
  | .plain c => c
  | .escaped n => (CodePoint.ofNat? n).getD .replacement

/-- Adds an escape to the units read so far, last first.  The two escapes of a surrogate pair make
one code point. -/
def pushEscape : List Glyph → Nat → List Glyph
  | .escaped high :: before, low =>
    if 0xD800 ≤ high ∧ high ≤ 0xDBFF ∧ 0xDC00 ≤ low ∧ low ≤ 0xDFFF then
      .plain (CodePoint.ofSurrogates high low) :: before
    else .escaped low :: .escaped high :: before
  | before, n => .escaped n :: before

/-- The number of four hexadecimal digits. -/
def hexNumber? (a b c d : CodePoint) : Option Nat := do
  return (((← a.hexValue?) * 16 + (← b.hexValue?)) * 16 + (← c.hexValue?)) * 16 + (← d.hexValue?)

def letterEscape? (c : CodePoint) : Option CodePoint :=
  if c = '"' ∨ c = '\\' ∨ c = '/' then some c
  else if c = 'n' then some '\n'
  else if c = 'r' then some '\r'
  else if c = 't' then some '\t'
  else if c = 'f' then some '\u000C'
  else if c = 'b' then some '\u0008'
  else none

/-- Reads a string up to its closing quote.  `start` is the offset of the opening quote, `offset`
that of the rest, and `units` holds what was read, last first.  The result is the string and the
offset after it.  An escape by number needs four digits and something after them. -/
def scanString (start : Nat) : Nat → List Glyph → Text → Except Fault (Text × Nat)
  | _, _, [] => .error ⟨.unterminatedString, start⟩
  | offset, units, c :: rest =>
    if c = '"' then .ok (units.reverse.map Glyph.codePoint, offset + 1)
    else if c = '\\' then
      match rest with
      | [] => .error ⟨.unterminatedString, start⟩
      | letter :: rest =>
        if letter = 'u' then
          match rest with
          | h₁ :: h₂ :: h₃ :: h₄ :: next :: rest =>
            match hexNumber? h₁ h₂ h₃ h₄ with
            | some n => scanString start (offset + 6) (pushEscape units n) (next :: rest)
            | none => .error ⟨.badUnicodeEscape, offset + 1⟩
          | _ => .error ⟨.badUnicodeEscape, offset + 1⟩
        else
          match letterEscape? letter with
          | some c => scanString start (offset + 2) (.plain c :: units) rest
          | none => .error ⟨.badEscape, offset⟩
    else if c.val < 0x20 then .error ⟨.controlCharacter, offset⟩
    else scanString start (offset + 1) (.plain c :: units) rest

/-! ### Numbers -/

/-- A number as it is written. -/
structure Numeral where
  negative : Bool
  whole : List Nat
  fraction : List Nat
  /-- The exponent's sign and digits. -/
  power : Option (Bool × List Nat)

def leadingDigits (t : Text) : List Nat :=
  (t.takeWhile fun c => c.asciiDigit?.isSome).filterMap CodePoint.asciiDigit?

/-- The digits before the point: a lone zero or a run that starts with another digit. -/
def wholeDigits (t : Text) : List Nat :=
  match leadingDigits t with
  | 0 :: _ => [0]
  | digits => digits

/-- The digits after the point, and how many code points they take with it. -/
def fractionDigits : Text → List Nat × Nat
  | [] => ([], 0)
  | c :: rest =>
    if c = '.' then
      match leadingDigits rest with
      | [] => ([], 0)
      | digits => (digits, digits.length + 1)
    else ([], 0)

/-- The exponent, and how many code points it takes. -/
def exponentDigits : Text → Option (Bool × List Nat) × Nat
  | [] => (none, 0)
  | c :: rest =>
    if c = 'e' ∨ c = 'E' then
      let signed := match rest with
        | [] => false
        | s :: _ => s = '-' || s = '+'
      match leadingDigits (if signed then rest.drop 1 else rest) with
      | [] => (none, 0)
      | digits =>
        (some (rest.head? == some ('-' : CodePoint), digits),
          digits.length + if signed then 2 else 1)
    else (none, 0)

/-- The number at the head of a text, as much of it as can be read, and how many code points it
takes. -/
def scanNumeral? (t : Text) : Option (Numeral × Nat) :=
  let negative := t.head? == some ('-' : CodePoint)
  let body := if negative then t.drop 1 else t
  match wholeDigits body with
  | [] => none
  | whole =>
    let rest := body.drop whole.length
    let (fraction, fractionWidth) := fractionDigits rest
    let (power, powerWidth) := exponentDigits (rest.drop fractionWidth)
    some (⟨negative, whole, fraction, power⟩,
      (if negative then 1 else 0) + whole.length + fractionWidth + powerWidth)

/-- The value of a number: an integer unless it has a fraction or an exponent. -/
def Numeral.lexeme (limit : Option Nat) (n : Numeral) : Lexeme :=
  match n.fraction, n.power with
  | [], none =>
    if limit.all (n.whole.length ≤ ·) then
      let value : Int := ofDigitValues n.whole
      .scalar (.int (if n.negative then -value else value))
    else .longInteger n.whole.length
  | fraction, power =>
    let scale : Int := match power with
      | none => 0
      | some (negative, digits) =>
        if negative then -(ofDigitValues digits : Int) else ofDigitValues digits
    .scalar (.float (.ofDecimal n.negative (ofDigitValues (n.whole ++ fraction))
      (scale - fraction.length)))

/-! ### Tokens -/

def namedValues : List (Text × Json) := [
  ("null", .null), ("true", .bool true), ("false", .bool false), ("NaN", .float .nan),
  ("Infinity", .float (.infinite false)), ("-Infinity", .float (.infinite true))]

/-- The named value or number at the head of a text, and how many code points it takes. -/
def scanScalar (limit : Option Nat) (t : Text) : Lexeme × Nat :=
  match namedValues.find? fun e => Text.startsWith e.1 t with
  | some (name, value) => (.scalar value, name.length)
  | none =>
    match scanNumeral? t with
    | none => (.junk, 1)
    | some (n, width) => (n.lexeme limit, width)

/-- The lexeme that starts with a code point, and how many code points it takes. -/
def scanLexeme (limit : Option Nat) (offset : Nat) (c : CodePoint) (rest : Text) : Lexeme × Nat :=
  if c = '[' then (.openArray, 1)
  else if c = ']' then (.closeArray, 1)
  else if c = '\x7b' then (.openObject, 1)
  else if c = '\x7d' then (.closeObject, 1)
  else if c = ',' then (.comma, 1)
  else if c = ':' then (.colon, 1)
  else if c = '"' then
    match scanString offset (offset + 1) [] rest with
    | .ok (t, stop) => (.text t, stop - offset)
    | .error fault => (.brokenText fault, 1)
  else scanScalar limit (c :: rest)

/-- The tokens of a text that starts at `offset`, after those already found, last first.  The next
`skip` code points belong to the last token found. -/
def tokensFrom (limit : Option Nat) : Nat → Nat → List Token → Text → List Token
  | offset, _, found, [] => (⟨offset, .finish⟩ :: found).reverse
  | offset, skip + 1, found, _ :: rest => tokensFrom limit (offset + 1) skip found rest
  | offset, 0, found, c :: rest =>
    if isSpacing c then tokensFrom limit (offset + 1) 0 found rest
    else
      let (lexeme, width) := scanLexeme limit offset c rest
      let found := ⟨offset, lexeme⟩ :: found
      if lexeme.isLast then found.reverse
      else tokensFrom limit (offset + 1) (width - 1) found rest

/-- The tokens of a text.  `limit` bounds the digits of an integer. -/
def tokens (limit : Option Nat) (t : Text) : List Token := tokensFrom limit 0 0 [] t

end Phrasing.Json
