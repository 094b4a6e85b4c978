/-
  Phrasing/Text/Quoted.lean
  =========================
  **Text between quotation marks, for messages.**

  Apostrophes enclose the text, unless it holds an apostrophe and no double
  quote.  The enclosing mark and the backslash are escaped, and a code point
  without a visible form is spelled by its number in hexadecimal.
-/
import Phrasing.Text.Printable

namespace Phrasing

/-- One hexadecimal digit, in lower case. -/
def hexDigit (n : Nat) : CodePoint := CodePoint.ofChar (Nat.digitChar (n % 16))

/-- The last `width` hexadecimal digits of a number. -/
def hexDigits : Nat → Nat → Text
  | 0, _ => []
  | width + 1, n => hexDigits width (n / 16) ++ [hexDigit n]

namespace Text

def quotationMark (t : Text) : CodePoint :=
  if t.contains ('\'' : CodePoint) && !t.contains ('"' : CodePoint) then '"' else '\''

def quotedCodePoint (mark c : CodePoint) : Text :=
  if c = mark ∨ c = '\\' then ['\\', c]
  else if c = '\n' then ['\\', 'n']
  else if c = '\r' then ['\\', 'r']
  else if c = '\t' then ['\\', 't']
  else if c.isPrintable then [c]
  else if c.val < 0x100 then '\\' :: 'x' :: hexDigits 2 c.val
  else if c.val < 0x10000 then '\\' :: 'u' :: hexDigits 4 c.val
  else '\\' :: 'U' :: hexDigits 8 c.val

/-- The text between quotation marks. -/
def quoted (t : Text) : Text :=
  let mark := t.quotationMark
  mark :: t.flatMap (quotedCodePoint mark) ++ [mark]

end Text

end Phrasing
