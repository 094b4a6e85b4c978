/-
  Phrasing/Text/Blank.lean
  ========================
  **Blank code points and trimming.**

  A code point is blank if it separates words: the ASCII controls that move the
  cursor, the information separators, and the spaces and line separators of
  Unicode.  Trimming drops blanks from the edges of a text and nothing else.
-/
import Phrasing.Text.CodePoint

namespace Phrasing

/-- The code points that trimming removes. -/
def CodePoint.isBlank (c : CodePoint) : Bool :=
  c.within [(0x09, 0x0D), (0x1C, 0x20), (0x85, 0x85), (0xA0, 0xA0), (0x1680, 0x1680),
    (0x2000, 0x200A), (0x2028, 0x2029), (0x202F, 0x202F), (0x205F, 0x205F), (0x3000, 0x3000)]

namespace Text

/-- The text without its leading blanks. -/
def trimStart (t : Text) : Text := t.dropWhile CodePoint.isBlank

/-- The text without its trailing blanks. -/
def trimEnd (t : Text) : Text := (t.reverse.dropWhile CodePoint.isBlank).reverse

/-- The text without the blanks at either edge. -/
def trim (t : Text) : Text := t.trimStart.trimEnd

/-- The text with all its blanks deleted. -/
def withoutBlanks (t : Text) : Text := t.filter fun c => !c.isBlank

/-- Whether the first code point is the ASCII space: the one blank that marks a seam. -/
def startsWithSpace (t : Text) : Bool := t.head? == some (' ' : CodePoint)

end Text

end Phrasing
