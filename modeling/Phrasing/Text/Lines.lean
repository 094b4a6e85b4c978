/-
  Phrasing/Text/Lines.lean
  ========================
  **Lines of a text.**

  A file may end its lines with a line feed, a carriage return or both; once it
  is read, every line ends with a line feed.  A place in a text is told by line
  and column from one, and by offset from zero.
-/
import Phrasing.Number.Integer

namespace Phrasing

def lineFeed : CodePoint := '\n'

namespace Text

/-- Every line ending becomes a line feed; `found` holds what was read, last first. -/
def unifyLinesFrom (found : Text) : Text → Text
  | [] => found.reverse
  | c :: rest =>
    if c = '\r' then
      match rest with
      | [] => (lineFeed :: found).reverse
      | d :: rest' =>
        if d = lineFeed then unifyLinesFrom (lineFeed :: found) rest'
        else unifyLinesFrom (lineFeed :: found) (d :: rest')
    else unifyLinesFrom (c :: found) rest

/-- Every line ending becomes a line feed. -/
def unifyLines (t : Text) : Text := unifyLinesFrom [] t

end Text

/-- A place in a text. -/
structure Place where
  line : Nat
  column : Nat
  offset : Nat
deriving DecidableEq, Repr

namespace Place

def ofOffset (t : Text) (offset : Nat) : Place :=
  let before := t.take offset
  { line := before.count lineFeed + 1
    column := (before.reverse.takeWhile (· ≠ lineFeed)).length + 1
    offset }

/-- A place in words. -/
def describe (p : Place) : Text :=
  "line " ++ Text.ofNat p.line ++ " column " ++ Text.ofNat p.column
    ++ " (char " ++ Text.ofNat p.offset ++ ")"

end Place

end Phrasing
