/-
  Phrasing/Storage/Name.lean
  ==========================
  **Names on a disk.**

  A disk knows names as bytes, so two texts are one name if their bytes are the
  same.  A byte that is no text is told by a surrogate of its own; any other
  surrogate has no bytes.
-/
import Phrasing.Storage.Utf8

namespace Phrasing

/-- A name on a disk. -/
abbrev Name := Bytes

namespace Name

/-! ### Bytes of a text -/

/-- A surrogate that a name may hold: it stands for a byte that is no text. -/
def isByteSurrogate (c : CodePoint) : Bool := c.within [(0xDC80, 0xDCFF)]

def ofText (t : Text) : Name :=
  t.flatMap fun c => if isByteSurrogate c then [c.val.toUInt8] else Utf8.encodeCodePoint c

/-- Whether a text spells a name: it holds no surrogate but those that stand for bytes. -/
def isSpelled (t : Text) : Bool := t.all fun c => !c.isSurrogate || isByteSurrogate c

/-! ### Text of bytes -/

/-- The code point at the head of a byte string, and how many bytes it takes after the first. -/
def first? (bytes : Bytes) : Option (CodePoint × Nat) :=
  [0, 1, 2, 3].findSome? fun more =>
    match Utf8.decode? (bytes.take (more + 1)) with
    | some [c] => some (c, more)
    | _ => none

/-- The surrogate that stands for a byte that is no text. -/
def surrogateOf (b : UInt8) : CodePoint :=
  (CodePoint.ofNat? (0xDC00 + b.toNat)).getD .replacement

/-- The text of a name from which so many bytes are still to be passed by. -/
def textFrom : Nat → Name → Text
  | _, [] => []
  | skipped + 1, _ :: rest => textFrom skipped rest
  | 0, b :: rest =>
    match first? (b :: rest) with
    | some (c, more) => c :: textFrom more rest
    | none => surrogateOf b :: textFrom 0 rest

/-- The text that spells a name: code points where there are any, and surrogates for the other
bytes. -/
def text (name : Name) : Text := textFrom 0 name

/-- The most bytes that a name may have. -/
def limit : Nat := 255

end Name

end Phrasing
