/-
  Phrasing/Json/Writer.lean
  =========================
  **Writing JSON.**

  A layout says whether items stand on lines of their own and whether the text is
  confined to ASCII.  Both kinds of layout escape the quote, the backslash and
  the controls, so a string never breaks a line; members keep their order.
-/
import Phrasing.Json.Basic
import Phrasing.Number.Shortest
import Phrasing.Text.Quoted

namespace Phrasing

/-- How JSON is laid out. -/
structure Json.Layout where
  /-- Spaces per level when items stand on lines of their own. -/
  indent : Option Nat
  /-- Whether everything beyond printable ASCII is escaped. -/
  asciiOnly : Bool

namespace Json

/-! ### Layouts -/

/-- All on one line, with every visible character as itself. -/
def Layout.line : Layout := ⟨none, false⟩

/-- All on one line, in printable ASCII: the form of a record in a log. -/
def Layout.asciiLine : Layout := ⟨none, true⟩

/-- An item a line, two spaces a level: the form of a saved tree. -/
def Layout.tree : Layout := ⟨some 2, false⟩

def Layout.lineBreak (layout : Layout) (level : Nat) : Text :=
  match layout.indent with
  | none => []
  | some width => '\n' :: List.replicate (width * level) ' '

/-- What stands between two items at a level. -/
def Layout.separator (layout : Layout) (level : Nat) : Text :=
  match layout.indent with
  | none => [',', ' ']
  | some _ => ',' :: layout.lineBreak level

/-! ### Strings and numbers -/

/-- An escape by number: four hexadecimal digits. -/
def unicodeEscape (n : Nat) : Text := '\\' :: 'u' :: hexDigits 4 n

def escape (asciiOnly : Bool) (c : CodePoint) : Text :=
  if c = '"' then ['\\', '"']
  else if c = '\\' then ['\\', '\\']
  else if c = '\n' then ['\\', 'n']
  else if c = '\r' then ['\\', 'r']
  else if c = '\t' then ['\\', 't']
  else if c = '\u000C' then ['\\', 'f']
  else if c = '\u0008' then ['\\', 'b']
  else if c.val < 0x20 then unicodeEscape c.val
  else if asciiOnly && 0x7F ≤ c.val then
    if c.val < 0x10000 then unicodeEscape c.val
    else unicodeEscape c.surrogates.1 ++ unicodeEscape c.surrogates.2
  else [c]

/-- A string between double quotes. -/
def renderString (asciiOnly : Bool) (t : Text) : Text :=
  "\"" ++ t.flatMap (escape asciiOnly) ++ "\""

/-- A floating-point number. -/
def renderFloat : Double → Text
  | .finite negative mantissa exponent => Double.finiteText negative mantissa exponent
  | .infinite negative => if negative then "-Infinity" else "Infinity"
  | .nan => "NaN"

/-! ### Values -/

mutual

/-- A value that starts at a level. -/
def render (layout : Layout) (level : Nat) : Json → Text
  | .null => "null"
  | .bool true => "true"
  | .bool false => "false"
  | .int n => Text.ofInt n
  | .float x => renderFloat x
  | .str t => renderString layout.asciiOnly t
  | .arr [] => "[]"
  | .arr (v :: rest) =>
    "[" ++ layout.lineBreak (level + 1) ++ render layout (level + 1) v
      ++ renderItems layout (level + 1) rest ++ layout.lineBreak level ++ "]"
  | .obj [] => "\x7b\x7d"
  | .obj ((key, v) :: rest) =>
    "\x7b" ++ layout.lineBreak (level + 1) ++ renderString layout.asciiOnly key ++ ": "
      ++ render layout (level + 1) v ++ renderFields layout (level + 1) rest
      ++ layout.lineBreak level ++ "\x7d"

/-- Further items, each after a separator. -/
def renderItems (layout : Layout) (level : Nat) : List Json → Text
  | [] => []
  | v :: rest => layout.separator level ++ render layout level v ++ renderItems layout level rest

/-- Further members, each after a separator. -/
def renderFields (layout : Layout) (level : Nat) : List (Text × Json) → Text
  | [] => []
  | (key, v) :: rest =>
    layout.separator level ++ renderString layout.asciiOnly key ++ ": "
      ++ render layout level v ++ renderFields layout level rest

end

def write (layout : Layout) (value : Json) : Text := value.render layout 0

end Json

end Phrasing
