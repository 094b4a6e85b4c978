/-
  Phrasing/Json/Display.lean
  ==========================
  **Values inside plain text.**

  Where a text is wanted and another value is given, its plain form is used: a
  string stands for itself, a number for its digits, and strings inside arrays
  and objects are quoted.  An integer has its digits told however many they are:
  the limit on digits is not kept here, and only a value that was put together in
  memory could exceed it, for no integer that is read from a text does.
-/
import Phrasing.Json.Writer

namespace Phrasing.Json

/-- A floating-point number in plain form. -/
def displayFloat : Double → Text
  | .finite negative mantissa exponent => Double.finiteText negative mantissa exponent
  | .infinite negative => if negative then "-inf" else "inf"
  | .nan => "nan"

mutual

/-- A value as it appears inside another one. -/
def displayInside : Json → Text
  | .null => "None"
  | .bool true => "True"
  | .bool false => "False"
  | .int n => Text.ofInt n
  | .float x => displayFloat x
  | .str t => t.quoted
  | .arr [] => "[]"
  | .arr (v :: rest) => "[" ++ displayInside v ++ displayItems rest ++ "]"
  | .obj [] => "\x7b\x7d"
  | .obj ((key, v) :: rest) =>
    "\x7b" ++ Text.quoted key ++ ": " ++ displayInside v ++ displayFields rest ++ "\x7d"

/-- Further items. -/
def displayItems : List Json → Text
  | [] => []
  | v :: rest => ", " ++ displayInside v ++ displayItems rest

/-- Further members. -/
def displayFields : List (Text × Json) → Text
  | [] => []
  | (key, v) :: rest =>
    ", " ++ Text.quoted key ++ ": " ++ displayInside v ++ displayFields rest

end

/-- A value in plain form: a string stands for itself. -/
def display : Json → Text
  | .str t => t
  | v => v.displayInside

end Phrasing.Json
