/-
  Phrasing/Storage/Path.lean
  ==========================
  **Paths.**

  A path is a row of names.  Empty names and single dots are dropped when a path
  is read, since they lead nowhere; double dots stay, since where they lead hangs
  on the disk.  The empty path is written as a dot.  A tilde is a name like any
  other, save where a path is read as a shell reads it: then it leads home.
-/
import Phrasing.Text.CodePoint

namespace Phrasing

/-- Where a path starts. -/
inductive Base where
  /-- The working directory. -/
  | here
  /-- The top of the disk. -/
  | top
  /-- The top of the disk, spelled with exactly two slashes, which are kept. -/
  | topTwice
  /-- The home of the user. -/
  | home
deriving DecidableEq, Repr

/-- A path to a file or directory. -/
structure Path where
  base : Base
  names : List Text
deriving DecidableEq

namespace Path

/-- Cuts a text at each slash; `name` holds the current name, last first. -/
def cutFrom (name : Text) : Text → List Text
  | [] => [name.reverse]
  | c :: rest => if c = '/' then name.reverse :: cutFrom [] rest else cutFrom (c :: name) rest

/-- The names between the slashes of a text. -/
def namesOf (t : Text) : List Text := (cutFrom [] t).filter fun name => !name.isEmpty

/-- Where the path that a text spells starts: what counts is how many slashes it starts with. -/
def baseOf (t : Text) : Base :=
  match (t.takeWhile (· = ('/' : CodePoint))).length with
  | 0 => .here
  | 2 => .topTwice
  | _ => .top

def ofText (t : Text) : Path where
  base := baseOf t
  names := (namesOf t).filter (· ≠ ("." : Text))

def homeName : Text := "~"

/-- A path in words. -/
def text (p : Path) : Text :=
  match p.base with
  | .here => if p.names.isEmpty then "." else Text.join "/" p.names
  | .top => "/" ++ Text.join "/" p.names
  | .topTwice => "//" ++ Text.join "/" p.names
  | .home => Text.join "/" (homeName :: p.names)

/-- The path as a shell reads it: a tilde at its start leads home. -/
def expandHome (p : Path) : Path :=
  if p.base = .here ∧ p.names.head? = some homeName then ⟨.home, p.names.tail⟩ else p

/-- The path to the directory that holds what the path leads to. -/
def parent (p : Path) : Path := { p with names := p.names.dropLast }

end Path

end Phrasing
