/-
  Phrasing/Storage/Location.lean
  ==============================
  **Locations, and what stands at them.**

  A location is told from where its path starts: so many levels up, then down
  along names.  Two paths lead to one location if their names have the same bytes.
-/
import Phrasing.Corpus.TrainingRow
import Phrasing.Entries
import Phrasing.Storage.Name
import Phrasing.Storage.Path

namespace Phrasing

/-! ### Locations -/

/-- A location on a disk: levels above where paths start, then names, innermost first. -/
structure Location where
  base : Base
  up : Nat
  names : List Name
deriving DecidableEq

namespace Location

def child (l : Location) (name : Name) : Location := { l with names := name :: l.names }

/-- The location one level up; the top of a disk is its own parent. -/
def parent (l : Location) : Location :=
  match l.names with
  | _ :: names => { l with names }
  | [] => if l.base = .top then l else { l with up := l.up + 1 }

/-- Where the names of a path start.  However it is spelled, a disk has one top. -/
def start (p : Path) : Location := ⟨if p.base = .topTwice then .top else p.base, 0, []⟩

def path (l : Location) : Path where
  base := l.base
  names := List.replicate l.up (".." : Text) ++ l.names.reverse.map Name.text

/-- Where one name of a path leads. -/
def follow (l : Location) (name : Text) : Location :=
  if name = (".." : Text) then l.parent else l.child (.ofText name)

end Location

/-! ### Disks -/

/-- What stands at a location. -/
inductive Node where
  | directory
  | file (content : Bytes)
  | table (rows : List TrainingRow)
deriving DecidableEq

abbrev Disk := Entries Location Node

/-- Why the disk refuses. -/
inductive DiskError where
  | missing
  | isDirectory
  | notDirectory
  | alreadyExists
  | nameTooLong
  /-- A name that has no bytes. -/
  | unencodableName
  /-- A name with a null character. -/
  | nullInName
  /-- A path that is the address of nothing known. -/
  | unknownAddress
  /-- An address whose bytes are no text. -/
  | undecodableAddress
  /-- The address of a store that cannot be reached. -/
  | unreachable
deriving DecidableEq, Repr

end Phrasing
