/-
  Phrasing/Storage/Destination.lean
  =================================
  **Where the program puts a table.**

  A table may go to a file or to an address.  A path that starts with a scheme of
  a usual length is an address, whatever stands there; after any other scheme it
  is one only if nothing stands at the path and the rest is well formed.  Few
  schemes are known: two lead to files, one to a store in memory that starts empty
  and ends with the run, and two to stores that are out of reach.
-/
import Phrasing.Storage.Address
import Phrasing.Storage.Disk
import Phrasing.Storage.Parquet

namespace Phrasing

/-! ### Schemes -/

/-- What the known schemes lead to. -/
inductive Scheme where
  /-- Files, told from the top of the disk. -/
  | topFile
  /-- Files, told from anywhere. -/
  | anyFile
  /-- A store in memory. -/
  | memory
  /-- A store on other machines. -/
  | cluster
deriving DecidableEq, Repr

def Scheme.ofName? (name : Text) : Option Scheme :=
  if name = ("file" : Text) then some .topFile
  else if name = ("local" : Text) then some .anyFile
  else if name = ("mock" : Text) then some .memory
  else if name = ("hdfs" : Text) ∨ name = ("viewfs" : Text) then some .cluster
  else none

/-! ### Destinations -/

/-- Where a table goes. -/
inductive Destination where
  | file (p : Path)
  /-- A place in the store in memory, told by names. -/
  | memory (names : List Text)
deriving DecidableEq

namespace Destination

/-- The path of an address.  One that is an address once more is refused. -/
def pathOf (a : Address) : Except DiskError Text :=
  match a.path? with
  | none => .error .undecodableAddress
  | some t => if (Address.ofText? t).any Address.isUsual then .error .unknownAddress else .ok t

/-- The file at the path of an address. -/
def fileAt (t : Text) : Except DiskError Destination :=
  if t.isEmpty then .error .missing
  else if t.any (·.val = 0) then .error .unknownAddress
  else .ok (.file (.ofText t))

/-- Where an address leads. -/
def ofAddress (a : Address) : Except DiskError Destination :=
  match if a.isWellFormed then Scheme.ofName? a.scheme else none with
  | none => .error .unknownAddress
  | some .cluster => .error .unreachable
  | some .memory => (pathOf a).map fun t => .memory (Path.namesOf t)
  | some .anyFile => (pathOf a).bind fileAt
  | some .topFile =>
    if a.body.head? = some ('/' : CodePoint) then (pathOf a).bind fileAt
    else .error .unknownAddress

def ofPath (d : Disk) (p : Path) : Except DiskError Destination :=
  match Disk.pathError? p with
  | some e => .error e
  | none =>
    if ¬ p.text.IsScalar then .error .unencodableName
    else
      match Address.ofText? p.text with
      | none => .ok (.file p)
      | some a =>
        if a.isUsual then ofAddress a
        else do
          let l ← d.resolve p
          if (d.node? l).isNone && a.isWellFormed then ofAddress a else .ok (.file p)

end Destination

/-- The paths at which a table may end up that goes to a path. -/
def Path.tablePaths (p : Path) : List Path :=
  let p := p.expandHome
  let address := (Address.ofText? p.text).bind Address.path?
  p :: (address.map Path.ofText).toList

namespace Destination

/-- Writes a table to where a path leads.  The store in memory holds no directory but its own. -/
def write (d : Disk) (p : Path) (rows : List TrainingRow) : Except DiskError Disk := do
  match ← ofPath d p with
  | .file p => d.put p (.table rows)
  | .memory [_] => .ok d
  | .memory _ => .error .missing

/-- Puts a table where a path leads, a tilde leading home.  A table that cannot be written takes the
file at its path away. -/
def putTable (d : Disk) (p : Path) (rows : List TrainingRow) : Disk × Except DiskError Unit :=
  let p := p.expandHome
  match write d p rows with
  | .ok d => (d, .ok ())
  | .error e => (d.removeFile p, .error e)

end Destination

/-- The host of the program: it offers no further encoding and writes a table as a Parquet file. -/
instance (priority := low) programHost : Host where
  codec? _ := none
  tableBytes := Parquet.encode
  putTable := Destination.putTable

end Phrasing
