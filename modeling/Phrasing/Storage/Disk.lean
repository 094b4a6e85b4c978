/-
  Phrasing/Storage/Disk.lean
  ==========================
  **A disk as a value.**

  A disk maps locations to directories, files and tables.  Reading and writing
  are functions of a disk, so what a command leaves behind can be compared with
  what was there.  A table is told by its rows; to whoever reads it or adds to it
  as a file it is the bytes that its host writes.
-/
import Phrasing.Storage.Host

namespace Phrasing

namespace Disk

/-- What stands at a location.  The directories where paths start and above are always there. -/
def node? (d : Disk) (l : Location) : Option Node :=
  if l.names.isEmpty then some .directory else Entries.get? d l

/-- What another disk holds that this one does not, in the order of the other. -/
def changes (before after : Disk) : Disk :=
  after.filter fun e => Entries.get? before e.1 ≠ some e.2

/-- The locations at which something stood before and nothing does after. -/
def removals (before after : Disk) : List Location :=
  (Entries.keys before).filter fun l => !Entries.has after l

/-- Why a path cannot be asked for at all. -/
def pathError? (p : Path) : Option DiskError :=
  if !p.names.all Name.isSpelled then some .unencodableName
  else if p.names.any (·.any (·.val = 0)) then some .nullInName
  else none

/-- The most bytes that a path may have. -/
def pathLimit : Nat := 4095

/-- Follows names from a directory.  Each but the last has to lead to a directory. -/
def resolveFrom (d : Disk) (l : Location) : List Text → Except DiskError Location
  | [] => .ok l
  | name :: rest =>
    if Name.limit < (Name.ofText name).length then .error .nameTooLong
    else
      let next := l.follow name
      if rest.isEmpty then .ok next
      else
        match d.node? next with
        | none => .error .missing
        | some .directory => resolveFrom d next rest
        | some _ => .error .notDirectory

def resolve (d : Disk) (p : Path) : Except DiskError Location :=
  match pathError? p with
  | some e => .error e
  | none =>
    if pathLimit < (Name.ofText p.text).length then .error .nameTooLong
    else resolveFrom d (Location.start p) p.names

def isDirectory (d : Disk) (p : Path) : Bool :=
  match d.resolve p with
  | .ok l => d.node? l == some .directory
  | .error _ => false

/-! ### Files -/

/-- The location of a file that may be written: a path to anything but a directory. -/
def writable (d : Disk) (p : Path) : Except DiskError Location := do
  let l ← d.resolve p
  if d.node? l = some .directory then .error .isDirectory else .ok l

/-- What is made of a file or a table that is opened at a path. -/
def openWith {α : Type} (ofFile : Bytes → α) (ofTable : List TrainingRow → α) (d : Disk)
    (p : Path) : Except DiskError α := do
  let l ← d.resolve p
  match d.node? l with
  | none => .error .missing
  | some .directory => .error .isDirectory
  | some (.file content) => .ok (ofFile content)
  | some (.table rows) => .ok (ofTable rows)

/-- The content of a file; that of a table depends on its host. -/
def read (d : Disk) (p : Path) : Except DiskError (Option Bytes) :=
  d.openWith some (fun _ => none) p

/-- The bytes at a path. -/
def bytes [Host] (d : Disk) (p : Path) : Except DiskError Bytes :=
  d.openWith id Host.tableBytes p

/-- Replaces what stands at a path. -/
def put (d : Disk) (p : Path) (node : Node) : Except DiskError Disk := do
  return Entries.insert d (← d.writable p) node

/-- Adds bytes to the end of a file.  A table that is added to is a mere file from then on. -/
def append [Host] (d : Disk) (p : Path) (content : Bytes) : Except DiskError Disk := do
  let l ← d.writable p
  match d.node? l with
  | some (.file old) => .ok (Entries.insert d l (.file (old ++ content)))
  | some (.table rows) => .ok (Entries.insert d l (.file (Host.tableBytes rows ++ content)))
  | _ => .ok (Entries.insert d l (.file content))

def removeFile (d : Disk) (p : Path) : Disk :=
  match d.writable p with
  | .ok l => Entries.without d [l]
  | .error _ => d

/-! ### Directories -/

/-- Makes one directory; its parent has to be there. -/
def makeDirectory (d : Disk) (p : Path) : Except DiskError Disk := do
  let l ← d.resolve p
  match d.node? l with
  | some _ => .error .alreadyExists
  | none => .ok (Entries.insert d l .directory)

/-- Makes a directory unless it is there already. -/
def ensureDirectory (d : Disk) (p : Path) : Except DiskError Disk :=
  match d.makeDirectory p with
  | .error .alreadyExists => if d.isDirectory p then .ok d else .error .alreadyExists
  | outcome => outcome

/-- Makes a directory and those on the way to it, innermost name first.  Directories that were made
before a failure stay. -/
def ensureFrom (base : Base) (d : Disk) : List Text → Disk × Except DiskError Unit
  | [] =>
    match d.ensureDirectory ⟨base, []⟩ with
    | .ok d => (d, .ok ())
    | .error e => (d, .error e)
  | name :: above =>
    match d.ensureDirectory ⟨base, (name :: above).reverse⟩ with
    | .ok d => (d, .ok ())
    | .error .missing =>
      match ensureFrom base d above with
      | (d, .error e) => (d, .error e)
      | (d, .ok ()) =>
        match d.ensureDirectory ⟨base, (name :: above).reverse⟩ with
        | .ok d => (d, .ok ())
        | .error e => (d, .error e)
    | .error e => (d, .error e)

/-- Makes a directory and those on the way to it. -/
def ensureDirectories (d : Disk) (p : Path) : Disk × Except DiskError Unit :=
  ensureFrom p.base d p.names.reverse

end Disk

end Phrasing
