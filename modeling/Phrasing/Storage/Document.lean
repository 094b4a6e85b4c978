/-
  Phrasing/Storage/Document.lean
  ==============================
  **JSON documents on a disk.**

  A document is read with an encoding given by name.  The file is looked for
  before the encoding is, and its lines may end in any of the usual ways.  A tree
  is saved by opening its file first, so a tree that cannot be encoded leaves an
  empty file behind.
-/
import Phrasing.Failure
import Phrasing.Storage.Disk

namespace Phrasing

/-! ### Reading -/

/-- Why a document is not read. -/
inductive DocumentError where
  | disk (error : DiskError)
  | encoding (error : EncodingError)
  | json (error : Json.ReadError)
deriving DecidableEq

namespace Disk

def readText [Host] (d : Disk) (p : Path) (encodingName : Text) : Except DocumentError Text :=
  match Encoding.nameError? encodingName with
  | some e => .error (.encoding e)
  | none =>
    match d.bytes p with
    | .error e => .error (.disk e)
    | .ok bytes =>
      match (Codec.ofName encodingName).bind fun codec => codec.decode bytes with
      | .error e => .error (.encoding e)
      | .ok t => .ok t.unifyLines

/-- The JSON value in a file. -/
def readDocument [Host] (d : Disk) (p : Path) (encodingName : Text) : Except DocumentError Json :=
  match d.readText p encodingName with
  | .error e => .error e
  | .ok t => (Json.read t).mapError .json

end Disk

/-- What becomes of an error that is no reported problem with the document. -/
def DocumentError.failure : DocumentError → Failure
  | .disk e => .disk e
  | .encoding e => .encoding e
  | .json (.longInteger digits) => .longInteger (some digits)
  | .json (.malformed _ _) => .encoding .undecodable

/-- Reads the object in an input file. -/
def Disk.loadTree [Host] (d : Disk) (p : Path) (encodingName : Text) :
    Except Failure (Entries Text Json) :=
  match d.readDocument p encodingName with
  | .ok (.obj fields) => .ok fields
  | .ok _ => .error (.input p .notObject)
  | .error (.disk .missing) => .error (.input p .missing)
  | .error (.json (.malformed what place)) => .error (.input p (.malformed what place))
  | .error e => .error e.failure

/-! ### Saving -/

/-- A disk after an attempt to change it. -/
structure Written (α : Type) where
  disk : Disk
  result : Except Failure α

namespace Disk

/-- The tree with its intents replaced, in their place if it had any, else at the end. -/
def withIntents (tree intents : Entries Text Json) : Entries Text Json :=
  tree.insert Intents.treeKey (.obj intents)

/-- Makes the directories on the way to a file, then goes on. -/
def afterParents {α : Type} (d : Disk) (p : Path) (next : Disk → Written α) : Written α :=
  match d.ensureDirectories p.parent with
  | (d, .error e) => ⟨d, .error (.disk e)⟩
  | (d, .ok ()) => next d

/-- Writes a text to a file in an encoding.  The file is emptied before anything else can fail. -/
def writeText [Host] (d : Disk) (p : Path) (encodingName : Text) (t : Text) : Written Unit :=
  match Encoding.nameError? encodingName with
  | some e => ⟨d, .error (.encoding e)⟩
  | none =>
    match d.put p (.file []) with
    | .error e => ⟨d, .error (.disk e)⟩
    | .ok emptied =>
      match (Codec.ofName encodingName).bind fun codec => codec.encode t with
      | .error e => ⟨emptied, .error (.encoding e)⟩
      | .ok bytes =>
        match emptied.put p (.file bytes) with
        | .error e => ⟨emptied, .error (.disk e)⟩
        | .ok d => ⟨d, .ok ()⟩

def saveTree [Host] (d : Disk) (tree intents : Entries Text Json) (p : Path) (encodingName : Text) :
    Written Unit :=
  let payload := Json.obj (withIntents tree intents)
  d.afterParents p fun d =>
    if payload.hasLongInteger then ⟨d, .error (.longInteger none)⟩
    else d.writeText p encodingName (payload.write .tree)

/-- Saves a training table and tells how many rows it has.  A table that cannot hold a row is not
begun. -/
def saveTable [Host] (d : Disk) (rows : List TrainingRow) (p : Path) : Written Nat :=
  if ∀ r ∈ rows, r.IsScalar then
    d.afterParents p fun d =>
      match Host.putTable d p rows with
      | (d, .error e) => ⟨d, .error (.disk e)⟩
      | (d, .ok ()) => ⟨d, .ok rows.length⟩
  else ⟨d, .error (.encoding .unencodable)⟩

end Disk

end Phrasing
