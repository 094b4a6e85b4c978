/-
  Phrasing/Storage/Host.lean
  ==========================
  **What is left to the machine.**

  A machine may offer encodings of its own, and it decides how a table is written
  and where its path leads.  None of this is fixed here: whatever is said of
  documents and of commands holds on every host.
-/
import Phrasing.Storage.Encoding
import Phrasing.Storage.Location

namespace Phrasing

/-- What a machine adds to a disk. -/
class Host where
  /-- The codec of a name that no encoding known everywhere has. -/
  codec? : Text → Option Codec
  /-- The bytes of a table's file. -/
  tableBytes : List TrainingRow → Bytes
  /-- Puts a table where a path leads: the disk that this leaves, and why it failed if it did. -/
  putTable : Disk → Path → List TrainingRow → Disk × Except DiskError Unit

/-- The codec of a name. -/
def Codec.ofName [Host] (name : Text) : Except EncodingError Codec :=
  match Encoding.ofName? name with
  | some e => .ok e.codec
  | none =>
    match Host.codec? name with
    | some codec => .ok codec
    | none => .error .unknown

end Phrasing
