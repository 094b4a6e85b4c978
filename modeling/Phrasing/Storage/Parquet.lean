/-
  Phrasing/Storage/Parquet.lean
  =============================
  **A training table as a Parquet file.**

  The file holds one page for each column, uncompressed and in plain form, and
  after the pages a footer that tells where each of them lies.  The headers of
  pages and the footer are records of numbered fields: a field is written as the
  step from the number before it, its type, and its value.
-/
import Phrasing.Corpus.TrainingRow
import Phrasing.Storage.Utf8

namespace Phrasing.Parquet

/-! ### Records -/

/-- A number in groups of seven bits, lowest first; every byte but the last has its high bit set. -/
def varint (n : Nat) : Bytes :=
  if n < 0x80 then [n.toUInt8] else (0x80 + n % 0x80).toUInt8 :: varint (n / 0x80)
termination_by n
decreasing_by omega

/-- A value in a record. -/
inductive Field where
  | int32 (n : Nat)
  | int64 (n : Nat)
  | bytes (content : Bytes)
  | list (items : List Field)
  /-- Fields by number, in ascending order. -/
  | record (fields : List (Nat × Field))

namespace Field

/-- The code of a value's type. -/
def code : Field → Nat
  | .int32 _ => 5
  | .int64 _ => 6
  | .bytes _ => 8
  | .list _ => 9
  | .record _ => 12

/-- What precedes the items of a list: their number and the code of their type. -/
def listHead (size code : Nat) : Bytes :=
  if size < 15 then [(size * 16 + code).toUInt8] else (0xF0 + code).toUInt8 :: varint size

mutual

/-- The bytes of a value.  Integers are doubled, since the lowest bit is their sign. -/
def encode : Field → Bytes
  | .int32 n => varint (2 * n)
  | .int64 n => varint (2 * n)
  | .bytes content => varint content.length ++ content
  | .list [] => listHead 0 0
  | .list (item :: rest) => listHead (rest.length + 1) item.code ++ encodeItems (item :: rest)
  | .record fields => encodeFields 0 fields

def encodeItems : List Field → Bytes
  | [] => []
  | item :: rest => item.encode ++ encodeItems rest

/-- The bytes of the fields of a record, after the field with number `last`. -/
def encodeFields (last : Nat) : List (Nat × Field) → Bytes
  | [] => [0]
  | (number, field) :: rest =>
    ((number - last) * 16 + field.code).toUInt8 :: field.encode ++ encodeFields number rest

end

end Field

/-! ### Columns -/

/-- A number in so many bytes, lowest first. -/
def littleEndian : Nat → Nat → Bytes
  | 0, _ => []
  | width + 1, n => (n % 0x100).toUInt8 :: littleEndian width (n / 0x100)

def textBytes (t : Text) : Bytes := t.flatMap Utf8.encodeCodePoint

/-- A text in plain form: its length and its bytes. -/
def plainText (t : Text) : Bytes := littleEndian 4 (textBytes t).length ++ textBytes t

def plainPlace (n : Nat) : Bytes := littleEndian 8 n

/-- A column: its name, whether it holds text or places, and its values in plain form. -/
structure Column where
  name : Text
  holdsText : Bool
  values : List Bytes

namespace Column

def typeCode (c : Column) : Nat := if c.holdsText then 6 else 2

/-- A column as the schema describes it: each value is there, and text is marked as such. -/
def schema (c : Column) : Field :=
  .record ([(1, .int32 c.typeCode), (3, .int32 0), (4, .bytes (textBytes c.name))]
    ++ if c.holdsText then [(6, .int32 0), (10, .record [(1, .record [])])] else [])

def page (c : Column) : Bytes :=
  let content := c.values.flatten
  let size := Field.int32 content.length
  let values := Field.record [
    (1, .int32 c.values.length), (2, .int32 0), (3, .int32 3), (4, .int32 3)]
  (Field.record [(1, .int32 0), (2, size), (3, size), (5, values)]).encode ++ content

/-- What the footer tells of a column whose page starts at an offset. -/
def chunk (c : Column) (offset : Nat) : Field :=
  let size := Field.int64 c.page.length
  .record [(2, .int64 offset), (3, .record [
    (1, .int32 c.typeCode), (2, .list [.int32 0, .int32 3]), (3, .list [.bytes (textBytes c.name)]),
    (4, .int32 0), (5, .int64 c.values.length), (6, size), (7, size), (9, .int64 offset)])]

/-- What the footer tells of columns whose pages start at an offset. -/
def chunks (offset : Nat) : List Column → List Field
  | [] => []
  | c :: rest => c.chunk offset :: chunks (offset + c.page.length) rest

end Column

/-! ### Files -/

/-- What a file begins and ends with. -/
def mark : Bytes := [0x50, 0x41, 0x52, 0x31]

def columns (rows : List TrainingRow) : List Column := [
  ⟨"intent", true, rows.map fun r => plainText r.intent⟩,
  ⟨"sentence_index", false, rows.map fun r => plainPlace r.place⟩,
  ⟨"text", true, rows.map fun r => plainText r.text⟩]

/-- The footer of a table with so many rows. -/
def footer (size : Nat) (columns : List Column) : Field :=
  let total := (columns.flatMap Column.page).length
  let group := Field.record [
    (1, .list (Column.chunks mark.length columns)), (2, .int64 total), (3, .int64 size)]
  let top := Field.record [(4, .bytes (textBytes "schema")), (5, .int32 columns.length)]
  .record [(1, .int32 1), (2, .list (top :: columns.map Column.schema)), (3, .int64 size),
    (4, .list [group])]

/-- The file of a training table. -/
def encode (rows : List TrainingRow) : Bytes :=
  let columns := columns rows
  let footer := (footer rows.length columns).encode
  mark ++ columns.flatMap Column.page ++ footer ++ littleEndian 4 footer.length ++ mark

end Phrasing.Parquet
