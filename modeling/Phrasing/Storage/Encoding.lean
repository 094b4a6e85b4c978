/-
  Phrasing/Storage/Encoding.lean
  ==============================
  **Encodings by name.**

  A few encodings are spelled out here; a machine may offer more under names of
  its own.  A name is compared without regard to case, and any run of other
  characters counts as one separator.  Texts begin with a mark of byte order in
  the encodings that have one; reading drops it.
-/
import Phrasing.Storage.SingleByte
import Phrasing.Storage.Utf16

namespace Phrasing

/-- An encoding of text files that every machine offers. -/
inductive Encoding where
  | utf8
  /-- UTF-8 after a byte order mark, which may be missing when read. -/
  | utf8Marked
  | ascii
  | latin1
  | page1252
  /-- UTF-16 after a byte order mark. -/
  | utf16
  | utf16LittleEndian
  | utf16BigEndian
deriving DecidableEq, Repr

/-- Why a text is not read or written in an encoding. -/
inductive EncodingError where
  /-- No encoding has the name. -/
  | unknown
  /-- The bytes are no text. -/
  | undecodable
  /-- The text has no bytes. -/
  | unencodable
  /-- The text does not begin with the byte order mark that it must begin with. -/
  | unmarked
  /-- The name holds a null character. -/
  | nullInName
deriving DecidableEq, Repr

/-- How texts are read from bytes and written to them. -/
structure Codec where
  decode : Bytes → Except EncodingError Text
  encode : Text → Except EncodingError Bytes

namespace Encoding

/-! ### Names -/

/-- Lower case for ASCII letters alone. -/
def lowerAscii (c : CodePoint) : CodePoint :=
  if h : 0x41 ≤ c.val ∧ c.val ≤ 0x5A then ⟨c.val + 0x20, by omega⟩ else c

/-- Whether a character of a name is kept: an ASCII letter, a digit or a dot. -/
def isNameCharacter (c : CodePoint) : Bool :=
  c.within [(0x2E, 0x2E), (0x30, 0x39), (0x41, 0x5A), (0x61, 0x7A)]

/-- The canonical spelling of a name; `pending` tells that a separator is due before the next
character. -/
def canonicalFrom (pending : Bool) (found : Text) : Text → Text
  | [] => found.reverse
  | c :: rest =>
    if isNameCharacter c then
      if pending && !found.isEmpty then canonicalFrom false (lowerAscii c :: '_' :: found) rest
      else canonicalFrom false (lowerAscii c :: found) rest
    else canonicalFrom true found rest

def canonicalName (name : Text) : Text := canonicalFrom false [] name

/-- The further names of each encoding. -/
def aliases : Encoding → List Text
  | .utf8 => ["cp65001", "u8", "utf", "utf8", "utf8_ucs2", "utf8_ucs4"]
  | .utf8Marked => []
  | .ascii => ["646", "ansi_x3.4_1968", "ansi_x3.4_1986", "ansi_x3_4_1968", "cp367", "csascii",
      "ibm367", "iso646_us", "iso_646.irv_1991", "iso_ir_6", "us", "us_ascii"]
  | .latin1 => ["8859", "cp819", "csisolatin1", "ibm819", "iso8859", "iso8859_1", "iso_8859_1",
      "iso_8859_1_1987", "iso_ir_100", "l1", "latin", "latin1"]
  | .page1252 => ["1252", "windows_1252"]
  | .utf16 => ["u16", "utf16"]
  | .utf16LittleEndian => ["unicodelittleunmarked", "utf_16le"]
  | .utf16BigEndian => ["unicodebigunmarked", "utf_16be"]

def properName : Encoding → Text
  | .utf8 => "utf_8"
  | .utf8Marked => "utf_8_sig"
  | .ascii => "ascii"
  | .latin1 => "latin_1"
  | .page1252 => "cp1252"
  | .utf16 => "utf_16"
  | .utf16LittleEndian => "utf_16_le"
  | .utf16BigEndian => "utf_16_be"

def all : List Encoding :=
  [.utf8, .utf8Marked, .ascii, .latin1, .page1252, .utf16, .utf16LittleEndian, .utf16BigEndian]

/-- The encoding of a name.  In a further name a dot may stand for a separator. -/
def ofName? (name : Text) : Option Encoding :=
  let canonical := canonicalName name
  let undotted : Text := canonical.map fun (c : CodePoint) => if c = '.' then '_' else c
  all.find? fun e =>
    e.aliases.contains canonical || e.aliases.contains undotted || e.properName == canonical

/-- Why a name cannot even be looked up. -/
def nameError? (name : Text) : Option EncodingError :=
  if ¬ name.IsScalar then some .unencodable
  else if name.any (·.val = 0) then some .nullInName
  else none

/-! ### Texts -/

def utf8Mark : Bytes := [0xEF, 0xBB, 0xBF]

/-- The outcome of decoding. -/
def decoded : Option Text → Except EncodingError Text
  | some t => .ok t
  | none => .error .undecodable

/-- The text of a byte string.  In marked UTF-8 an unfinished mark counts as one; in UTF-16 the mark
decides the byte order, and bytes that are no text are refused before a missing mark is. -/
def decode (e : Encoding) (bytes : Bytes) : Except EncodingError Text :=
  match e with
  | .utf8 => decoded (Utf8.decode? bytes)
  | .utf8Marked =>
    if bytes.length < 3 && bytes.isPrefixOf utf8Mark then .ok []
    else decoded (Utf8.decode?
      (if utf8Mark.isPrefixOf bytes then bytes.drop 3 else bytes))
  | .ascii => decoded (SingleByte.decode? (SingleByte.direct 0x80) bytes)
  | .latin1 => decoded (SingleByte.decode? (SingleByte.direct 0x100) bytes)
  | .page1252 => decoded (SingleByte.decode? SingleByte.ofPage1252 bytes)
  | .utf16LittleEndian => decoded (Utf16.decode? .littleEndian bytes)
  | .utf16BigEndian => decoded (Utf16.decode? .bigEndian bytes)
  | .utf16 =>
    match bytes with
    | 0xFF :: 0xFE :: rest => decoded (Utf16.decode? .littleEndian rest)
    | 0xFE :: 0xFF :: rest => decoded (Utf16.decode? .bigEndian rest)
    | [] => .ok []
    | _ => (decoded (Utf16.decode? .littleEndian bytes)).bind fun _ => .error .unmarked

def encode (e : Encoding) (t : Text) : Except EncodingError Bytes :=
  let bytes := match e with
    | .utf8 => Utf8.encode? t
    | .utf8Marked => (Utf8.encode? t).map (utf8Mark ++ ·)
    | .ascii => SingleByte.encode? (SingleByte.toDirect 0x80) t
    | .latin1 => SingleByte.encode? (SingleByte.toDirect 0x100) t
    | .page1252 => SingleByte.encode? SingleByte.toPage1252 t
    | .utf16LittleEndian => Utf16.encode? .littleEndian t
    | .utf16BigEndian => Utf16.encode? .bigEndian t
    | .utf16 => (Utf16.encode? .littleEndian t).map ([0xFF, 0xFE] ++ ·)
  match bytes with
  | some bytes => .ok bytes
  | none => .error .unencodable

def codec (e : Encoding) : Codec := ⟨e.decode, e.encode⟩

end Encoding

end Phrasing
