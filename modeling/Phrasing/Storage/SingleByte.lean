/-
  Phrasing/Storage/SingleByte.lean
  ================================
  **Encodings of one byte a code point.**

  Each is a set of code points that a byte may stand for: ASCII the first 128,
  Latin-1 the first 256, and code page 1252 is Latin-1 with punctuation and a few
  letters in the place of the second block of controls.
-/
import Phrasing.Storage.Utf8

namespace Phrasing.SingleByte

/-- The code points of bytes 0x80 to 0x9F in code page 1252; zero where a byte stands for none. -/
def page1252 : List Nat := [
  0x20AC, 0x0000, 0x201A, 0x0192, 0x201E, 0x2026, 0x2020, 0x2021,
  0x02C6, 0x2030, 0x0160, 0x2039, 0x0152, 0x0000, 0x017D, 0x0000,
  0x0000, 0x2018, 0x2019, 0x201C, 0x201D, 0x2022, 0x2013, 0x2014,
  0x02DC, 0x2122, 0x0161, 0x203A, 0x0153, 0x0000, 0x017E, 0x0178]

/-- What a byte stands for in an encoding of the first `size` code points. -/
def direct (size : Nat) (b : UInt8) : Option CodePoint :=
  if b.toNat < size then CodePoint.ofNat? b.toNat else none

/-- What a byte stands for in code page 1252. -/
def ofPage1252 (b : UInt8) : Option CodePoint :=
  if b.toNat < 0x80 ∨ 0xA0 ≤ b.toNat then CodePoint.ofNat? b.toNat
  else
    match page1252[b.toNat - 0x80]? with
    | some 0 => none
    | some n => CodePoint.ofNat? n
    | none => none

/-- The byte that stands for a code point in an encoding of the first `size` code points. -/
def toDirect (size : Nat) (c : CodePoint) : Option UInt8 :=
  if c.val < size then some c.val.toUInt8 else none

def toPage1252 (c : CodePoint) : Option UInt8 :=
  if c.val < 0x80 ∨ (0xA0 ≤ c.val ∧ c.val < 0x100) then some c.val.toUInt8
  else (page1252.idxOf? c.val).map fun i => (0x80 + i).toUInt8

def decode? (meaning : UInt8 → Option CodePoint) (bytes : Bytes) : Option Text :=
  bytes.mapM meaning

def encode? (byte : CodePoint → Option UInt8) (t : Text) : Option Bytes := t.mapM byte

end Phrasing.SingleByte
