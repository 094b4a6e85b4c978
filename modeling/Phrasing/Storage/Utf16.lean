/-
  Phrasing/Storage/Utf16.lean
  ===========================
  **UTF-16 in either byte order.**

  A code point takes one unit of two bytes, or a surrogate pair of two units.
  Decoding refuses a surrogate without its partner and a byte that is left over.
-/
import Phrasing.Storage.Utf8

namespace Phrasing.Utf16

/-- Which byte of a unit comes first. -/
inductive Order where
  | littleEndian
  | bigEndian
deriving DecidableEq, Repr

/-! ### Encoding -/

def units (c : CodePoint) : List Nat :=
  if c.val < 0x10000 then [c.val] else [c.surrogates.1, c.surrogates.2]

def unitBytes (order : Order) (unit : Nat) : Bytes :=
  match order with
  | .littleEndian => [(unit % 0x100).toUInt8, (unit / 0x100).toUInt8]
  | .bigEndian => [(unit / 0x100).toUInt8, (unit % 0x100).toUInt8]

/-- The bytes of a text, unless it holds a surrogate. -/
def encode? (order : Order) (t : Text) : Option Bytes :=
  if t.IsScalar then some (t.flatMap fun c => (units c).flatMap (unitBytes order)) else none

/-! ### Decoding -/

/-- The unit of two bytes. -/
def unitOf (order : Order) (a b : UInt8) : Nat :=
  match order with
  | .littleEndian => b.toNat * 0x100 + a.toNat
  | .bigEndian => a.toNat * 0x100 + b.toNat

/-- The units of a byte string, last first, unless a byte is left over. -/
def unitsFrom (order : Order) (found : List Nat) : Bytes → Option (List Nat)
  | [] => some found
  | [_] => none
  | a :: b :: rest => unitsFrom order (unitOf order a b :: found) rest

/-- The text of units that are given last first; `found` holds what follows them. -/
def textOf (found : Text) : List Nat → Option Text
  | [] => some found
  | unit :: before =>
    if 0xDC00 ≤ unit ∧ unit ≤ 0xDFFF then
      match before with
      | high :: before =>
        if 0xD800 ≤ high ∧ high ≤ 0xDBFF then
          textOf (CodePoint.ofSurrogates high unit :: found) before
        else none
      | [] => none
    else
      match Utf8.scalar? 0 unit with
      | some c => textOf (c :: found) before
      | none => none

def decode? (order : Order) (bytes : Bytes) : Option Text :=
  (unitsFrom order [] bytes).bind (textOf [])

end Phrasing.Utf16
