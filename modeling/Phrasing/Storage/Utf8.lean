/-
  Phrasing/Storage/Utf8.lean
  ==========================
  **UTF-8.**

  A code point takes one to four bytes.  Decoding is strict: it refuses a
  surrogate, a form longer than needed, a code point out of range, and a byte out
  of place; so every byte string that is accepted is what its text encodes to.
-/
import Phrasing.Text.CodePoint

namespace Phrasing

/-- A file's content. -/
abbrev Bytes := List UInt8

namespace Utf8

/-! ### Encoding -/

def encodeCodePoint (c : CodePoint) : Bytes :=
  let n := c.val
  if n < 0x80 then [n.toUInt8]
  else if n < 0x800 then [(0xC0 + n / 0x40).toUInt8, (0x80 + n % 0x40).toUInt8]
  else if n < 0x10000 then
    [(0xE0 + n / 0x1000).toUInt8, (0x80 + n / 0x40 % 0x40).toUInt8, (0x80 + n % 0x40).toUInt8]
  else
    [(0xF0 + n / 0x40000).toUInt8, (0x80 + n / 0x1000 % 0x40).toUInt8,
      (0x80 + n / 0x40 % 0x40).toUInt8, (0x80 + n % 0x40).toUInt8]

/-- The bytes of a text, unless it holds a surrogate. -/
def encode? (t : Text) : Option Bytes :=
  if t.IsScalar then some (t.flatMap encodeCodePoint) else none

/-! ### Decoding -/

/-- The low six bits of a byte that continues a code point. -/
def continuation? (b : UInt8) : Option Nat :=
  if 0x80 ≤ b.toNat ∧ b.toNat < 0xC0 then some (b.toNat - 0x80) else none

/-- The scalar code point of a number that is at least `least`. -/
def scalar? (least n : Nat) : Option CodePoint :=
  if n < least then none else (CodePoint.ofNat? n).filter fun c => !c.isSurrogate

/-- Decodes the rest of a byte string; `found` holds what was read, last first. -/
def decodeFrom (found : Text) : Bytes → Option Text
  | [] => some found.reverse
  | b :: rest =>
    let n := b.toNat
    if n < 0x80 then
      match scalar? 0 n with
      | some c => decodeFrom (c :: found) rest
      | none => none
    else if n < 0xC0 then none
    else if n < 0xE0 then
      match rest with
      | b₁ :: rest =>
        match continuation? b₁ with
        | some n₁ =>
          match scalar? 0x80 ((n - 0xC0) * 0x40 + n₁) with
          | some c => decodeFrom (c :: found) rest
          | none => none
        | none => none
      | _ => none
    else if n < 0xF0 then
      match rest with
      | b₁ :: b₂ :: rest =>
        match continuation? b₁, continuation? b₂ with
        | some n₁, some n₂ =>
          match scalar? 0x800 (((n - 0xE0) * 0x40 + n₁) * 0x40 + n₂) with
          | some c => decodeFrom (c :: found) rest
          | none => none
        | _, _ => none
      | _ => none
    else if n < 0xF8 then
      match rest with
      | b₁ :: b₂ :: b₃ :: rest =>
        match continuation? b₁, continuation? b₂, continuation? b₃ with
        | some n₁, some n₂, some n₃ =>
          match scalar? 0x10000 ((((n - 0xF0) * 0x40 + n₁) * 0x40 + n₂) * 0x40 + n₃) with
          | some c => decodeFrom (c :: found) rest
          | none => none
        | _, _, _ => none
      | _ => none
    else none

def decode? (bytes : Bytes) : Option Text := decodeFrom [] bytes

end Utf8

end Phrasing
