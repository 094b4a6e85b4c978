/-
  Phrasing/Text/CodePoint.lean
  ============================
  **Text as a list of code points.**

  Training data is read from files in which a string may name a surrogate that
  has no partner.  Such a string can be loaded, compared and counted; it only
  fails to be written.  So text is a list of *all* code points, surrogates
  included, and `CodePoint.IsScalar` marks those that a file can hold.
-/

namespace Phrasing

/-! ### Code points -/

/-- A code point, surrogates included. -/
structure CodePoint where
  val : Nat
  isLt : val < 0x110000
deriving DecidableEq

namespace CodePoint

theorem ext_val {a b : CodePoint} (h : a.val = b.val) : a = b := by
  cases a; cases b; simp_all

theorem char_val_lt (c : Char) : c.val.toNat < 0x110000 := by
  have h := c.valid
  simp only [UInt32.isValidChar, Nat.isValidChar] at h
  omega

def ofChar (c : Char) : CodePoint := ⟨c.val.toNat, char_val_lt c⟩

instance : Coe Char CodePoint := ⟨ofChar⟩

def ofNat? (n : Nat) : Option CodePoint :=
  if h : n < 0x110000 then some ⟨n, h⟩ else none

/-- Either half of a surrogate pair. -/
def isSurrogate (c : CodePoint) : Bool := 0xD800 ≤ c.val && c.val ≤ 0xDFFF

/-- A code point that stands for a character: anything but a surrogate. -/
def IsScalar (c : CodePoint) : Prop := c.isSurrogate = false

instance (c : CodePoint) : Decidable c.IsScalar := inferInstanceAs (Decidable (_ = _))

def toChar? (c : CodePoint) : Option Char :=
  if c.isSurrogate then none else some (Char.ofNat c.val)

/-- The code point that stands for one that cannot be told. -/
def replacement : CodePoint := ⟨0xFFFD, by decide⟩

/-- The code point named by the two halves of a surrogate pair. -/
def ofSurrogates (high low : Nat) : CodePoint :=
  if h : 0x10000 + (high - 0xD800) * 0x400 + (low - 0xDC00) < 0x110000 then ⟨_, h⟩
  else replacement

/-- The two halves of the surrogate pair of a code point beyond the first plane. -/
def surrogates (c : CodePoint) : Nat × Nat :=
  (0xD800 + (c.val - 0x10000) / 0x400, 0xDC00 + (c.val - 0x10000) % 0x400)

/-- Membership in a table of closed ranges. -/
def within (c : CodePoint) (ranges : List (Nat × Nat)) : Bool :=
  ranges.any fun r => r.1 ≤ c.val && c.val ≤ r.2

end CodePoint

/-! ### Text -/

/-- A string of code points. -/
abbrev Text := List CodePoint

namespace Text

def ofString (s : String) : Text := s.toList.map CodePoint.ofChar

instance : Coe String Text := ⟨ofString⟩

/-- Text that a file can hold. -/
def IsScalar (t : Text) : Prop := ∀ c ∈ t, c.IsScalar

instance (t : Text) : Decidable t.IsScalar := inferInstanceAs (Decidable (∀ c ∈ t, _))

/-- The string of a text, with the replacement character in the place of each surrogate. -/
def toStringLossy (t : Text) : String :=
  String.ofList (t.map fun c => c.toChar?.getD '\uFFFD')

def join (separator : Text) (parts : List Text) : Text := List.intercalate separator parts

/-- Text order, by the first code point that differs. -/
def le : Text → Text → Bool
  | [], _ => true
  | _ :: _, [] => false
  | a :: s, b :: t => if a = b then le s t else a.val < b.val

/-- Whether the text begins with the given one. -/
def startsWith (head t : Text) : Bool := head.isPrefixOf t

end Text

end Phrasing
