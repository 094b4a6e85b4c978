/-
  Phrasing/Proofs/Display.lean
  ============================
  **A value that is set has a plain form.**

  The type of a stored part is the plain form of whatever value stands under its
  key, and an empty type would be read as none.  So it matters that no value that
  counts as set has an empty plain form.  Only numbers need an argument: however
  a number is written, it starts with a digit or with a sign and a digit.
-/
import Phrasing.Json.Display
import Phrasing.Proofs.Numerals

namespace Phrasing.Json

theorem displayFloat_ne_nil (x : Double) : displayFloat x ≠ [] := by
  cases x with
  | finite negative mantissa exponent =>
    obtain ⟨n, hn, -, htext⟩ := exists_numeral_finiteText negative mantissa exponent
    rw [displayFloat, htext]
    exact hn.text_ne_nil
  | infinite negative => cases negative <;> decide
  | nan => decide

/-- The plain form of a value that is set is not empty. -/
theorem display_ne_nil {v : Json} (h : v.isSet = true) : v.display ≠ [] := by
  cases v with
  | null => cases h
  | bool b => cases b <;> decide
  | int n =>
    have htext : (int n).display = (Numeral.ofInt n).text := (Numeral.text_ofInt n).symm
    rw [htext]
    exact (Numeral.isWritten_ofInt n).text_ne_nil
  | float x => exact displayFloat_ne_nil x
  | str t =>
    rintro (rfl : t = [])
    cases h
  | arr items =>
    cases items with
    | nil => cases h
    | cons v rest => simp [display, displayInside, Text.ofString]
  | obj fields =>
    cases fields with
    | nil => cases h
    | cons e rest => simp [display, displayInside, Text.ofString]

end Phrasing.Json
