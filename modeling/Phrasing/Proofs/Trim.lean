/-
  Phrasing/Proofs/Trim.lean
  =========================
  **Trimming a text.**

  Trimming drops blanks from the edges and nothing else: a text is left as it is
  exactly if the edge in question is not blank, nothing is left of it exactly if
  it is blank throughout, and the edge that is not trimmed stays as it was.  The
  laws of the trailing edge are those of the leading edge of the reversed text.
-/
import Mathlib.Data.List.TakeWhile
import Phrasing.Text.Blank

namespace Phrasing.Text

def startsBlank (t : Text) : Bool := t.head?.any CodePoint.isBlank

def endsBlank (t : Text) : Bool := t.getLast?.any CodePoint.isBlank

/-- Whether the text holds nothing but blanks. -/
def isBlank (t : Text) : Bool := t.all CodePoint.isBlank

/-! ### The leading edge -/

theorem trimStart_eq_nil_iff (t : Text) : t.trimStart = [] ↔ t.isBlank = true := by
  rw [trimStart, List.dropWhile_eq_nil_iff, isBlank, List.all_eq_true]

/-- Trimming the leading edge drops a blank beginning. -/
theorem exists_trimStart (t : Text) : ∃ before, t = before ++ t.trimStart ∧
    before.isBlank = true := by
  refine ⟨t.takeWhile CodePoint.isBlank, List.takeWhile_append_dropWhile.symm, ?_⟩
  exact List.all_takeWhile

theorem startsBlank_trimStart (t : Text) : t.trimStart.startsBlank = false := by
  have hhead := List.head?_dropWhile_not CodePoint.isBlank t
  unfold startsBlank trimStart
  cases hfirst : (t.dropWhile CodePoint.isBlank).head? with
  | none => rfl
  | some c =>
    rw [hfirst] at hhead
    simpa using hhead

theorem trimStart_eq_self_iff (t : Text) : t.trimStart = t ↔ t.startsBlank = false := by
  constructor
  · intro h
    rw [← h]
    exact startsBlank_trimStart t
  · intro h
    cases t with
    | nil => rfl
    | cons c rest =>
      have hc : c.isBlank = false := by simpa [startsBlank] using h
      exact List.dropWhile_cons_of_neg (by simp [hc])

/-- Nothing is left after trimming twice exactly if nothing is left after trimming once. -/
theorem isBlank_trimStart (t : Text) : t.trimStart.isBlank = t.isBlank := by
  have htwice : t.trimStart.trimStart = t.trimStart :=
    (trimStart_eq_self_iff _).mpr (startsBlank_trimStart t)
  rw [Bool.eq_iff_iff, ← trimStart_eq_nil_iff, htwice, trimStart_eq_nil_iff]

theorem length_trimStart_le (t : Text) : t.trimStart.length ≤ t.length :=
  List.length_dropWhile_le _ t

/-- Trimming the leading edge does not touch the trailing one. -/
theorem getLast?_trimStart {t : Text} (h : t.trimStart ≠ []) :
    t.trimStart.getLast? = t.getLast? := by
  have hsplit : t.takeWhile CodePoint.isBlank ++ t.trimStart = t :=
    List.takeWhile_append_dropWhile
  have hlast : (t.takeWhile CodePoint.isBlank ++ t.trimStart).getLast? = t.trimStart.getLast? := by
    rw [List.getLast?_append, List.getLast?_eq_some_getLast h]
    rfl
  rw [hsplit] at hlast
  exact hlast.symm

theorem endsBlank_trimStart {t : Text} (h : t.trimStart ≠ []) :
    t.trimStart.endsBlank = t.endsBlank := by
  rw [endsBlank, endsBlank, getLast?_trimStart h]

/-! ### The trailing edge -/

theorem trimEnd_eq_reverse (t : Text) : t.trimEnd = (trimStart t.reverse).reverse := rfl

theorem endsBlank_eq_reverse (t : Text) : t.endsBlank = startsBlank t.reverse := by
  rw [endsBlank, startsBlank, List.head?_reverse]

/-- Trimming the trailing edge drops a blank end. -/
theorem exists_trimEnd (t : Text) : ∃ after, t = t.trimEnd ++ after ∧ after.isBlank = true := by
  obtain ⟨before, hsplit, hblank⟩ := exists_trimStart t.reverse
  refine ⟨before.reverse, ?_, ?_⟩
  · rw [trimEnd_eq_reverse, ← List.reverse_append, ← hsplit, List.reverse_reverse]
  · rwa [isBlank, List.all_reverse]

theorem trimEnd_eq_nil_iff (t : Text) : t.trimEnd = [] ↔ t.isBlank = true := by
  rw [trimEnd_eq_reverse, List.reverse_eq_nil_iff, trimStart_eq_nil_iff, isBlank, isBlank,
    List.all_reverse]

theorem endsBlank_trimEnd (t : Text) : t.trimEnd.endsBlank = false := by
  rw [endsBlank_eq_reverse, trimEnd_eq_reverse, List.reverse_reverse]
  exact startsBlank_trimStart t.reverse

theorem trimEnd_eq_self_iff (t : Text) : t.trimEnd = t ↔ t.endsBlank = false := by
  rw [trimEnd_eq_reverse, List.reverse_eq_iff, endsBlank_eq_reverse]
  exact trimStart_eq_self_iff t.reverse

theorem length_trimEnd_le (t : Text) : t.trimEnd.length ≤ t.length := by
  have hreverse := length_trimStart_le t.reverse
  rw [List.length_reverse] at hreverse
  rwa [trimEnd_eq_reverse, List.length_reverse]

/-- Trimming the trailing edge does not touch the leading one. -/
theorem head?_trimEnd {t : Text} (h : t.trimEnd ≠ []) : t.trimEnd.head? = t.head? := by
  have hkept : trimStart t.reverse ≠ [] := by
    rwa [trimEnd_eq_reverse, Ne, List.reverse_eq_nil_iff] at h
  rw [trimEnd_eq_reverse, List.head?_reverse, getLast?_trimStart hkept, List.getLast?_reverse]

end Phrasing.Text
