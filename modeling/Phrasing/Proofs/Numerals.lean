/-
  Phrasing/Proofs/Numerals.lean
  =============================
  **A floating-point number is written as a numeral.**

  The shortest digits of a finite number, without the zeros at their end, are
  placed around a point or before an exponent.  Either way the text has the form
  of a number with a fraction or an exponent, so it is read as a floating-point
  number and never as an integer, and it ends where the number ends.
-/
import Mathlib.Data.List.TakeWhile
import Phrasing.Json.Writer
import Phrasing.Proofs.Tokens

namespace Phrasing

/-! ### Shortest digits -/

namespace Double

theorem ne_zero_of_readsBack {digits mantissa : Nat} {exponent scale : Int} (h : mantissa ≠ 0)
    (hback : (ofDecimal false digits scale == .finite false mantissa exponent) = true) :
    digits ≠ 0 := by
  rintro rfl
  have hzero : ofDecimal false 0 scale = .finite false 0 (-1074) := rfl
  rw [hzero, beq_iff_eq] at hback
  injection hback with _ hmantissa _
  exact h hmantissa.symm

theorem div_le_roundDiv (num den : Nat) : num / den ≤ roundDiv num den := by
  unfold roundDiv
  dsimp only
  split
  · exact Nat.le_refl _
  · split
    · exact Nat.le_succ _
    · split
      · exact Nat.le_refl _
      · exact Nat.le_succ _

theorem onGrid?_ne_zero {mantissa : Nat} {exponent scale : Int} {found : Nat × Int}
    (h : mantissa ≠ 0) (hfound : onGrid? mantissa exponent scale = some found) :
    found.1 ≠ 0 := by
  unfold onGrid? at hfound
  dsimp only at hfound
  split at hfound
  · rename_i hlow _
    obtain rfl := Option.some.inj hfound
    have hquotient := ne_zero_of_readsBack h hlow
    exact fun hround => hquotient (Nat.le_zero.mp (hround ▸ div_le_roundDiv _ _))
  · rename_i hlow _
    obtain rfl := Option.some.inj hfound
    exact ne_zero_of_readsBack h hlow
  · obtain rfl := Option.some.inj hfound
    exact Nat.succ_ne_zero _
  · cases hfound

/-- The shortest digits of a number other than zero are not zero, or they stand at the point. -/
theorem shortest_ne_zero {mantissa : Nat} {exponent : Int} (h : mantissa ≠ 0) :
    (shortest mantissa exponent).1 ≠ 0 ∨ shortest mantissa exponent = (0, 0) := by
  unfold shortest
  dsimp only
  cases hsome : (List.range 17).findSome? fun (count : Nat) =>
      onGrid? mantissa exponent
        (leadingPower (toRatio mantissa exponent).1 (toRatio mantissa exponent).2 - count) with
  | none => exact Or.inr rfl
  | some found =>
    obtain ⟨count, -, hfound⟩ := List.exists_of_findSome?_eq_some hsome
    exact Or.inl (onGrid?_ne_zero h hfound)

end Double

/-! ### Digits around the point -/

namespace Json

/-- The number is not written as an integer. -/
def Numeral.HasFraction (n : Numeral) : Prop := n.fraction ≠ [] ∨ n.power ≠ none

/-- The text is that of a number without a sign that is not written as an integer. -/
def IsDecimal (t : Text) : Prop :=
  ∃ n : Numeral, n.negative = false ∧ n.IsWritten ∧ n.HasFraction ∧ t = n.text

section Decimal

variable {d : Nat} {rest fraction : List Nat}

theorem isDecimal_point (d : Nat) (rest fraction : List Nat) (hwhole : ∀ e ∈ d :: rest, e < 10)
    (hzero : d = 0 → rest = []) (hfraction : ∀ e ∈ fraction, e < 10) (hsome : fraction ≠ []) :
    IsDecimal ((d :: rest).map digitCodePoint ++
      ('.' : CodePoint) :: fraction.map digitCodePoint) := by
  refine ⟨⟨false, d :: rest, fraction, none⟩, rfl, ⟨⟨d, rest, rfl, hzero⟩, hwhole, hfraction, ?_⟩,
    Or.inl hsome, ?_⟩
  · exact fun p hp => nomatch hp
  · obtain ⟨e, tail, rfl⟩ := List.exists_cons_of_ne_nil hsome
    rw [Numeral.text, fractionText, powerText, List.append_nil]
    rfl

theorem exists_exponentText (power : Int) :
    ∃ digits : List Nat, digits ≠ [] ∧ (∀ e ∈ digits, e < 10) ∧
      powerText (some (decide (power < 0), digits)) =
        ('e' : CodePoint) :: Double.exponentText power := by
  have hdigits : ∀ e ∈ decimalDigits power.natAbs, e < 10 := fun _ he => lt_of_mem_decimalDigits he
  by_cases hshort : ((decimalDigits power.natAbs).map digitCodePoint).length < 2
  · refine ⟨0 :: decimalDigits power.natAbs, List.cons_ne_nil _ _, ?_, ?_⟩
    · exact List.forall_mem_cons.mpr ⟨by decide, hdigits⟩
    · rw [powerText, Double.exponentText, Text.ofNat_eq_map]
      simp only [decide_eq_true_eq, if_pos hshort]
      rfl
  · refine ⟨decimalDigits power.natAbs, decimalDigits_ne_nil _, hdigits, ?_⟩
    rw [powerText, Double.exponentText, Text.ofNat_eq_map]
    simp only [decide_eq_true_eq, if_neg hshort]

theorem isDecimal_power (hd : d < 10) (hfraction : ∀ e ∈ fraction, e < 10) (power : Int) :
    IsDecimal (digitCodePoint d ::
      (fractionText fraction ++ ('e' : CodePoint) :: Double.exponentText power)) := by
  obtain ⟨digits, hsome, hdigits, htext⟩ := exists_exponentText power
  refine ⟨⟨false, [d], fraction, some (decide (power < 0), digits)⟩, rfl,
    ⟨⟨d, [], rfl, fun _ => rfl⟩, ?_, hfraction, ?_⟩, Or.inr (Option.some_ne_none _), ?_⟩
  · exact List.forall_mem_singleton.mpr hd
  · rintro p ⟨rfl⟩
    exact ⟨hsome, hdigits⟩
  · rw [Numeral.text, htext]
    rfl

/-- Digits that do not start with a zero, the first of them at a power of ten. -/
theorem isDecimal_place (hdigits : ∀ e ∈ d :: rest, e < 10) (hd : d ≠ 0) (power : Int) :
    IsDecimal (Double.place ((d :: rest).map digitCodePoint) power) := by
  have hzeros : ∀ k, List.replicate k ('0' : CodePoint) =
      (List.replicate k 0).map digitCodePoint := by
    intro k
    rw [List.map_replicate]
    rfl
  have hrest : ∀ e ∈ rest, e < 10 := fun e he => hdigits e (List.mem_cons_of_mem d he)
  have hpadded : ∀ k, ∀ e ∈ List.replicate k 0, e < 10 := by
    intro k e he
    rw [List.eq_of_mem_replicate he]
    decide
  unfold Double.place
  split
  · split
    · -- below one: a zero, the point, and zeros before the digits
      have hfraction : ∀ e ∈ List.replicate ((-power).toNat - 1) 0 ++ d :: rest, e < 10 :=
        List.forall_mem_append.mpr ⟨hpadded _, hdigits⟩
      have hpoint := isDecimal_point 0 [] _ (by decide) (fun _ => rfl) hfraction (by simp)
      rw [List.map_append] at hpoint
      rw [hzeros]
      exact hpoint
    · dsimp only
      split
      · -- no digit stands behind the point
        have hwhole : ∀ k, ∀ e ∈ d :: (rest ++ List.replicate k 0), e < 10 := by
          intro k
          rw [← List.cons_append]
          exact List.forall_mem_append.mpr ⟨hdigits, hpadded k⟩
        have hpoint := fun k => isDecimal_point d _ [0] (hwhole k) (fun h => absurd h hd)
          (by decide) (List.cons_ne_nil _ _)
        simp only [← List.cons_append, List.map_append] at hpoint
        rw [hzeros]
        exact hpoint _
      · rename_i hlong
        have hsplit : rest.drop power.toNat ≠ [] := by
          rw [List.length_map, List.length_cons] at hlong
          rw [ne_eq, List.drop_eq_nil_iff]
          omega
        have hwhole : ∀ e ∈ d :: rest.take power.toNat, e < 10 :=
          List.forall_mem_cons.mpr ⟨hdigits d List.mem_cons_self, fun e he =>
            hrest e (List.mem_of_mem_take he)⟩
        have hpoint := isDecimal_point _ _ _ hwhole (fun h => absurd h hd)
          (fun e he => hrest e (List.mem_of_mem_drop he)) hsplit
        rw [← List.map_take, ← List.map_drop, List.take_succ_cons, List.drop_succ_cons,
          List.append_assoc]
        exact hpoint
  · have hpower := isDecimal_power (hdigits d List.mem_cons_self) hrest power
    cases rest with
    | nil => exact hpower
    | cons e tail =>
      rw [List.map_cons, List.map_cons]
      dsimp only
      rw [List.append_assoc]
      exact hpower

end Decimal

/-! ### Finite numbers -/

/-- Digits that do not start with a zero still start with their first digit when the zeros at their
end are dropped. -/
theorem exists_dropZeros {d : Nat} {rest : List Nat} (hdigits : ∀ e ∈ d :: rest, e < 10)
    (hd : d ≠ 0) :
    ∃ kept, (∀ e ∈ d :: kept, e < 10) ∧
      (((d :: rest).map digitCodePoint).reverse.dropWhile (· == ('0' : CodePoint))).reverse =
        (d :: kept).map digitCodePoint := by
  have hnonzero : ∀ e < 10, e ≠ 0 → (digitCodePoint e == '0') = false := by decide
  rw [← List.map_reverse, List.dropWhile_map, ← List.map_reverse]
  generalize hkept : ((d :: rest).reverse.dropWhile
    ((· == ('0' : CodePoint)) ∘ digitCodePoint)).reverse = kept
  have hleads : kept <+: d :: rest := by
    rw [← hkept, ← List.reverse_suffix, List.reverse_reverse]
    exact List.dropWhile_suffix _
  cases kept with
  | nil =>
    have hall := List.dropWhile_eq_nil_iff.mp (List.reverse_eq_nil_iff.mp hkept) d
      (List.mem_reverse.mpr List.mem_cons_self)
    rw [Function.comp_apply, hnonzero d (hdigits d List.mem_cons_self) hd] at hall
    cases hall
  | cons e kept =>
    obtain ⟨rfl, -⟩ := List.cons_prefix_cons.mp hleads
    exact ⟨kept, fun f hf => hdigits f (hleads.subset hf), rfl⟩

theorem isDecimal_finiteText_false (mantissa : Nat) (exponent : Int) :
    IsDecimal (Double.finiteText false mantissa exponent) := by
  have hzero : IsDecimal "0.0" :=
    isDecimal_point 0 [] [0] (by decide) (fun _ => rfl) (by decide)
      (List.cons_ne_nil _ _)
  unfold Double.finiteText
  dsimp only
  rw [if_neg Bool.false_ne_true]
  split
  · exact hzero
  · rename_i hmantissa
    rcases hshortest : Double.shortest mantissa exponent with ⟨n, scale⟩
    dsimp only
    obtain ⟨d, rest, hdigits⟩ := List.exists_cons_of_ne_nil (decimalDigits_ne_nil n)
    have hlt : ∀ e ∈ d :: rest, e < 10 := fun e he => lt_of_mem_decimalDigits (hdigits ▸ he)
    rw [Text.ofNat_eq_map, hdigits]
    by_cases hd : d = 0
    · -- the digits are those of zero, which stand for no number but zero
      subst hd
      obtain rfl := decimalDigits_of_head_zero hdigits
      have hn : n = 0 := by
        rw [← ofDigitValues_decimalDigits n, hdigits]
        rfl
      subst hn
      rcases Double.shortest_ne_zero hmantissa with hne | hplain
      · rw [hshortest] at hne
        exact absurd rfl hne
      · obtain ⟨-, rfl⟩ := Prod.mk.inj (hshortest.symm.trans hplain)
        exact hzero
    · obtain ⟨kept, hkept, htext⟩ := exists_dropZeros hlt hd
      rw [htext]
      exact isDecimal_place hkept hd _

/-- A finite number is written as a numeral that is no integer. -/
theorem exists_numeral_finiteText (negative : Bool) (mantissa : Nat) (exponent : Int) :
    ∃ n : Numeral, n.IsWritten ∧ n.HasFraction ∧
      Double.finiteText negative mantissa exponent = n.text := by
  obtain ⟨n, hnegative, hn, hfraction, htext⟩ := isDecimal_finiteText_false mantissa exponent
  cases negative with
  | false => exact ⟨n, hn, hfraction, htext⟩
  | true =>
    refine ⟨{ n with negative := true }, ⟨hn.whole, hn.wholeDigits, hn.fractionDigits, hn.power⟩,
      hfraction, ?_⟩
    have hsigned : Double.finiteText true mantissa exponent =
        ('-' : CodePoint) :: Double.finiteText false mantissa exponent := rfl
    rw [hsigned, htext, Numeral.text, hnegative]
    rfl

/-! ### Floating-point numbers -/

end Json

/-- The number as which the text of a floating-point number is read. -/
def Double.told (x : Double) : Double :=
  match Json.scanScalar none (Json.renderFloat x) with
  | (.scalar (.float y), _) => y
  | _ => x

namespace Json

/-- Whatever follows a floating-point number, if it does not continue it, the number is told. -/
theorem scanScalar_renderFloat (x : Double) {rest : Text} (h : EndsNumber rest)
    (limit : Option Nat) :
    scanScalar limit (renderFloat x ++ rest) =
      (.scalar (.float x.told), (renderFloat x).length) := by
  match x with
  | .nan => rfl
  | .infinite true => rfl
  | .infinite false => rfl
  | .finite negative mantissa exponent =>
    obtain ⟨n, hn, hfraction, htext⟩ := exists_numeral_finiteText negative mantissa exponent
    obtain ⟨y, hy⟩ := Numeral.exists_lexeme hfraction
    have hscan := hn.scanScalar_append h limit
    have halone := hn.scanScalar_append endsNumber_nil none
    rw [hy] at hscan halone
    rw [List.append_nil] at halone
    rw [Double.told, renderFloat, htext, hscan, halone]

end Json

end Phrasing
