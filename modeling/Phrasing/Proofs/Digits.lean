/-
  Phrasing/Proofs/Digits.lean
  ===========================
  **Digits spell their number.**

  The text of a natural number is the row of its digits, without a leading zero;
  the row spells the number, and its length is what the limit on digits counts.
-/
import Phrasing.Number.Integer
import Phrasing.Text.Quoted

namespace Phrasing

/-! ### Decimal digits -/

/-- The decimal digits of a number, most significant first. -/
def decimalDigits (n : Nat) : List Nat :=
  if n < 10 then [n] else decimalDigits (n / 10) ++ [n % 10]
termination_by n
decreasing_by omega

def digitCodePoint (d : Nat) : CodePoint := CodePoint.ofChar (Nat.digitChar d)

theorem Text.ofNat_eq_map (n : Nat) : Text.ofNat n = (decimalDigits n).map digitCodePoint := by
  induction n using decimalDigits.induct with
  | case1 n h =>
    rw [decimalDigits, if_pos h, Text.ofNat, Nat.toDigits_of_lt_base h]
    rfl
  | case2 n h ih =>
    have hstep : Text.ofNat n = Text.ofNat (n / 10) ++ [digitCodePoint (n % 10)] := by
      rw [Text.ofNat, Nat.toDigits_of_base_le (by decide) (Nat.le_of_not_lt h), List.map_append]
      rfl
    rw [decimalDigits, if_neg h, hstep, ih, List.map_append, List.map_singleton]

theorem length_decimalDigits (n : Nat) : (decimalDigits n).length = (Text.ofNat n).length := by
  rw [Text.ofNat_eq_map, List.length_map]

theorem lt_of_mem_decimalDigits {n d : Nat} (h : d ∈ decimalDigits n) : d < 10 := by
  induction n using decimalDigits.induct with
  | case1 n hn =>
    rw [decimalDigits, if_pos hn] at h
    rwa [List.mem_singleton.mp h]
  | case2 n hn ih =>
    rw [decimalDigits, if_neg hn] at h
    rcases List.mem_append.mp h with hfirst | hlast
    · exact ih hfirst
    · rw [List.mem_singleton.mp hlast]
      omega

theorem ofDigitValues_append (digits : List Nat) (d : Nat) :
    ofDigitValues (digits ++ [d]) = 10 * ofDigitValues digits + d := by
  rw [ofDigitValues, List.foldl_append]
  rfl

theorem powerOfTen_succ (n : Nat) : powerOfTen (n + 1) = 10 * powerOfTen n := Nat.pow_succ'

theorem powerOfTen_le {m n : Nat} (h : m ≤ n) : powerOfTen m ≤ powerOfTen n :=
  Nat.pow_le_pow_right (by decide) h

theorem ofDigitValues_lt {digits : List Nat} (h : ∀ d ∈ digits, d < 10) :
    ofDigitValues digits < powerOfTen digits.length := by
  -- the digits that were taken before are a number of their own
  have hafter : ∀ n,
      digits.foldl (fun n d => 10 * n + d) n < (n + 1) * powerOfTen digits.length := by
    induction digits with
    | nil =>
      intro n
      exact Nat.lt_of_lt_of_eq n.lt_succ_self (Nat.mul_one _).symm
    | cons d rest ih =>
      intro n
      rw [List.forall_mem_cons] at h
      have hnext : 10 * n + d + 1 ≤ (n + 1) * 10 := by omega
      rw [List.foldl_cons, List.length_cons, powerOfTen_succ]
      calc rest.foldl (fun n d => 10 * n + d) (10 * n + d)
          < (10 * n + d + 1) * powerOfTen rest.length := ih h.2 (10 * n + d)
        _ ≤ (n + 1) * 10 * powerOfTen rest.length := Nat.mul_le_mul_right _ hnext
        _ = (n + 1) * (10 * powerOfTen rest.length) := Nat.mul_assoc ..
  simpa [ofDigitValues] using hafter 0

/-- The digits of a number spell it. -/
theorem ofDigitValues_decimalDigits (n : Nat) : ofDigitValues (decimalDigits n) = n := by
  induction n using decimalDigits.induct with
  | case1 n h =>
    rw [decimalDigits, if_pos h]
    simp [ofDigitValues]
  | case2 n h ih =>
    rw [decimalDigits, if_neg h, ofDigitValues_append, ih]
    omega

theorem decimalDigits_ne_nil (n : Nat) : decimalDigits n ≠ [] := by
  rw [decimalDigits]
  split
  · exact List.cons_ne_nil _ _
  · exact List.concat_ne_nil _ _

/-- Only zero starts with the digit zero. -/
theorem decimalDigits_of_head_zero {n : Nat} {rest : List Nat}
    (h : decimalDigits n = 0 :: rest) : rest = [] := by
  induction n using decimalDigits.induct generalizing rest with
  | case1 n hn =>
    rw [decimalDigits, if_pos hn] at h
    exact (List.cons.inj h).2.symm
  | case2 n hn ih =>
    rw [decimalDigits, if_neg hn] at h
    cases hfirst : decimalDigits (n / 10) with
    | nil => exact absurd hfirst (decimalDigits_ne_nil _)
    | cons d tail =>
      rw [hfirst, List.cons_append] at h
      obtain ⟨rfl, -⟩ := List.cons.inj h
      -- the digits before the last would spell zero
      have htail := ih hfirst
      have hzero := ofDigitValues_decimalDigits (n / 10)
      rw [hfirst, htail] at hzero
      have hsmall : n / 10 = 0 := hzero.symm
      omega

theorem asciiDigit?_lt {c : CodePoint} {d : Nat} (h : c.asciiDigit? = some d) : d < 10 := by
  unfold CodePoint.asciiDigit? at h
  split at h
  · obtain rfl := Option.some.inj h
    omega
  · cases h

theorem asciiDigit?_digitCodePoint {d : Nat} (h : d < 10) :
    (digitCodePoint d).asciiDigit? = some d := by
  have hall : ∀ d < 10, (digitCodePoint d).asciiDigit? = some d := by decide
  exact hall d h

/-- A number can be told exactly if it has no more digits than may be written. -/
theorem isLongInteger_eq_false_iff (n : Nat) :
    isLongInteger n = false ↔ (Text.ofNat n).length ≤ digitLimit := by
  have hlimit : 0 < digitLimit := by decide
  rw [Text.ofNat, List.length_map, Nat.length_toDigits_le_iff (by decide) hlimit, isLongInteger,
    Int.natAbs_natCast, decide_eq_false_iff_not, Nat.not_le, powerOfTen, Nat.pow_eq]

/-! ### Hexadecimal digits -/

theorem hexValue?_hexDigit (n : Nat) : (hexDigit n).hexValue? = some (n % 16) := by
  have hall : ∀ d < 16, (CodePoint.ofChar (Nat.digitChar d)).hexValue? = some d := by decide
  exact hall (n % 16) (Nat.mod_lt n (by decide))

end Phrasing
