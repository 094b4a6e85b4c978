/-
  Phrasing/Expansion/Odometer.lean
  ================================
  **Combinations in odometer order.**

  One value from each domain, the last domain turning fastest.  The number of
  combinations is the product of the sizes, which soon is beyond counting through;
  so the first combinations are made without the others, and an empty domain,
  which leaves none, is not looked past.
-/

namespace Phrasing.Odometer

universe u

variable {α : Type u}

/-- All combinations of one value from each domain. -/
def combinations : List (List α) → List (List α)
  | [] => [[]]
  | [] :: _ => []
  | domain :: rest =>
    let tails := combinations rest
    domain.flatMap fun v => tails.map (v :: ·)

/-- The first `n` of the combinations that put each value before each tail. -/
def spread (n : Nat) (tails : List (List α)) : List α → List (List α)
  | [] => []
  | v :: domain =>
    if n = 0 then []
    else (tails.take n).map (v :: ·) ++ spread (n - tails.length) tails domain

/-- The first `n` combinations. -/
def first (n : Nat) : List (List α) → List (List α)
  | [] => [[]].take n
  | [] :: _ => []
  | domain :: rest => spread n (first n rest) domain

end Phrasing.Odometer
