/-
  Phrasing/Proofs/Odometer.lean
  =============================
  **Which combination stands where.**

  Combinations are numbered from zero in odometer order.  The number of a
  combination, written in the mixed radix of the domain sizes, spells its values:
  one turn of domain `k` takes as many steps as there are combinations of the
  domains after it.  So the `i`-th combination takes from domain `k` the value at
  `i / (product of the sizes after k) % (size of k)`, and making the first `n`
  combinations alone gives the first `n` of all.  Domains that gain values gain
  combinations and lose none, and where no domain repeats a value no combination
  is repeated.
-/
import Mathlib.Data.List.Flatten
import Mathlib.Data.List.Forall2
import Mathlib.Data.List.Nodup
import Phrasing.Expansion.Odometer

namespace Phrasing.Odometer

universe u

variable {α : Type u}

/-! ### How many combinations there are -/

/-- The number of combinations: the product of the sizes of the domains. -/
def size : List (List α) → Nat
  | [] => 1
  | domain :: rest => domain.length * size rest

@[simp] theorem size_nil : size ([] : List (List α)) = 1 := rfl

@[simp] theorem size_cons (domain : List α) (rest : List (List α)) :
    size (domain :: rest) = domain.length * size rest := rfl

theorem size_eq_zero_iff (domains : List (List α)) : size domains = 0 ↔ [] ∈ domains := by
  induction domains with
  | nil => simp
  | cons domain rest ih =>
    rw [size_cons, Nat.mul_eq_zero, ih, List.length_eq_zero_iff, List.mem_cons]
    exact or_congr_left eq_comm

/-- The equation of `combinations` without its shortcut for an empty domain. -/
theorem combinations_cons (domain : List α) (rest : List (List α)) :
    combinations (domain :: rest) =
      domain.flatMap fun v => (combinations rest).map (v :: ·) := by
  cases domain with
  | nil => rfl
  | cons v domain => rfl

theorem length_combinations (domains : List (List α)) :
    (combinations domains).length = size domains := by
  induction domains with
  | nil => rfl
  | cons domain rest ih =>
    simp only [combinations_cons, List.length_flatMap, List.length_map, ih, List.map_const',
      List.sum_replicate_nat, size_cons]

/-- A combination has a value of each domain. -/
theorem forall₂_of_mem_combinations {domains : List (List α)} {values : List α}
    (h : values ∈ combinations domains) :
    List.Forall₂ (· ∈ ·) values domains := by
  induction domains generalizing values with
  | nil =>
    obtain rfl := List.mem_singleton.mp h
    exact .nil
  | cons domain rest ih =>
    rw [combinations_cons] at h
    obtain ⟨v, hv, hvalues⟩ := List.mem_flatMap.mp h
    obtain ⟨tail, htail, rfl⟩ := List.mem_map.mp hvalues
    exact .cons hv (ih htail)

theorem length_of_mem_combinations {domains : List (List α)} {values : List α}
    (h : values ∈ combinations domains) : values.length = domains.length :=
  (forall₂_of_mem_combinations h).length_eq

/-! ### Larger domains and domains without repetition -/

/-- A domain that gains values only gains combinations, wherever in it the values are. -/
theorem combinations_sublist {domains larger : List (List α)}
    (h : List.Forall₂ List.Sublist domains larger) :
    (combinations domains).Sublist (combinations larger) := by
  induction h with
  | nil => exact List.Sublist.refl _
  | @cons domain larger rest others hdomain _ ih =>
    rw [combinations_cons, combinations_cons]
    -- first more tails behind each value, then more values before the tails
    have htails : (domain.flatMap fun v => (combinations rest).map (v :: ·)).Sublist
        (domain.flatMap fun v => (combinations others).map (v :: ·)) :=
      List.Sublist.flatMap_right domain fun v _ => ih.map (v :: ·)
    exact htails.trans (hdomain.flatMap _)

theorem nodup_combinations {domains : List (List α)}
    (h : ∀ domain ∈ domains, domain.Nodup) : (combinations domains).Nodup := by
  induction domains with
  | nil => exact List.nodup_singleton []
  | cons domain rest ih =>
    obtain ⟨hdomain, hrest⟩ := List.forall_mem_cons.mp h
    rw [combinations_cons, List.nodup_flatMap]
    constructor
    · intro v _
      exact (ih hrest).map List.cons_injective
    · apply hdomain.imp
      intro v w hne values hv hw
      obtain ⟨tail, -, rfl⟩ := List.mem_map.mp hv
      obtain ⟨tail', -, heq⟩ := List.mem_map.mp hw
      exact hne (List.cons.inj heq).1.symm

/-! ### The first combinations -/

/-- Cutting the tails at `bound` first loses nothing among the first `n` of all, as long as the cut
is no shorter than `n`. -/
theorem spread_take (tails : List (List α)) (domain : List α) {n bound : Nat} (h : n ≤ bound) :
    spread n (tails.take bound) domain =
      (domain.flatMap fun v => tails.map (v :: ·)).take n := by
  induction domain generalizing n with
  | nil => simp [spread]
  | cons v domain ih =>
    simp only [spread, List.flatMap_cons, List.take_append, List.length_map, List.length_take]
    by_cases hn : n = 0
    · simp [hn]
    · have hrest : n - min bound tails.length = n - tails.length := by omega
      rw [if_neg hn, ih (by omega), hrest, List.take_take, Nat.min_eq_left h, List.map_take]

theorem first_eq_take (n : Nat) (domains : List (List α)) :
    first n domains = (combinations domains).take n := by
  induction domains with
  | nil => rfl
  | cons domain rest ih =>
    rw [combinations_cons]
    cases domain with
    | nil => simp [first]
    | cons v domain =>
      rw [first, ih, spread_take _ _ (Nat.le_refl n)]
      exact List.cons_ne_nil v domain

/-! ### The digits of a combination's number -/

/-- The value that domain `k` has in the `i`-th combination. -/
def digit (domains : List (List α)) (i k : Nat) : Option α :=
  domains[k]?.bind fun domain => domain[i / size (domains.drop (k + 1)) % domain.length]?

@[simp] theorem digit_zero (domain : List α) (rest : List (List α)) (i : Nat) :
    digit (domain :: rest) i 0 = domain[i / size rest % domain.length]? := rfl

@[simp] theorem digit_succ (domain : List α) (rest : List (List α)) (i k : Nat) :
    digit (domain :: rest) i (k + 1) = digit rest i k := rfl

/-- Digits see a number only modulo the number of combinations. -/
theorem digit_mod_size (domains : List (List α)) (i k : Nat) :
    digit domains (i % size domains) k = digit domains i k := by
  induction domains generalizing i k with
  | nil => rfl
  | cons domain rest ih =>
    cases k with
    | zero =>
      rw [digit_zero, digit_zero, size_cons, Nat.mul_comm, Nat.mod_mul_right_div_self,
        Nat.mod_mod]
    | succ k =>
      have hsize : size rest ∣ size (domain :: rest) := ⟨domain.length, Nat.mul_comm _ _⟩
      rw [digit_succ, digit_succ, ← ih, Nat.mod_mod_of_dvd i hsize, ih]

/-- In blocks of `tails.length`, the block says the head and the place in it the tail. -/
theorem getElem?_spread_all (tails : List (List α)) (domain : List α) {i : Nat}
    (h : 0 < tails.length) :
    (domain.flatMap fun v => tails.map (v :: ·))[i]? =
      domain[i / tails.length]?.bind fun v => tails[i % tails.length]?.map (v :: ·) := by
  induction domain generalizing i with
  | nil => simp
  | cons v domain ih =>
    rw [List.flatMap_cons]
    rcases Nat.lt_or_ge i tails.length with hi | hi
    · rw [List.getElem?_append_left (by simpa using hi), List.getElem?_map,
        Nat.div_eq_of_lt hi, Nat.mod_eq_of_lt hi]
      rfl
    · rw [List.getElem?_append_right (by simpa using hi), List.length_map, ih,
        Nat.div_eq_sub_div h hi, List.getElem?_cons_succ, Nat.mod_eq_sub_mod hi]

/-- **The odometer in closed form.**  The `i`-th combination holds, for every domain, the digit of
`i`. -/
theorem getElem?_combinations {domains : List (List α)} {i : Nat} (hi : i < size domains) :
    ∃ values, (combinations domains)[i]? = some values ∧ ∀ k, values[k]? = digit domains i k := by
  induction domains generalizing i with
  | nil =>
    have hzero : i = 0 := Nat.lt_one_iff.mp hi
    exact ⟨[], by rw [hzero]; rfl, fun k => rfl⟩
  | cons domain rest ih =>
    rw [size_cons] at hi
    have hrest : 0 < size rest := Nat.pos_of_ne_zero fun h => by simp [h] at hi
    have hlength : 0 < (combinations rest).length := by rwa [length_combinations]
    have hplace : i / size rest < domain.length := Nat.div_lt_of_lt_mul (Nat.mul_comm _ _ ▸ hi)
    obtain ⟨tail, htail, hdigits⟩ := ih (Nat.mod_lt i hrest)
    refine ⟨domain[i / size rest] :: tail, ?_, fun k => ?_⟩
    · rw [combinations_cons, getElem?_spread_all _ _ hlength, length_combinations,
        List.getElem?_eq_getElem hplace, htail]
      rfl
    · cases k with
      | zero =>
        rw [digit_zero, Nat.mod_eq_of_lt hplace, List.getElem?_eq_getElem hplace]
        rfl
      | succ k =>
        rw [List.getElem?_cons_succ, hdigits, digit_succ, digit_mod_size]

end Phrasing.Odometer
