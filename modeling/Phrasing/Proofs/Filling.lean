/-
  Phrasing/Proofs/Filling.lean
  ============================
  **Filling counts placeholders.**

  Filling takes values one by one while it walks over a sentence.  Here the same
  result is said by number: the `k`-th placeholder, counted from zero over the
  whole sentence, becomes the `k`-th value.  Everything else keeps its place, and
  no placeholder is left.
-/
import Phrasing.Expansion.Fill

namespace Phrasing.Sentence

/-! ### Replacing by number -/

/-- What stands in the place of a placeholder: its value as literal text, or nothing. -/
def piece (value : Text) : Sentence := if value = omitted then [] else [.text value]

/-- The sentence with its placeholders, numbered from `k` on, replaced by their values. -/
def replaceFrom (choose : Nat → Text) : Nat → Sentence → Sentence
  | _, [] => []
  | k, .synonym _ _ :: rest => piece (choose k) ++ replaceFrom choose (k + 1) rest
  | k, .text t :: rest => .text t :: replaceFrom choose k rest
  | k, .reference kind t attributes :: rest =>
    .reference kind t attributes :: replaceFrom choose k rest

/-- The sentence with its `k`-th placeholder replaced by the value of `k`. -/
def replace (choose : Nat → Text) (s : Sentence) : Sentence := replaceFrom choose 0 s

/-! ### Slots of a sentence -/

@[simp] theorem slots_nil : slots [] = [] := rfl

@[simp] theorem slots_synonym (entity : Text) (optional : Bool) (rest : Sentence) :
    slots (.synonym entity optional :: rest) = ⟨entity, optional⟩ :: slots rest := rfl

@[simp] theorem slots_text (t : Text) (rest : Sentence) : slots (.text t :: rest) = slots rest :=
  rfl

@[simp] theorem slots_reference (kind t : Text) (attributes : Entries Text Json)
    (rest : Sentence) : slots (.reference kind t attributes :: rest) = slots rest := rfl

theorem slots_eq_nil_iff (s : Sentence) : s.slots = [] ↔ ∀ p ∈ s, p.isSynonym = false := by
  induction s with
  | nil => simp
  | cons p rest ih => cases p <;> simp [Part.isSynonym, ih]

@[simp] theorem length_domains (table : SynonymTable) (s : Sentence) :
    (s.domains table).length = s.slots.length := by
  simp only [domains, List.length_map]

/-! ### Filling is replacing -/

/-- Filling with enough values replaces the `k`-th placeholder by the `k`-th value. -/
theorem fill?_eq_some {choose : Nat → Text} {s : Sentence} {values : List Text} {k : Nat}
    (h : ∀ j < s.slots.length, values[j]? = some (choose (k + j))) :
    s.fill? values = some (s.replaceFrom choose k) := by
  induction s generalizing values k with
  | nil => rfl
  | cons p rest ih =>
    cases p with
    | text t =>
      rw [fill?, ih h]
      rfl
    | reference kind t attributes =>
      rw [fill?, ih h]
      rfl
    | synonym entity optional =>
      have hfirst : values[0]? = some (choose k) := h 0 (by simp)
      cases values with
      | nil => simp at hfirst
      | cons v values =>
        obtain rfl : v = choose k := by simpa using hfirst
        have hrest : ∀ j < (slots rest).length, values[j]? = some (choose (k + 1 + j)) := by
          intro j hj
          have hnext := h (j + 1) (by simpa using hj)
          rwa [List.getElem?_cons_succ, show k + (j + 1) = k + 1 + j by omega] at hnext
        rw [fill?, ih hrest]
        by_cases hv : choose k = omitted
        · simp [replaceFrom, piece, hv]
        · simp [replaceFrom, piece, hv]

/-- A part of a filled sentence is literal text, or was there before and is no placeholder. -/
theorem mem_replaceFrom {choose : Nat → Text} {s : Sentence} {k : Nat} {p : Part}
    (h : p ∈ s.replaceFrom choose k) :
    (∃ t, p = .text t) ∨ (p ∈ s ∧ p.isSynonym = false) := by
  induction s generalizing k with
  | nil => simp [replaceFrom] at h
  | cons q rest ih =>
    have hlift : ∀ {k}, p ∈ replaceFrom choose k rest →
        (∃ t, p = .text t) ∨ (p ∈ q :: rest ∧ p.isSynonym = false) := by
      intro k hk
      rcases ih hk with htext | ⟨hmem, hno⟩
      · exact Or.inl htext
      · exact Or.inr ⟨List.mem_cons_of_mem q hmem, hno⟩
    cases q with
    | text t =>
      rcases List.mem_cons.mp h with rfl | hrest
      · exact Or.inl ⟨t, rfl⟩
      · exact hlift hrest
    | reference kind t attributes =>
      rcases List.mem_cons.mp h with rfl | hrest
      · exact Or.inr ⟨List.mem_cons_self, rfl⟩
      · exact hlift hrest
    | synonym entity optional =>
      rcases List.mem_append.mp h with hpiece | hrest
      · unfold piece at hpiece
        split at hpiece
        · exact absurd hpiece List.not_mem_nil
        · exact Or.inl ⟨_, List.mem_singleton.mp hpiece⟩
      · exact hlift hrest

end Phrasing.Sentence
