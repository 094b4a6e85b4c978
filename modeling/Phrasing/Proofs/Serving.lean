/-
  Phrasing/Proofs/Serving.lean
  ============================
  **Where a provider stands.**

  A provider remembers for each of its lists the place of the value it served
  last.  After `n` values that is the place before `n`, counted around the list,
  so the value to come is the one at `n`, counted around.  Asking for a value of
  one list moves no other, and asking in vain moves nothing.
-/
import Phrasing.Corpus.Provider
import Phrasing.Proofs.Entries

namespace Phrasing

/-! ### Counting requests -/

section Count

variable {α β : Type} [DecidableEq β]

theorem count_append_of_ne {asked : List β} {request other : β} (h : request ≠ other) :
    (asked ++ [request]).count other = asked.count other := by
  rw [List.count_append, List.count_singleton, if_neg, Nat.add_zero]
  intro heq
  exact h (eq_of_beq heq)

theorem count_append_of_injective [DecidableEq α] {f : α → β} (hf : Function.Injective f)
    (asked : List β) (a b : α) :
    (asked ++ [f a]).count (f b) =
      if b = a then asked.count (f b) + 1 else asked.count (f b) := by
  split
  · rename_i hsame
    rw [hsame, List.count_append, List.count_singleton_self]
  · rename_i hne
    exact count_append_of_ne fun heq => hne (hf heq).symm

end Count

namespace Provider

/-! ### Places -/

/-- The place served last, after so many values of a list of `size`. -/
def lastPlace (size : Nat) : Nat → Option Nat
  | 0 => none
  | served + 1 => some (served % size)

theorem nextPlace_lastPlace {size : Nat} (h : 0 < size) (served : Nat) :
    nextPlace (lastPlace size served) size = served % size := by
  cases served with
  | zero => exact (Nat.zero_mod size).symm
  | succ served =>
    have hplace : served % size < size := Nat.mod_lt served h
    rw [lastPlace, nextPlace, ← Nat.mod_add_mod]
    split
    · rename_i hnext
      exact (Nat.mod_eq_of_lt hnext).symm
    · rename_i hend
      -- The place served last is the end of the list, so the next one is its start.
      have hwrap : served % size + 1 = size := by omega
      rw [hwrap, Nat.mod_self]

/-! ### One request -/

section Next

variable {p : Provider} {variant : Option Text}

theorem next_of_error {e : LookupError} (h : p.entity.values variant = .error e) :
    p.next variant = (.error e, p) := by
  rw [next, h]

theorem next_of_nil (h : p.entity.values variant = .ok []) :
    p.next variant = (.error .noValues, p) := by
  rw [next, h]
  rfl

theorem next_of_lastPlace {values : List Text} {served : Nat}
    (hvalues : p.entity.values variant = .ok values) (hne : values ≠ [])
    (h : p.cursors.get? variant = lastPlace values.length served) :
    ∃ v, values[served % values.length]? = some v ∧
      p.next variant =
        (.ok v, { p with cursors := p.cursors.insert variant (served % values.length) }) := by
  have hpositive : 0 < values.length := List.length_pos_iff.mpr hne
  have hplace : served % values.length < values.length := Nat.mod_lt served hpositive
  have hfound := List.getElem?_eq_getElem hplace
  refine ⟨_, hfound, ?_⟩
  rw [next, hvalues]
  dsimp only
  rw [h, nextPlace_lastPlace hpositive, hfound]

theorem entity_next (p : Provider) (variant : Option Text) :
    (p.next variant).2.entity = p.entity := by
  unfold next
  split
  · rfl
  · dsimp only
    split
    · rfl
    · rfl

end Next

/-! ### Many requests -/

/-- Whether the provider stands where it does after each list was asked so many times.  A list
without values is asked in vain. -/
def StandsAfter (p : Provider) (asked : Option Text → Nat) : Prop :=
  ∀ variant values, p.entity.values variant = .ok values → values ≠ [] →
    p.cursors.get? variant = lastPlace values.length (asked variant)

theorem standsAfter_ofEntity (entity : Entity) : (ofEntity entity).StandsAfter fun _ => 0 := by
  intro variant values _ _
  rfl

/-- Asking a list moves that list alone. -/
theorem StandsAfter.next {p : Provider} {asked : Option Text → Nat} (h : p.StandsAfter asked)
    (variant : Option Text) :
    (p.next variant).2.StandsAfter fun other =>
      if other = variant then asked other + 1 else asked other := by
  intro other values hother hne
  rw [entity_next] at hother
  dsimp only
  by_cases hsame : other = variant
  · subst hsame
    obtain ⟨v, -, hnext⟩ := next_of_lastPlace hother hne (h other values hother hne)
    rw [hnext, if_pos rfl]
    exact Entries.get?_insert_self _ _ _
  · have hold := h other values hother hne
    rw [if_neg hsame, ← hold]
    cases hlist : p.entity.values variant with
    | error e => rw [next_of_error hlist]
    | ok served =>
      by_cases hnil : served = []
      · subst hnil
        rw [next_of_nil hlist]
      · obtain ⟨v, -, hnext⟩ := next_of_lastPlace hlist hnil (h variant served hlist hnil)
        rw [hnext]
        exact Entries.get?_insert_of_ne (Ne.symm hsame) _ _

end Provider

end Phrasing
