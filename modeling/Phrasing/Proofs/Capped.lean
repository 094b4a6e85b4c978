/-
  Phrasing/Proofs/Capped.lean
  ===========================
  **When a capped expansion finishes.**

  A cap is there to make do with the first variants of a sentence that has too
  many.  To cut variants off, an expansion tells how many there are and counts off
  those it keeps, and both have a bound: on the digits of the total, and on the
  cap.  Beyond either bound the expansion fails, and with it that of every intent
  and of every corpus that holds the sentence; within both it finishes.
-/
import Mathlib.Algebra.Group.Nat.Defs
import Phrasing.Proofs.Losses
import Phrasing.Proofs.Twice

namespace Phrasing

/-! ### Sentences -/

namespace Sentence

variable {table : SynonymTable} {cap : Option Cap} {s : Sentence}

theorem finishes_of_slots_eq_nil (h : s.slots = []) : s.Finishes table cap := by
  intro m _ hlt
  -- There is one variant, and no cap is below one.
  have hpositive := m.positive
  rw [total_of_slots_eq_nil h] at hlt
  omega

theorem expand_finishes_iff (intent : Option Text) :
    (∃ vs, (s.expand table cap intent).result = .ok vs) ↔ s.Finishes table cap := by
  by_cases hs : s.slots = []
  · constructor
    · intro _
      exact finishes_of_slots_eq_nil hs
    · intro _
      exact ⟨[s], by rw [expand_of_slots_eq_nil hs]; rfl⟩
  · constructor
    · rintro ⟨vs, hvs⟩
      exact finishes_of_expand hs hvs
    · intro h
      exact ⟨s.variants table cap, by rw [expand_of_finishes hs h]⟩

theorem total_replicate (table : SynonymTable) (entity : Text) (n : Nat) :
    total table (List.replicate n (.synonym entity false)) =
      (table.values entity).length ^ n := by
  induction n with
  | zero => rfl
  | succ n ih =>
    have hslots : slots (List.replicate (n + 1) (.synonym entity false)) =
        ⟨entity, false⟩ :: slots (List.replicate n (.synonym entity false)) := by
      rw [List.replicate_succ, slots_synonym]
    have hdomain : Slot.domain table ⟨entity, false⟩ = table.values entity := rfl
    rw [total, domains, hslots, List.map_cons, Odometer.size_cons, hdomain, Nat.pow_succ',
      ← ih]
    rfl

end Sentence

/-! ### Corpora -/

section Corpora

variable {table : SynonymTable} {cap : Option Cap}

theorem Intent.expand_finishes_iff {intent : Intent} :
    (∃ expanded, (intent.expand table cap).result = .ok expanded) ↔
      ∀ s ∈ intent.sentences, s.Finishes table cap := by
  rw [Intent.expand, Expansion.finishes_map_iff, Expansion.finishes_all_iff]
  apply forall₂_congr
  intro s _
  exact Sentence.expand_finishes_iff (some intent.name)

theorem Intents.expand_finishes_iff {intents : Intents} :
    (∃ expanded, (intents.expand table cap).result = .ok expanded) ↔
      ∀ e ∈ intents, ∀ s ∈ e.2.sentences, s.Finishes table cap := by
  rw [Intents.expand, Expansion.finishes_all_iff]
  apply forall₂_congr
  intro e _
  rw [Expansion.finishes_map_iff, Intent.expand_finishes_iff]

theorem Session.storedIntents_finishes_iff {session : Session} :
    (∃ out, (session.perform .storedIntents).1 = .fields out) ↔
      ∀ e ∈ session.corpus.intents, ∀ s ∈ e.2.sentences,
        s.Finishes session.corpus.synonyms session.cap := by
  rw [← Intents.expand_finishes_iff]
  constructor
  · rintro ⟨out, hout⟩
    obtain ⟨expanded, hexpanded, -⟩ := storedIntents_eq_fields hout
    exact ⟨expanded, hexpanded⟩
  · rintro ⟨expanded, hexpanded⟩
    have hresult : (session.corpus.expand session.cap).result = .ok expanded := hexpanded
    exact ⟨expanded.toFields, by simp only [perform, expanding, hresult]⟩

end Corpora

/-! ### The bounds -/

/-- **When a capped expansion finishes.**  A sentence is expanded to as many variants as it has
combinations, or to as many as the cap allows, if and only if the cap cuts nothing off or both the
total can be told and the cap can be counted off.  A session under the cap replies with the stored
intents of its tree if and only if this holds of each sentence in it. -/
theorem capped_expansion_finishes_iff (m : Cap) :
    (∀ (table : SynonymTable) (intent : Option Text) (s : Sentence),
      (∃ vs, (s.expand table (some m) intent).result = .ok vs ∧
          vs.length = min m.size (s.total table)) ↔
        (m.size < s.total table →
          (Text.ofNat (s.total table)).length ≤ digitLimit ∧ m.size ≤ Cap.largest)) ∧
    ∀ (useSynonyms : Bool) (tree : Json), ∃ session,
      Session.open? useSynonyms (some m.size) tree = some session ∧
        ((∃ out, (session.perform .storedIntents).1 = .fields out) ↔
          ∀ e ∈ session.corpus.intents, ∀ s ∈ e.2.sentences,
            m.size < s.total session.corpus.synonyms →
              (Text.ofNat (s.total session.corpus.synonyms)).length ≤ digitLimit ∧
                m.size ≤ Cap.largest) := by
  have hbounds : ∀ (table : SynonymTable) (s : Sentence),
      s.Finishes table (some m) ↔ (m.size < s.total table →
        (Text.ofNat (s.total table)).length ≤ digitLimit ∧ m.size ≤ Cap.largest) := by
    intro table s
    constructor
    · intro h
      exact h m rfl
    · rintro h _ ⟨⟩
      exact h
  constructor
  · intro table intent s
    rw [← hbounds, ← Sentence.expand_finishes_iff intent]
    constructor
    · rintro ⟨vs, hvs, -⟩
      exact ⟨vs, hvs⟩
    · rintro ⟨vs, hvs⟩
      exact ⟨vs, hvs, (Sentence.events_expand hvs).2⟩
  · intro useSynonyms tree
    refine ⟨_, Session.open?_eq_some_iff.mpr ⟨some m, rfl, rfl⟩, ?_⟩
    rw [Session.storedIntents_finishes_iff]
    apply forall₂_congr
    intro e _
    apply forall₂_congr
    intro s _
    exact hbounds _ s

/-- With 4300 placeholders of ten values each, a total of 4301 digits cannot be told, so a cap that
would keep one variant makes the expansion fail. -/
theorem capped_expansion_long_total :
    let s : Sentence := List.replicate 4300 (.synonym "a" false)
    let values : List Text := ["0", "1", "2", "3", "4", "5", "6", "7", "8", "9"]
    let table : SynonymTable := [("a", values)]
    let cap : Cap := ⟨1, by decide⟩
    s.total table = 10 ^ 4300 ∧ min cap.size (s.total table) = 1 ∧
      (s.expand table (some cap) none).result = .error .longTotal := by
  intro s values table cap
  have hvalues : (table.values "a").length = 10 := rfl
  have htotal : s.total table = 10 ^ 4300 := by rw [Sentence.total_replicate, hvalues]
  have hcap : cap.size < s.total table := by
    rw [htotal]
    apply Nat.one_lt_pow
    · decide
    · decide
  -- The digits of the total are counted by its size; nothing here writes them out.
  have hlong : ¬ (Text.ofNat (s.total table)).length ≤ digitLimit := by
    rw [← isLongInteger_eq_false_iff, htotal, isLongInteger, Int.natAbs_natCast,
      decide_eq_false_iff_not, Classical.not_not, powerOfTen, Nat.pow_eq]
    apply Nat.pow_le_pow_right
    · decide
    · exact Nat.le_refl digitLimit
  have hs : s.slots ≠ [] := by
    rw [Ne, Sentence.slots_eq_nil_iff]
    intro h
    exact absurd (h (.synonym "a" false) (List.mem_replicate.mpr ⟨by decide, rfl⟩)) (by decide)
  refine ⟨htotal, Nat.min_eq_left (Nat.le_of_lt hcap), ?_⟩
  rw [Sentence.expand_of_longTotal hs hcap hlong]

end Phrasing
