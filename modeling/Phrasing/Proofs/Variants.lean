/-
  Phrasing/Proofs/Variants.lean
  =============================
  **What an expansion yields.**

  An expansion goes one of four ways: nothing is cut off, a cap cuts variants
  off, the total is too long to be told, or the cap is too large for counting
  variants off.  Each way has an equation here, and everything else about
  expansions is read off these.  The main statement is the closed form: variant
  `i` is the tidied sentence in which placeholder `k` has the value that digit `k`
  of `i` selects from its domain.
-/
import Phrasing.Proofs.Digits
import Phrasing.Proofs.Filling
import Phrasing.Proofs.Odometer
import Phrasing.Expansion.Basic

namespace Phrasing

/-! ### Caps -/

/-- How many of `total` variants are kept. -/
def Cap.kept (cap : Option Cap) (total : Nat) : Nat :=
  match cap with
  | none => total
  | some m => min m.size total

def Cap.Cuts (cap : Option Cap) (total : Nat) : Prop := ∃ m ∈ cap, m.size < total

theorem Cap.kept_of_not_cuts {cap : Option Cap} {total : Nat} (h : ¬ Cap.Cuts cap total) :
    Cap.kept cap total = total := by
  cases cap with
  | none => rfl
  | some m =>
    have hle : total ≤ m.size := Nat.le_of_not_lt fun hlt => h ⟨m, rfl, hlt⟩
    exact Nat.min_eq_right hle

theorem Cap.kept_of_lt {m : Cap} {total : Nat} (h : m.size < total) :
    Cap.kept (some m) total = m.size := Nat.min_eq_left (Nat.le_of_lt h)

theorem Cap.kept_le (cap : Option Cap) (total : Nat) : Cap.kept cap total ≤ total := by
  cases cap with
  | none => exact Nat.le_refl total
  | some m => exact Nat.min_le_right m.size total

namespace Sentence

/-! ### Variants of combinations -/

/-- The number of combinations for a sentence: the product of the sizes of its domains. -/
def total (table : SynonymTable) (s : Sentence) : Nat := Odometer.size (s.domains table)

/-- The variant of a combination with a value for each placeholder. -/
def realize (s : Sentence) (values : List Text) : Sentence :=
  (s.replace fun k => values.getD k omitted).tidy

/-- The variants that are kept, in order. -/
def variants (table : SynonymTable) (cap : Option Cap) (s : Sentence) : List Sentence :=
  ((Odometer.combinations (s.domains table)).take (Cap.kept cap (s.total table))).map s.realize

theorem countVariants_eq_total (table : SynonymTable) (s : Sentence) :
    s.countVariants table = s.total table := by
  unfold countVariants total
  induction s.domains table with
  | nil => rfl
  | cons domain rest ih => rw [List.foldr_cons, ih, Odometer.size_cons]

theorem length_variants (table : SynonymTable) (cap : Option Cap) (s : Sentence) :
    (s.variants table cap).length = Cap.kept cap (s.total table) := by
  rw [variants, List.length_map, List.length_take, Odometer.length_combinations]
  exact Nat.min_eq_left (Cap.kept_le _ _)

/-- The variants that are kept are those of the first combinations. -/
theorem exists_combination {table : SynonymTable} {cap : Option Cap} {s v : Sentence} {i : Nat}
    (h : (s.variants table cap)[i]? = some v) :
    ∃ values, (Odometer.combinations (s.domains table))[i]? = some values ∧
      s.realize values = v := by
  rw [variants, List.getElem?_map, Option.map_eq_some_iff] at h
  obtain ⟨values, hvalues, hrealize⟩ := h
  rw [List.getElem?_take] at hvalues
  split at hvalues
  · exact ⟨values, hvalues, hrealize⟩
  · cases hvalues

/-- No combination of a sentence's domains runs out of values. -/
theorem fill?_of_mem_combinations {table : SynonymTable} {s : Sentence} {values : List Text}
    (h : values ∈ Odometer.combinations (s.domains table)) :
    s.fill? values = some (s.replace fun k => values.getD k omitted) := by
  have hlength : values.length = s.slots.length := by
    rw [Odometer.length_of_mem_combinations h, length_domains]
  apply fill?_eq_some
  intro j hj
  have hvalue : j < values.length := by omega
  simp [List.getElem?_eq_getElem hvalue]

theorem variant_eq_ok {table : SynonymTable} {s : Sentence} {values : List Text}
    (h : values ∈ Odometer.combinations (s.domains table)) :
    s.variant values = .ok (s.realize values) := by
  rw [variant, fill?_of_mem_combinations h]
  rfl

theorem mapM_variant {table : SynonymTable} {s : Sentence} {chosen : List (List Text)}
    (h : ∀ values ∈ chosen, values ∈ Odometer.combinations (s.domains table)) :
    chosen.mapM s.variant = .ok (chosen.map s.realize) := by
  induction chosen with
  | nil => rfl
  | cons values rest ih =>
    have hhead := variant_eq_ok (h values List.mem_cons_self)
    have htail := ih fun other hother => h other (List.mem_cons_of_mem values hother)
    rw [List.mapM_cons, hhead, htail]
    rfl

/-! ### The ways an expansion can go -/

section Ways

variable {table : SynonymTable} {cap : Option Cap} {intent : Option Text} {s : Sentence}

theorem expand_of_slots_eq_nil (h : s.slots = []) :
    s.expand table cap intent = .pure [s] := by
  simp [expand, h]

/-- Once combinations are chosen, making their variants neither reports nor fails. -/
theorem expand_of_chosen (hs : s.slots ≠ []) {events : List Event} {n : Nat}
    (h : s.chosen table cap intent =
      ⟨events, .ok ((Odometer.combinations (s.domains table)).take n)⟩) :
    s.expand table cap intent =
      ⟨events, .ok (((Odometer.combinations (s.domains table)).take n).map s.realize)⟩ := by
  have hmap : ((Odometer.combinations (s.domains table)).take n).mapM s.variant =
      .ok (((Odometer.combinations (s.domains table)).take n).map s.realize) :=
    mapM_variant fun values hvalues => List.mem_of_mem_take hvalues
  simp [expand, hs, h, Expansion.bind, hmap]

theorem expand_of_not_cuts (hs : s.slots ≠ []) (hcap : ¬ Cap.Cuts cap (s.total table)) :
    s.expand table cap intent =
      ⟨s.emptySlotEvents table intent, .ok (s.variants table cap)⟩ := by
  have hchosen : s.chosen table cap intent =
      ⟨s.emptySlotEvents table intent,
        .ok ((Odometer.combinations (s.domains table)).take (Cap.kept cap (s.total table)))⟩ := by
    rw [Cap.kept_of_not_cuts hcap, total, ← Odometer.length_combinations, List.take_length]
    cases cap with
    | none => rfl
    | some m =>
      have hle : s.total table ≤ m.size := Nat.le_of_not_lt fun hlt => hcap ⟨m, rfl, hlt⟩
      simp [chosen, countVariants_eq_total, hle]
  exact expand_of_chosen hs hchosen

section Cut

variable {m : Cap}

theorem expand_of_cuts (hs : s.slots ≠ []) (hcap : m.size < s.total table)
    (htell : (Text.ofNat (s.total table)).length ≤ digitLimit) (hlarge : m.size ≤ Cap.largest) :
    s.expand table (some m) intent =
      ⟨s.emptySlotEvents table intent ++ [.ofCap s intent m.size (s.total table)],
        .ok (s.variants table (some m))⟩ := by
  have hshort := (isLongInteger_eq_false_iff _).mpr htell
  have hchosen : s.chosen table (some m) intent =
      ⟨s.emptySlotEvents table intent ++ [.ofCap s intent m.size (s.total table)],
        .ok ((Odometer.combinations (s.domains table)).take
          (Cap.kept (some m) (s.total table)))⟩ := by
    rw [Cap.kept_of_lt hcap]
    simp only [chosen, countVariants_eq_total, Nat.not_le.mpr hcap, hshort,
      Nat.not_lt.mpr hlarge, Odometer.first_eq_take, if_false, Bool.false_eq_true]
  exact expand_of_chosen hs hchosen

theorem expand_of_longTotal (hs : s.slots ≠ []) (hcap : m.size < s.total table)
    (htell : ¬ (Text.ofNat (s.total table)).length ≤ digitLimit) :
    s.expand table (some m) intent = ⟨s.emptySlotEvents table intent, .error .longTotal⟩ := by
  have hlong : isLongInteger (s.total table) = true := by
    rw [← isLongInteger_eq_false_iff] at htell
    exact eq_true_of_ne_false htell
  simp [expand, hs, chosen, countVariants_eq_total, Nat.not_le.mpr hcap, hlong, Expansion.bind]

theorem expand_of_capTooLarge (hs : s.slots ≠ []) (hcap : m.size < s.total table)
    (htell : (Text.ofNat (s.total table)).length ≤ digitLimit) (hlarge : ¬ m.size ≤ Cap.largest) :
    s.expand table (some m) intent =
      ⟨s.emptySlotEvents table intent ++ [.ofCap s intent m.size (s.total table)],
        .error .capTooLarge⟩ := by
  have hshort := (isLongInteger_eq_false_iff _).mpr htell
  simp [expand, hs, chosen, countVariants_eq_total, Nat.not_le.mpr hcap, hshort,
    Nat.lt_of_not_le hlarge, Expansion.bind]

end Cut

/-- Under which caps an expansion finishes: a cap that cuts variants off has to be one that can
count them off, and their total one that can be told. -/
def Finishes (table : SynonymTable) (cap : Option Cap) (s : Sentence) : Prop :=
  ∀ m ∈ cap, m.size < s.total table →
    (Text.ofNat (s.total table)).length ≤ digitLimit ∧ m.size ≤ Cap.largest

def finalEvents (table : SynonymTable) (cap : Option Cap) (intent : Option Text) (s : Sentence) :
    List Event :=
  s.emptySlotEvents table intent ++
    (cap.filter fun m => m.size < s.total table).toList.map fun m =>
      .ofCap s intent m.size (s.total table)

theorem expand_of_finishes (hs : s.slots ≠ []) (h : s.Finishes table cap) :
    s.expand table cap intent =
      ⟨s.finalEvents table cap intent, .ok (s.variants table cap)⟩ := by
  by_cases hcap : Cap.Cuts cap (s.total table)
  · obtain ⟨m, hm, hlt⟩ := hcap
    obtain rfl : cap = some m := hm
    obtain ⟨htell, hlarge⟩ := h m rfl hlt
    rw [expand_of_cuts hs hlt htell hlarge, finalEvents, Option.filter_some_pos (by simpa using hlt)]
    rfl
  · have hnone : (cap.filter fun m => m.size < s.total table) = none := by
      rw [Option.filter_eq_none_iff]
      intro m hm hlt
      exact hcap ⟨m, hm, of_decide_eq_true hlt⟩
    rw [expand_of_not_cuts hs hcap, finalEvents, hnone]
    simp

theorem expand_of_not_finishes (hs : s.slots ≠ []) (h : ¬ s.Finishes table cap) :
    ∃ e, (s.expand table cap intent).result = .error e ∧ e ≠ .outOfValues := by
  simp only [Finishes, Classical.not_forall] at h
  obtain ⟨m, hm, hlt, hno⟩ := h
  obtain rfl : cap = some m := hm
  by_cases htell : (Text.ofNat (s.total table)).length ≤ digitLimit
  · have hlarge : ¬ m.size ≤ Cap.largest := fun hle => hno ⟨htell, hle⟩
    exact ⟨.capTooLarge, by rw [expand_of_capTooLarge hs hlt htell hlarge], by decide⟩
  · exact ⟨.longTotal, by rw [expand_of_longTotal hs hlt htell], by decide⟩

theorem finishes_of_expand (hs : s.slots ≠ []) {vs : List Sentence}
    (h : (s.expand table cap intent).result = .ok vs) : s.Finishes table cap := by
  refine Classical.byContradiction fun hfinish => ?_
  obtain ⟨e, herror, -⟩ := expand_of_not_finishes hs hfinish
  rw [herror] at h
  cases h

/-- **What an expansion did**, read off its result alone. -/
theorem expand_eq_of_result (hs : s.slots ≠ []) {vs : List Sentence}
    (h : (s.expand table cap intent).result = .ok vs) :
    vs = s.variants table cap ∧
      (s.expand table cap intent).events = s.finalEvents table cap intent := by
  have hfinish := finishes_of_expand hs h
  rw [expand_of_finishes hs hfinish] at h ⊢
  exact ⟨(Except.ok.inj h).symm, rfl⟩

end Ways

/-! ### The closed form -/

/-- The variants as the odometer numbers them: variant `i` is the tidied sentence in which
placeholder `k` has the value at digit `k` of `i`. -/
def Enumerates (table : SynonymTable) (cap : Option Cap) (s : Sentence) (vs : List Sentence) :
    Prop :=
  vs.length = Cap.kept cap (s.total table) ∧
    ∀ i < vs.length, ∃ choose : Nat → Text,
      (∀ k < s.slots.length, Odometer.digit (s.domains table) i k = some (choose k)) ∧
        vs[i]? = some (s.replace choose).tidy

theorem enumerates_variants (table : SynonymTable) (cap : Option Cap) (s : Sentence) :
    s.Enumerates table cap (s.variants table cap) := by
  refine ⟨length_variants table cap s, fun i hi => ?_⟩
  rw [length_variants] at hi
  have hsize : i < s.total table := Nat.lt_of_lt_of_le hi (Cap.kept_le _ _)
  obtain ⟨values, hvalues, hdigits⟩ := Odometer.getElem?_combinations hsize
  have hlength : values.length = s.slots.length := by
    rw [Odometer.length_of_mem_combinations (List.mem_of_getElem? hvalues), length_domains]
  refine ⟨fun k => values.getD k omitted, fun k hk => ?_, ?_⟩
  · have hk' : k < values.length := by omega
    rw [← hdigits k]
    simp [List.getElem?_eq_getElem hk']
  · rw [variants, List.getElem?_map, List.getElem?_take_of_lt hi, hvalues]
    rfl

/-- **Expansion in closed form.**  A sentence without placeholders is its own only variant.  Any
other sentence has the variants that the odometer numbers, as many as there are combinations or as
the cap keeps, exactly if a cap that cuts some off is one that can count them off and their total
is one that can be told.  In no case do values run out. -/
theorem expand_enumerates (table : SynonymTable) (cap : Option Cap) (intent : Option Text)
    (s : Sentence) :
    (s.slots = [] → (s.expand table cap intent).result = .ok [s]) ∧
      (s.slots ≠ [] →
        ((∃ vs, (s.expand table cap intent).result = .ok vs ∧ s.Enumerates table cap vs) ↔
          ∀ m ∈ cap, m.size < s.total table →
            (Text.ofNat (s.total table)).length ≤ digitLimit ∧ m.size ≤ Cap.largest)) ∧
      (s.expand table cap intent).result ≠ .error .outOfValues := by
  refine ⟨fun hs => ?_, fun hs => ⟨?_, fun h => ?_⟩, fun h => ?_⟩
  · rw [expand_of_slots_eq_nil hs]
    rfl
  · rintro ⟨vs, hvs, -⟩
    exact finishes_of_expand hs hvs
  · exact ⟨_, by rw [expand_of_finishes hs h], enumerates_variants table cap s⟩
  · by_cases hs : s.slots = []
    · rw [expand_of_slots_eq_nil hs] at h
      cases h
    · by_cases hfinish : s.Finishes table cap
      · rw [expand_of_finishes hs hfinish] at h
        cases h
      · obtain ⟨e, herror, hother⟩ := expand_of_not_finishes hs hfinish
        rw [herror] at h
        exact hother (Except.error.inj h)

/-- With 64 placeholders of two values each, a cap of `2 ^ 63` would keep half of the combinations,
but is too large for counting them off. -/
theorem expand_cap_beyond_largest :
    let s : Sentence := List.replicate 64 (.synonym "a" false)
    let table : SynonymTable := [("a", [("x" : Text), ("y" : Text)])]
    let cap : Cap := ⟨9223372036854775808, by decide⟩
    s.slots ≠ [] ∧ s.total table = 18446744073709551616 ∧ cap.size < s.total table ∧
      (Text.ofNat (s.total table)).length ≤ digitLimit ∧
      (s.expand table (some cap) none).result = .error .capTooLarge := by
  intro s table cap
  have hs : s.slots ≠ [] := by decide
  have htotal : s.total table = 18446744073709551616 := by decide
  have hcap : cap.size < s.total table := by rw [htotal]; decide
  have htell : (Text.ofNat (s.total table)).length ≤ digitLimit := by rw [htotal]; decide
  refine ⟨hs, htotal, hcap, htell, ?_⟩
  rw [expand_of_capTooLarge hs hcap htell (by decide)]

end Sentence

end Phrasing
