/-
  Phrasing/Proofs/Distinct.lean
  =============================
  **Distinct values give distinct variants.**

  A value that has text but no blanks at its edges is left alone when a filled
  sentence is tidied, and no text before it is trimmed on its account.  So what
  happens to the rest of the sentence does not depend on which of such values are
  chosen: the sentence may be tidied first and filled then.  What is filled is a
  skeleton in which each placeholder has its place, and the values of a variant
  can be read off these places.
-/
import Mathlib.Data.List.Basic
import Phrasing.Proofs.Content
import Phrasing.Proofs.Run

namespace Phrasing

/-! ### Solid texts -/

/-- A text that is not empty and that trimming leaves alone. -/
structure Text.Solid (t : Text) : Prop where
  filled : t ≠ []
  trimmed : t.trim = t

namespace Text.Solid

variable {t : Text}

theorem edges (h : t.Solid) : t.startsBlank = false ∧ t.endsBlank = false := by
  have hsettled : t.settle true true = t := h.trimmed
  rw [settle_eq_self_iff] at hsettled
  exact ⟨hsettled.1 rfl, hsettled.2 rfl⟩

/-- Tidying leaves a solid text alone, wherever it stands. -/
theorem settle_eq (h : t.Solid) (first closes : Bool) : t.settle first closes = t := by
  obtain ⟨hstart, hend⟩ := h.edges
  rw [settle_eq_self_iff]
  exact ⟨fun _ => hstart, fun _ => hend⟩

/-- A solid text closes no seam. -/
theorem startsWithSpace_eq_false (h : t.Solid) : t.startsWithSpace = false := by
  have hstart := h.edges.1
  cases t with
  | nil => rfl
  | cons c rest =>
    have hspace : CodePoint.isBlank (' ' : CodePoint) = true := by decide
    have hne : c ≠ (' ' : CodePoint) := by
      rintro rfl
      simp [startsBlank, hspace] at hstart
    simpa [startsWithSpace] using hne

end Text.Solid

/-! ### Skeletons -/

/-- The part without the entity that it names, if it is a placeholder.  It begins with no space
then, as none of the solid values does that may stand in its place. -/
def Part.unnamed : Part → Part
  | .synonym _ optional => .synonym [] optional
  | p => p

namespace Sentence

/-- What tidying does to a sentence, done before its placeholders are filled with solid values. -/
def skeleton (s : Sentence) : Sentence := tidy (s.map Part.unnamed)

section Fill

variable {s filled : Sentence} {values : List Text}

theorem closesSeam_of_fill? (hsolid : ∀ v ∈ values, v.Solid) (h : s.fill? values = some filled) :
    closesSeam filled = closesSeam (s.map Part.unnamed) := by
  cases s with
  | nil =>
    obtain rfl := Option.some.inj h
    rfl
  | cons p rest =>
    cases p with
    | text t =>
      obtain ⟨tail, -, rfl⟩ := Option.map_eq_some_iff.mp h
      rfl
    | reference kind t attributes =>
      obtain ⟨tail, -, rfl⟩ := Option.map_eq_some_iff.mp h
      rfl
    | synonym entity optional =>
      cases values with
      | nil => cases h
      | cons v values =>
        have hv : v.Solid := hsolid v List.mem_cons_self
        have hkept : v ≠ omitted := hv.filled
        rw [fill?, if_neg hkept] at h
        obtain ⟨tail, -, rfl⟩ := Option.map_eq_some_iff.mp h
        exact hv.startsWithSpace_eq_false

/-- **Tidying and filling commute** where the values are solid. -/
theorem fill?_tidyFrom (hsolid : ∀ v ∈ values, v.Solid) (h : s.fill? values = some filled)
    (first : Bool) :
    (tidyFrom first (s.map Part.unnamed)).fill? values = some (tidyFrom first filled) := by
  fun_induction fill? s values generalizing filled first with
  | case1 values =>
    obtain rfl := Option.some.inj h
    rfl
  | case2 entity optional rest => cases h
  | case3 entity optional rest values =>
    -- no solid value leaves a placeholder out
    exact absurd rfl (hsolid omitted List.mem_cons_self).filled
  | case4 entity optional rest v values hv ih =>
    obtain ⟨tail, htail, rfl⟩ := Option.map_eq_some_iff.mp h
    obtain ⟨hsolid, hrest⟩ := List.forall_mem_cons.mp hsolid
    have hnext := ih hrest htail false
    rw [tidyFrom_text_cons, hsolid.settle_eq, if_neg hsolid.filled, List.map_cons, Part.unnamed,
      tidyFrom_cons_of_ne (by simp), fill?, if_neg hv, hnext]
    rfl
  | case5 t rest values ih =>
    obtain ⟨tail, htail, rfl⟩ := Option.map_eq_some_iff.mp h
    have hnext := ih hsolid htail false
    have hsame : (Part.text t).unnamed = .text t := rfl
    -- the text sees no more of what follows than whether it closes the seam
    rw [List.map_cons, hsame, tidyFrom_text_cons, tidyFrom_text_cons,
      closesSeam_of_fill? hsolid htail]
    split
    · exact hnext
    · rw [fill?, hnext]
      rfl
  | case6 kind t attributes rest values ih =>
    obtain ⟨tail, htail, rfl⟩ := Option.map_eq_some_iff.mp h
    have hnext := ih hsolid htail false
    have hsame : (Part.reference kind t attributes).unnamed = .reference kind t attributes := rfl
    rw [List.map_cons, hsame, tidyFrom_cons_of_ne (by simp), tidyFrom_cons_of_ne (by simp), fill?,
      hnext]
    rfl

/-! ### The places of values -/

/-- The values stand as literal texts at such places of a sentence. -/
def ValuesAt (places : List Nat) (values : List Text) (v : Sentence) : Prop :=
  List.Forall₂ (fun place value => v[place]? = some (.text value)) places values

theorem ValuesAt.shift {places : List Nat} {v : Sentence} (h : ValuesAt places values v) (p : Part) :
    ValuesAt (places.map (· + 1)) values (p :: v) := by
  unfold ValuesAt at h ⊢
  rw [List.forall₂_map_left_iff]
  simpa using h

theorem ValuesAt.values_eq {places : List Nat} {others : List Text} {v : Sentence}
    (h : ValuesAt places values v) (h' : ValuesAt places others v) : values = others := by
  refine List.right_unique_forall₂' ?_ h h'
  intro place value other hvalue hother
  rw [hvalue] at hother
  exact Part.text.inj (Option.some.inj hother)

theorem findIdxs_of_not_isSynonym {p : Part} (hp : p.isSynonym = false) (rest : Sentence) :
    (p :: rest).findIdxs Part.isSynonym = (rest.findIdxs Part.isSynonym).map (· + 1) := by
  rw [List.findIdxs_cons, if_neg (by simp [hp]), List.findIdxs_start]

/-- The values that a sentence is filled with, none of them empty, stand in the places of its
placeholders. -/
theorem valuesAt_of_fill? (hfilled : ∀ v ∈ values, v ≠ omitted)
    (hlength : values.length = s.slots.length) (h : s.fill? values = some filled) :
    ValuesAt (s.findIdxs Part.isSynonym) values filled := by
  fun_induction fill? s values generalizing filled with
  | case1 values =>
    rw [List.length_eq_zero_iff.mp hlength]
    exact .nil
  | case2 entity optional rest => cases h
  | case3 entity optional rest values =>
    exact absurd rfl (hfilled omitted List.mem_cons_self)
  | case4 entity optional rest v values hv ih =>
    obtain ⟨tail, htail, rfl⟩ := Option.map_eq_some_iff.mp h
    obtain ⟨-, hrest⟩ := List.forall_mem_cons.mp hfilled
    have hnext := ih hrest (Nat.succ.inj hlength) htail
    rw [List.findIdxs_cons, if_pos (by rfl), List.findIdxs_start]
    exact .cons rfl (hnext.shift _)
  | case5 t rest values ih =>
    obtain ⟨tail, htail, rfl⟩ := Option.map_eq_some_iff.mp h
    rw [findIdxs_of_not_isSynonym rfl]
    exact (ih hfilled hlength htail).shift _
  | case6 kind t attributes rest values ih =>
    obtain ⟨tail, htail, rfl⟩ := Option.map_eq_some_iff.mp h
    rw [findIdxs_of_not_isSynonym rfl]
    exact (ih hfilled hlength htail).shift _

end Fill

theorem slots_tidyFrom (first : Bool) (s : Sentence) : (tidyFrom first s).slots = s.slots := by
  induction s generalizing first with
  | nil => rfl
  | cons p rest ih =>
    cases p with
    | text t =>
      rw [tidyFrom_text_cons]
      split <;> simp [ih]
    | synonym entity optional =>
      rw [tidyFrom_cons_of_ne (by simp), slots_synonym, slots_synonym, ih]
    | reference kind t attributes =>
      rw [tidyFrom_cons_of_ne (by simp), slots_reference, slots_reference, ih]

theorem length_slots_skeleton (s : Sentence) : s.skeleton.slots.length = s.slots.length := by
  rw [skeleton, tidy, slots_tidyFrom]
  induction s with
  | nil => rfl
  | cons p rest ih => cases p <;> simpa [Part.unnamed] using ih

/-! ### Variants of solid values -/

section Solid

variable {table : SynonymTable} {s : Sentence} {values : List Text}

/-- The places of a variant's values: those of the placeholders in the skeleton. -/
def valuePlaces (s : Sentence) : List Nat := s.skeleton.findIdxs Part.isSynonym

/-- All placeholders are required, and their entities have distinct and solid values. -/
structure SolidSlots (table : SynonymTable) (s : Sentence) : Prop where
  required : ∀ slot ∈ s.slots, slot.optional = false
  distinct : ∀ slot ∈ s.slots, (table.values slot.entity).Nodup
  solid : ∀ slot ∈ s.slots, ∀ v ∈ table.values slot.entity, v.Solid

theorem SolidSlots.of_mem_domains (h : s.SolidSlots table) {domain : List Text}
    (hdomain : domain ∈ s.domains table) : domain.Nodup ∧ ∀ v ∈ domain, v.Solid := by
  obtain ⟨slot, hslot, rfl⟩ := List.mem_map.mp hdomain
  rw [Slot.domain, h.required slot hslot, if_neg Bool.false_ne_true]
  exact ⟨h.distinct slot hslot, h.solid slot hslot⟩

theorem SolidSlots.valuesAt_realize (h : s.SolidSlots table)
    (hvalues : values ∈ Odometer.combinations (s.domains table)) :
    ValuesAt s.valuePlaces values (s.realize values) := by
  have hsolid : ∀ v ∈ values, v.Solid := by
    intro v hv
    obtain ⟨domain, hdomain, hmem⟩ :=
      exists_right_of_mem (Odometer.forall₂_of_mem_combinations hvalues) hv
    exact (h.of_mem_domains hdomain).2 v hmem
  have hlength : values.length = s.skeleton.slots.length := by
    rw [length_slots_skeleton, Odometer.length_of_mem_combinations hvalues, length_domains]
  have hskeleton : s.skeleton.fill? values = some (s.realize values) :=
    fill?_tidyFrom hsolid (fill?_of_mem_combinations hvalues) true
  exact valuesAt_of_fill? (fun v hv => (hsolid v hv).filled) hlength hskeleton

/-- **Distinct values give distinct variants.**  If all placeholders are required and the values of
their entities are distinct, not empty, and have no blanks at their edges, then no two variants are
alike.  There are places, the same in every variant, at which variant `i` has the values of
combination `i`, in the order of the placeholders and as they are. -/
theorem nodup_variants {cap : Option Cap} {intent : Option Text} {vs : List Sentence}
    (hs : s.slots ≠ []) (hslots : s.SolidSlots table)
    (h : (s.expand table cap intent).result = .ok vs) :
    vs.Nodup ∧ ∃ places : List Nat, places.Pairwise (· < ·) ∧
      ∀ (i : Nat) (v : Sentence), vs[i]? = some v → ∃ values,
        (Odometer.combinations (s.domains table))[i]? = some values ∧
          values.length = s.slots.length ∧ ValuesAt places values v := by
  obtain ⟨rfl, -⟩ := expand_eq_of_result hs h
  constructor
  · apply List.Nodup.map_on
    · -- two variants that are alike have the same values at the same places
      intro values hvalues others hothers heq
      have hvaluesAt := hslots.valuesAt_realize (List.mem_of_mem_take hvalues)
      rw [heq] at hvaluesAt
      exact hvaluesAt.values_eq (hslots.valuesAt_realize (List.mem_of_mem_take hothers))
    · have hnodup := Odometer.nodup_combinations fun domain hdomain =>
        (hslots.of_mem_domains hdomain).1
      exact hnodup.sublist (List.take_sublist _ _)
  · refine ⟨s.valuePlaces, List.pairwise_findIdxs, ?_⟩
    intro i v hv
    obtain ⟨values, hvalues, rfl⟩ := exists_combination hv
    have hmem := List.mem_of_getElem? hvalues
    refine ⟨values, hvalues, ?_, hslots.valuesAt_realize hmem⟩
    rw [Odometer.length_of_mem_combinations hmem, length_domains]

/-- A text between the placeholders is trimmed and a blank one before a space dropped, in all
variants alike. -/
theorem nodup_variants_trains :
    let s : Sentence := [.text " From ", .synonym "city" false, .text " ", .text " to\t",
      .text "  ", .synonym "city" false, .text " "]
    let table : SynonymTable := [("city", [("Bonn" : Text), ("New York" : Text)])]
    let vs : List Sentence := [
      [.text "From ", .text "Bonn", .text " to", .text "  ", .text "Bonn"],
      [.text "From ", .text "Bonn", .text " to", .text "  ", .text "New York"],
      [.text "From ", .text "New York", .text " to", .text "  ", .text "Bonn"]]
    let cap : Cap := ⟨3, by decide⟩
    s.slots ≠ [] ∧ s.SolidSlots table ∧ (s.expand table (some cap) none).result = .ok vs ∧
      vs.Nodup ∧ ∃ places, ∀ (i : Nat) (v : Sentence), vs[i]? = some v →
        ∃ values, values.length = 2 ∧ ValuesAt places values v := by
  intro s table vs cap
  have hs : s.slots ≠ [] := by decide
  have hslot : ∀ slot ∈ s.slots, slot = ⟨"city", false⟩ := by decide
  have hsolid : ∀ v ∈ table.values "city", v ≠ [] ∧ v.trim = v := by decide
  have hslots : s.SolidSlots table := by
    refine ⟨?_, ?_, ?_⟩
    · intro slot hmem
      rw [hslot slot hmem]
    · intro slot hmem
      rw [hslot slot hmem]
      decide
    · intro slot hmem v hv
      rw [hslot slot hmem] at hv
      exact ⟨(hsolid v hv).1, (hsolid v hv).2⟩
  have htotal : s.total table = 4 := rfl
  have hcap : cap.size < s.total table := by decide
  have htell : (Text.ofNat (s.total table)).length ≤ digitLimit := by rw [htotal]; decide
  have h : (s.expand table (some cap) none).result = .ok vs := by
    rw [expand_of_cuts hs hcap htell (by decide)]
    rfl
  obtain ⟨hnodup, places, -, hplaces⟩ := nodup_variants hs hslots h
  refine ⟨hs, hslots, h, hnodup, places, ?_⟩
  intro i v hv
  obtain ⟨values, -, hlength, hvaluesAt⟩ := hplaces i v hv
  exact ⟨values, hlength, hvaluesAt⟩

end Solid

end Sentence

end Phrasing
