/-
  Phrasing/Proofs/Omissions.lean
  ==============================
  **Which placeholders are left out.**

  The choice to leave an optional placeholder out is spelled as a value, the empty
  text.  So an entity that has the empty text among its synonyms says the same with
  it, and says it of its required placeholders too.  Everywhere else a placeholder
  becomes one literal text with a value of its entity, and the filled sentence has
  one part for every place that is not left out.
-/
import Phrasing.Proofs.Content

namespace Phrasing.Sentence

/-! ### The slot at a place -/

/-- The number of the placeholder that stands at a place: how many stand before it. -/
def slotNumber (s : Sentence) (place : Nat) : Nat := (slots (s.take place)).length

theorem getElem?_slots {s : Sentence} {place : Nat} {entity : Text} {optional : Bool}
    (h : s[place]? = some (.synonym entity optional)) :
    s.slots[s.slotNumber place]? = some ⟨entity, optional⟩ := by
  induction s generalizing place with
  | nil => cases h
  | cons p rest ih =>
    cases place with
    | zero =>
      obtain rfl := Option.some.inj h
      rfl
    | succ place =>
      have hrest := ih h
      cases p with
      | text t => exact hrest
      | synonym entity' optional' => exact hrest
      | reference kind t attributes => exact hrest

/-- A combination has a value of its domain for every placeholder. -/
theorem exists_value_of_combination {table : SynonymTable} {s : Sentence} {values : List Text}
    {place : Nat} {entity : Text} {optional : Bool}
    (hvalues : values ∈ Odometer.combinations (s.domains table))
    (h : s[place]? = some (.synonym entity optional)) :
    ∃ v ∈ Slot.domain table ⟨entity, optional⟩, values[s.slotNumber place]? = some v := by
  have hdomain : (s.domains table)[s.slotNumber place]? =
      some (Slot.domain table ⟨entity, optional⟩) := by
    rw [domains, List.getElem?_map, getElem?_slots h]
    rfl
  obtain ⟨hlt, hget⟩ := List.getElem?_eq_some_iff.mp hdomain
  have hrelated := Odometer.forall₂_of_mem_combinations hvalues
  have hlt' : s.slotNumber place < values.length := by rwa [hrelated.length_eq]
  refine ⟨values[s.slotNumber place], ?_, List.getElem?_eq_getElem hlt'⟩
  rw [← hget]
  exact hrelated.get hlt' hlt

/-! ### The parts of a filled sentence -/

section Parts

variable {s filled : Sentence} {values : List Text}

theorem partAt_of_synonym {place : Nat} {entity v : Text} {optional : Bool}
    (h : s[place]? = some (.synonym entity optional)) (hv : values[s.slotNumber place]? = some v) :
    s.partAt values place = if v = omitted then none else some (.text v) := by
  rw [slotNumber] at hv
  simp only [partAt, h, hv]
  by_cases hempty : v = omitted <;> simp [hempty]

theorem filterMap_partAt_cons {p : Part} {rest : Sentence} {others : List Text}
    (hshift : ∀ place, partAt (p :: rest) values (place + 1) = partAt rest others place) :
    (List.range (p :: rest).length).filterMap (partAt (p :: rest) values) =
      (partAt (p :: rest) values 0).toList ++
        (List.range rest.length).filterMap (partAt rest others) := by
  have hrest : partAt (p :: rest) values ∘ Nat.succ = partAt rest others := funext hshift
  rw [List.length_cons, List.range_succ_eq_map, List.filterMap_cons, List.filterMap_map, hrest]
  cases partAt (p :: rest) values 0 <;> rfl

/-- A filled sentence has the parts that the places of the sentence contribute, in order. -/
theorem parts_of_fill? (h : s.fill? values = some filled) :
    filled = (List.range s.length).filterMap (s.partAt values) := by
  fun_induction fill? s values generalizing filled with
  | case1 values =>
    obtain rfl := Option.some.inj h
    rfl
  | case2 entity optional rest => cases h
  | case3 entity optional rest values ih =>
    rw [filterMap_partAt_cons fun place =>
      partAt_synonym_succ rest values place entity optional omitted]
    exact ih h
  | case4 entity optional rest v values hv ih =>
    obtain ⟨tail, htail, rfl⟩ := Option.map_eq_some_iff.mp h
    have hfirst : partAt (.synonym entity optional :: rest) (v :: values) 0 =
        if v = omitted then none else some (.text v) := partAt_of_synonym rfl rfl
    rw [filterMap_partAt_cons fun place => partAt_synonym_succ rest values place entity optional v,
      hfirst, if_neg hv, ← ih htail]
    rfl
  | case5 t rest values ih =>
    obtain ⟨tail, htail, rfl⟩ := Option.map_eq_some_iff.mp h
    rw [filterMap_partAt_cons fun place => partAt_text_succ rest values place t, ← ih htail]
    rfl
  | case6 kind t attributes rest values ih =>
    obtain ⟨tail, htail, rfl⟩ := Option.map_eq_some_iff.mp h
    rw [filterMap_partAt_cons fun place =>
      partAt_reference_succ rest values place kind t attributes, ← ih htail]
    rfl

/-- Every empty value costs a part, and nothing else does. -/
theorem length_of_fill? (hlength : values.length = s.slots.length)
    (h : s.fill? values = some filled) : filled.length + values.count omitted = s.length := by
  fun_induction fill? s values generalizing filled with
  | case1 values =>
    obtain rfl := Option.some.inj h
    rw [List.length_eq_zero_iff.mp hlength]
    rfl
  | case2 entity optional rest => cases h
  | case3 entity optional rest values ih =>
    -- the placeholder counts as a part of the sentence and its value as an empty one
    have hrest := ih (Nat.succ.inj hlength) h
    rw [List.count_cons_self, List.length_cons]
    omega
  | case4 entity optional rest v values hv ih =>
    obtain ⟨tail, htail, rfl⟩ := Option.map_eq_some_iff.mp h
    have hrest := ih (Nat.succ.inj hlength) htail
    rw [List.count_cons_of_ne hv, List.length_cons, List.length_cons]
    omega
  | case5 t rest values ih =>
    obtain ⟨tail, htail, rfl⟩ := Option.map_eq_some_iff.mp h
    have hrest := ih hlength htail
    rw [List.length_cons, List.length_cons]
    omega
  | case6 kind t attributes rest values ih =>
    obtain ⟨tail, htail, rfl⟩ := Option.map_eq_some_iff.mp h
    have hrest := ih hlength htail
    rw [List.length_cons, List.length_cons]
    omega

end Parts

/-! ### What is left out -/

/-- How a sentence is filled with the values of a combination. -/
structure FillsSlots (table : SynonymTable) (s : Sentence) (values : List Text)
    (filled : Sentence) : Prop where
  /-- Each place contributes one part or none, in order. -/
  parts : filled = (List.range s.length).filterMap (s.partAt values)
  /-- A required placeholder contributes a value of its entity, unless that is empty. -/
  required : ∀ place entity, s[place]? = some (.synonym entity false) →
    ∃ v ∈ table.values entity, values[s.slotNumber place]? = some v ∧
      s.partAt values place = if v = omitted then none else some (.text v)
  /-- So does an optional one, unless it is left out. -/
  optional : ∀ place entity, s[place]? = some (.synonym entity true) →
    ∃ v ∈ table.values entity ++ [omitted], values[s.slotNumber place]? = some v ∧
      s.partAt values place = if v = omitted then none else some (.text v)
  /-- A part is missing for each empty value, and no other. -/
  length : filled.length + values.count omitted = s.length

theorem choices_of_optional (table : SynonymTable) {slot : Slot} (h : slot.optional = true) :
    (slot.domain table).length = (table.values slot.entity).length + 1 ∧
      (slot.domain table).count omitted = (table.values slot.entity).count omitted + 1 := by
  rw [Slot.domain, if_pos h, List.length_append, List.count_append, List.count_singleton_self]
  exact ⟨rfl, rfl⟩

/-- **Which placeholders are left out**: those whose value is the empty text.  An optional
placeholder is left out by the choice to do so and by every empty synonym of its entity, a required
one by the empty synonyms alone; any other value becomes one literal text in the place of its
placeholder. -/
theorem slots_filled (table : SynonymTable) (s : Sentence) :
    (∀ slot ∈ s.slots, slot.optional = true →
      (slot.domain table).length = (table.values slot.entity).length + 1 ∧
        (slot.domain table).count omitted = (table.values slot.entity).count omitted + 1) ∧
    ∀ values ∈ Odometer.combinations (s.domains table),
      ∃ filled, s.fill? values = some filled ∧ s.FillsSlots table values filled := by
  refine ⟨fun slot _ hoptional => choices_of_optional table hoptional, ?_⟩
  intro values hvalues
  have hfill := fill?_of_mem_combinations hvalues
  have hlength : values.length = s.slots.length := by
    rw [Odometer.length_of_mem_combinations hvalues, length_domains]
  refine ⟨_, hfill, parts_of_fill? hfill, ?_, ?_, length_of_fill? hlength hfill⟩
  · intro place entity hplace
    obtain ⟨v, hv, hvalue⟩ := exists_value_of_combination hvalues hplace
    exact ⟨v, hv, hvalue, partAt_of_synonym hplace hvalue⟩
  · intro place entity hplace
    obtain ⟨v, hv, hvalue⟩ := exists_value_of_combination hvalues hplace
    exact ⟨v, hv, hvalue, partAt_of_synonym hplace hvalue⟩

/-- A place with a name and an empty name, asked for twice: the second time it may be left out, in
two of three ways. -/
theorem slots_filled_empty_name :
    let raw : Json := .obj [("place", .obj [("data",
      .arr [.obj [("value", .str "Rome")], .int 5, .obj [("value", .str [])]])])]
    let table := SynonymTable.ofJson raw
    let s : Sentence := [.text "Go ", .synonym "place" false, .synonym "place" true]
    let values : List Text := ["Rome", omitted]
    values ∈ Odometer.combinations (s.domains table) ∧
      s.FillsSlots table values [.text "Go ", .text "Rome"] ∧
      (Slot.domain table ⟨"place", true⟩).length = 3 ∧
      (Slot.domain table ⟨"place", true⟩).count omitted = 2 := by
  intro raw table s values
  have hvalues : values ∈ Odometer.combinations (s.domains table) := by decide
  obtain ⟨hcount, hfills⟩ := slots_filled table s
  obtain ⟨filled, hfill, hslots⟩ := hfills values hvalues
  obtain rfl : [.text "Go ", .text "Rome"] = filled := Option.some.inj hfill
  have hmem : ⟨"place", true⟩ ∈ s.slots := by decide
  obtain ⟨hchoices, homitted⟩ := hcount _ hmem rfl
  exact ⟨hvalues, hslots, hchoices, homitted⟩

/-- A place whose one name is empty: the placeholder is required, and is left out. -/
theorem required_slot_left_out :
    let raw : Json := .obj [("place", .obj [("data", .arr [.obj [("value", .str [])]])])]
    let table := SynonymTable.ofJson raw
    let s : Sentence := [.text "Go ", .synonym "place" false, .text " now"]
    let filled : Sentence := [.text "Go ", .text " now"]
    Odometer.combinations (s.domains table) = [[omitted]] ∧ s.fill? [omitted] = some filled ∧
      (¬ ∃ v ∈ table.values "place", s.partAt [omitted] 1 = some (.text v)) ∧
      (∀ slot ∈ s.slots, slot.optional = false) ∧ filled.length ≠ s.length := by
  intro raw table s filled
  have hnone : s.partAt [omitted] 1 = none := by decide
  refine ⟨by decide, rfl, ?_, by decide, by decide⟩
  rintro ⟨v, -, hv⟩
  rw [hnone] at hv
  cases hv

end Phrasing.Sentence
