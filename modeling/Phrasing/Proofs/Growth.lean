/-
  Phrasing/Proofs/Growth.lean
  ===========================
  **More values, more variants.**

  An entity may gain synonyms, anywhere in its list, and a required placeholder
  may become optional.  Either way a domain keeps its values in their order and
  gains others, so every variant that there was is still there, in its turn, and
  a placeholder that has no value had none before.
-/
import Phrasing.Proofs.Variants

namespace Phrasing

/-- A part is as it was, or is a required placeholder that has become optional. -/
inductive Part.Eases : Part → Part → Prop
  | same (p : Part) : Eases p p
  | optional (entity : Text) : Eases (.synonym entity false) (.synonym entity true)

/-- The same, said of slots. -/
structure Slot.Eases (slot eased : Slot) : Prop where
  entity : eased.entity = slot.entity
  optional : slot.optional = true → eased.optional = true

/-- The entities that events report to have no values for a required placeholder. -/
def Event.emptyEntities (events : List Event) : List Text :=
  (events.filter fun e => e.kind = emptyDomain).filterMap Event.entity

namespace Sentence

variable {table larger : SynonymTable} {s eased : Sentence}

/-! ### Slots of an eased sentence -/

theorem slots_eased (h : List.Forall₂ Part.Eases s eased) :
    List.Forall₂ Slot.Eases s.slots eased.slots := by
  induction h with
  | nil => exact .nil
  | @cons p _ _ _ hpart _ ih =>
    cases hpart with
    | same =>
      cases p with
      | text t => exact ih
      | synonym entity optional => exact .cons ⟨rfl, id⟩ ih
      | reference kind t attributes => exact ih
    | optional entity => exact .cons ⟨rfl, fun _ => rfl⟩ ih

theorem slots_ne_nil_of_eased (h : List.Forall₂ Part.Eases s eased) (hs : s.slots ≠ []) :
    eased.slots ≠ [] := by
  intro hnil
  have hslots := slots_eased h
  rw [hnil, List.forall₂_nil_right_iff] at hslots
  exact hs hslots

/-- Filling does not ask whether a placeholder could have been left out. -/
theorem replaceFrom_eased (h : List.Forall₂ Part.Eases s eased) (choose : Nat → Text) (k : Nat) :
    eased.replaceFrom choose k = s.replaceFrom choose k := by
  induction h generalizing k with
  | nil => rfl
  | @cons p _ _ _ hpart _ ih =>
    cases hpart with
    | same => cases p <;> simp only [replaceFrom, ih]
    | optional entity => simp only [replaceFrom, ih]

theorem realize_eased (h : List.Forall₂ Part.Eases s eased) : eased.realize = s.realize := by
  funext values
  exact congrArg tidy (replaceFrom_eased h _ 0)

/-! ### Domains that grow -/

theorem domain_sublist (hvalues : ∀ entity, (table.values entity).Sublist (larger.values entity))
    {slot slot' : Slot} (h : slot.Eases slot') :
    (slot.domain table).Sublist (slot'.domain larger) := by
  have hentity := hvalues slot.entity
  unfold Slot.domain
  rw [h.entity]
  cases hoptional : slot.optional with
  | true =>
    rw [if_pos rfl, if_pos (h.optional hoptional)]
    exact hentity.append (List.Sublist.refl _)
  | false =>
    rw [if_neg Bool.false_ne_true]
    split
    · exact hentity.trans (List.sublist_append_left _ _)
    · exact hentity

theorem domains_sublist
    (hvalues : ∀ entity, (table.values entity).Sublist (larger.values entity))
    (h : List.Forall₂ Part.Eases s eased) :
    List.Forall₂ List.Sublist (s.domains table) (eased.domains larger) := by
  unfold domains
  rw [List.forall₂_map_left_iff, List.forall₂_map_right_iff]
  exact (slots_eased h).imp fun _ _ hslot => domain_sublist hvalues hslot

/-- A domain that is empty after it has grown was empty before. -/
theorem isEmpty_of_eases
    (hvalues : ∀ entity, (table.values entity).Sublist (larger.values entity))
    {slot slot' : Slot} (h : slot.Eases slot') (hempty : (slot'.domain larger).isEmpty = true) :
    (slot.domain table).isEmpty = true := by
  have hsublist := domain_sublist hvalues h
  rw [List.isEmpty_iff.mp hempty, List.sublist_nil] at hsublist
  rw [hsublist]
  rfl

theorem emptySlots_sublist
    (hvalues : ∀ entity, (table.values entity).Sublist (larger.values entity))
    {slots more : List Slot} (h : List.Forall₂ Slot.Eases slots more) :
    ((more.filter fun slot => (slot.domain larger).isEmpty).map Slot.entity).Sublist
      ((slots.filter fun slot => (slot.domain table).isEmpty).map Slot.entity) := by
  induction h with
  | nil => exact List.Sublist.refl _
  | @cons slot slot' _ _ hslot _ ih =>
    rw [List.filter_cons, List.filter_cons]
    by_cases hempty : (slot'.domain larger).isEmpty = true
    · rw [if_pos hempty, if_pos (isEmpty_of_eases hvalues hslot hempty), List.map_cons,
        List.map_cons, hslot.entity]
      exact ih.cons_cons slot.entity
    · rw [if_neg hempty]
      split
      · exact ih.trans (List.sublist_cons_self _ _)
      · exact ih

/-! ### Expansions without a cap -/

theorem expand_uncapped (intent : Option Text) (hs : s.slots ≠ []) :
    s.expand table none intent =
      ⟨s.emptySlotEvents table intent,
        .ok ((Odometer.combinations (s.domains table)).map s.realize)⟩ := by
  have hcap : ¬ Cap.Cuts none (s.total table) := by
    rintro ⟨m, hm, -⟩
    cases hm
  rw [expand_of_not_cuts hs hcap, variants, Cap.kept, total, ← Odometer.length_combinations,
    List.take_length]

theorem emptyEntities_emptySlotEvents (intent : Option Text) :
    Event.emptyEntities (s.emptySlotEvents table intent) =
      (s.slots.filter fun slot => (slot.domain table).isEmpty).map Slot.entity := by
  unfold Event.emptyEntities emptySlotEvents
  induction s.slots.filter fun slot => (slot.domain table).isEmpty with
  | nil => rfl
  | cons slot rest ih =>
    rw [List.map_cons, List.map_cons, ← ih]
    rfl

/-- **More values, more variants.**  Without a cap, the variants of a sentence are among those of
the sentence with some of its required placeholders made optional, over a table in which entities
have gained synonyms: in the same order and each as often.  And no entity is reported to have no
values that was not before. -/
theorem expand_grows (intent other : Option Text) (hs : s.slots ≠ [])
    (hvalues : ∀ entity, (table.values entity).Sublist (larger.values entity))
    (heased : List.Forall₂ Part.Eases s eased) :
    ∃ vs more, (s.expand table none intent).result = .ok vs ∧
      (eased.expand larger none other).result = .ok more ∧ vs.Sublist more ∧
      (Event.emptyEntities (eased.expand larger none other).events).Sublist
        (Event.emptyEntities (s.expand table none intent).events) := by
  have hs' : eased.slots ≠ [] := slots_ne_nil_of_eased heased hs
  rw [expand_uncapped intent hs, expand_uncapped other hs', emptyEntities_emptySlotEvents,
    emptyEntities_emptySlotEvents]
  refine ⟨_, _, rfl, rfl, ?_, emptySlots_sublist hvalues (slots_eased heased)⟩
  rw [realize_eased heased]
  exact (Odometer.combinations_sublist (domains_sublist hvalues heased)).map s.realize

/-- A city gains a synonym in front, and the day may be left out. -/
theorem expand_grows_city :
    let table : SynonymTable := [("city", [("Rome" : Text)]), ("day", [("now" : Text)])]
    let larger : SynonymTable :=
      [("day", [("now" : Text)]), ("city", [("Bonn" : Text), ("Rome" : Text)])]
    let s : Sentence := [.synonym "city" false, .text " ", .synonym "day" false]
    let eased : Sentence := [.synonym "city" false, .text " ", .synonym "day" true]
    s.slots ≠ [] ∧ (∀ entity, (table.values entity).Sublist (larger.values entity)) ∧
      List.Forall₂ Part.Eases s eased ∧
      ∃ vs more, (s.expand table none none).result = .ok vs ∧
        (eased.expand larger none none).result = .ok more ∧ vs.Sublist more ∧
        vs = [[.text "Rome", .text " ", .text "now"]] ∧
        more = [[.text "Bonn", .text " ", .text "now"], [.text "Bonn"],
          [.text "Rome", .text " ", .text "now"], [.text "Rome"]] := by
  intro table larger s eased
  have hs : s.slots ≠ [] := by decide
  have hvalues : ∀ entity, (table.values entity).Sublist (larger.values entity) := by
    intro entity
    by_cases hcity : entity = "city"
    · subst hcity
      decide
    · by_cases hday : entity = "day"
      · subst hday
        decide
      · have hnone : table.values entity = [] := by
          simp [table, SynonymTable.values, Entries.get?, Ne.symm hcity, Ne.symm hday]
        rw [hnone]
        exact List.nil_sublist _
  have heased : List.Forall₂ Part.Eases s eased :=
    .cons (.same _) (.cons (.same _) (.cons (.optional "day") .nil))
  refine ⟨hs, hvalues, heased, ?_⟩
  obtain ⟨vs, more, hvs, hmore, hsublist, -⟩ := expand_grows none none hs hvalues heased
  exact ⟨vs, more, hvs, hmore, hsublist, (Except.ok.inj hvs).symm, (Except.ok.inj hmore).symm⟩

end Sentence

end Phrasing
