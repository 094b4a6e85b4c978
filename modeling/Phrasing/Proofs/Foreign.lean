/-
  Phrasing/Proofs/Foreign.lean
  ============================
  **A row of parts is its sentence, and any other row is refused.**

  As long as nothing foreign stands in a row, whatever is done to it comes out as
  for the sentence of its parts.  A foreign value leaves the row without a text,
  stops its filling where it is met, and keeps a row with a placeholder from being
  expanded.  What such a row is refused for depends on what an expansion of its
  parts would have reported, since every event tells the text of the sentence.
-/
import Phrasing.Expansion.Foreign
import Phrasing.Proofs.Losses

namespace Phrasing

/-- The row of the parts of a sentence. -/
def Sentence.row (s : Sentence) : Row := s.map .part

/-- No event is due exactly if every slot has a value and no cap cuts. -/
theorem Sentence.lossEvents_eq_nil_iff {table : SynonymTable} {cap : Option Cap}
    {intent : Option Text} {s : Sentence} :
    s.lossEvents table cap intent = [] ↔
      s.emptySlotEvents table none = [] ∧ cap.all (s.countVariants table ≤ ·.size) = true := by
  have hslots : s.emptySlotEvents table none = [] ↔ s.unfillable table = [] := by
    rw [emptySlotEvents, List.map_eq_nil_iff, unfillable]
    simp only [domain_isEmpty]
  rw [hslots, countVariants_eq_total, lossEvents, List.append_eq_nil_iff,
    List.map_eq_nil_iff, List.map_eq_nil_iff]
  cases cap with
  | none => simp
  | some m => simp [Option.filter_some]

namespace Row

/-! ### Two kinds of rows -/

/-- A row is a sentence up to its first foreign value. -/
theorem exists_row_or_foreign (row : Row) :
    (∃ s : Sentence, row = s.row) ∨
      ∃ (s : Sentence) (v : Json) (rest : Row), row = s.row ++ .foreign v :: rest := by
  induction row with
  | nil => exact Or.inl ⟨[], rfl⟩
  | cons item row ih =>
    cases item with
    | foreign v => exact Or.inr ⟨[], v, row, rfl⟩
    | part p =>
      rcases ih with ⟨s, rfl⟩ | ⟨s, v, rest, rfl⟩
      · exact Or.inl ⟨p :: s, rfl⟩
      · exact Or.inr ⟨p :: s, v, rest, rfl⟩

section Parts

variable (s : Sentence)

theorem sentence?_row : sentence? s.row = some s := by
  induction s with
  | nil => rfl
  | cons p s ih =>
    change (sentence? (Sentence.row s)).map (p :: ·) = _
    rw [ih]
    rfl

theorem untilForeign_row : untilForeign s.row = (s, none) := by
  induction s with
  | nil => rfl
  | cons p s ih =>
    change (p :: (untilForeign (Sentence.row s)).1, (untilForeign (Sentence.row s)).2) = _
    rw [ih]

theorem parts_row : parts s.row = s := by
  induction s with
  | nil => rfl
  | cons p s ih =>
    change p :: parts (Sentence.row s) = _
    rw [ih]

theorem text_row : text s.row = .ok s.text := by
  rw [text, sentence, sentence?_row]
  rfl

/-- A row of parts is filled as its sentence is. -/
theorem fill_row_eq_ok_iff {values : List Text} {filled : Sentence} :
    fill s.row values = .ok filled ↔ s.fill? values = some filled := by
  rw [fill, untilForeign_row]
  dsimp only
  cases s.fill? values with
  | none => simp
  | some found => simp

/-- A row of parts is expanded as its sentence is. -/
theorem expand_row (table : SynonymTable) (cap : Option Cap) (intent : Option Text) :
    expand table cap intent s.row = .sentence (s.expand table cap intent) := by
  rw [expand, sentence?_row]
  dsimp only
  rw [parts_row]

end Parts

section Foreign

variable (s : Sentence) (v : Json) (rest : Row)

theorem sentence?_foreign : sentence? (s.row ++ .foreign v :: rest) = none := by
  induction s with
  | nil => rfl
  | cons p s ih =>
    change (sentence? (Sentence.row s ++ .foreign v :: rest)).map (p :: ·) = none
    rw [ih]
    rfl

theorem untilForeign_foreign : untilForeign (s.row ++ .foreign v :: rest) = (s, some v) := by
  induction s with
  | nil => rfl
  | cons p s ih =>
    change (p :: (untilForeign (Sentence.row s ++ .foreign v :: rest)).1,
      (untilForeign (Sentence.row s ++ .foreign v :: rest)).2) = _
    rw [ih]

theorem text_foreign : text (s.row ++ .foreign v :: rest) = .error .noText := by
  rw [text, sentence, sentence?_foreign]
  rfl

/-- Filling comes as far as the foreign value if there are values for what stands before it. -/
theorem fill_foreign (values : List Text) :
    fill (s.row ++ .foreign v :: rest) values =
      .error (if (s.fill? values).isSome then .unsupportedPart v else .outOfValues) := by
  rw [fill, untilForeign_foreign]
  dsimp only
  cases s.fill? values with
  | none => rfl
  | some filled => rfl

theorem expand_foreign (table : SynonymTable) (cap : Option Cap) (intent : Option Text) :
    let row := s.row ++ .foreign v :: rest
    row.expand table cap intent =
      if row.parts.slots.isEmpty then .unchanged else .refused (row.refusal table cap v) := by
  intro row
  have hnone : row.sentence? = none := sentence?_foreign s v rest
  have hfirst : row.untilForeign = (s, some v) := untilForeign_foreign s v rest
  rw [expand, hnone, hfirst]

end Foreign

/-! ### What a row is refused for -/

theorem refusal_eq (row : Row) (table : SynonymTable) (cap : Option Cap) (intent : Option Text)
    (v : Json) :
    row.refusal table cap v =
      if row.parts.lossEvents table cap intent = [] then .unsupportedPart v else .noText := by
  by_cases hevents : row.parts.lossEvents table cap intent = []
  · obtain ⟨hslots, hcap⟩ := Sentence.lossEvents_eq_nil_iff.mp hevents
    rw [if_pos hevents, refusal, hslots, hcap]
    rfl
  · rw [if_neg hevents, refusal]
    apply if_neg
    intro hdue
    rw [Bool.and_eq_true, List.isEmpty_iff] at hdue
    exact hevents (Sentence.lossEvents_eq_nil_iff.mpr hdue)

/-- **A row of parts is its sentence, and any other row is refused.**  A row without a foreign value
has the text of its sentence and is filled and expanded as it is.  A row with one has no text and is
never filled: either the values run out before its first foreign value is met, or that is told.
Expanding leaves it as it is if it has no placeholder, and is refused if it has one: for want of a
text if an event would be due for its parts, else for the foreign value. -/
theorem sentence_or_refused (row : Row) :
    (∃ s : Sentence, row = s.row ∧ row.text = .ok s.text ∧
      (∀ values filled, row.fill values = .ok filled ↔ s.fill? values = some filled) ∧
      ∀ table cap intent, row.expand table cap intent = .sentence (s.expand table cap intent)) ∨
    ∃ (s : Sentence) (v : Json) (rest : Row), row = s.row ++ .foreign v :: rest ∧
      row.text = .error .noText ∧
      (∀ values, row.fill values =
        .error (if (s.fill? values).isSome then .unsupportedPart v else .outOfValues)) ∧
      ∀ table cap intent, row.expand table cap intent =
        if row.parts.slots.isEmpty then .unchanged
        else .refused
          (if row.parts.lossEvents table cap intent = [] then .unsupportedPart v else .noText) := by
  rcases row.exists_row_or_foreign with ⟨s, rfl⟩ | ⟨s, v, rest, rfl⟩
  · exact Or.inl ⟨s, rfl, text_row s, fun _ _ => fill_row_eq_ok_iff s, expand_row s⟩
  · refine Or.inr ⟨s, v, rest, rfl, text_foreign s v rest, fill_foreign s v rest, ?_⟩
    intro table cap intent
    rw [expand_foreign, refusal_eq _ table cap intent]

/-! ### Rows of placeholders -/

/-- The placeholder of a slot. -/
def placeholder (slot : Slot) : Item := .part (.synonym slot.entity slot.optional)

theorem slots_cons (item : Item) (row : Row) :
    slots (item :: row) = (slotOf item).bind fun slot => (slots row).map (slot :: ·) := by
  rw [slots, List.mapM_cons]
  cases slotOf item with
  | error e => rfl
  | ok slot =>
    rw [slots]
    cases List.mapM slotOf row with
    | error e => rfl
    | ok rest => rfl

/-- A row tells slots exactly if it holds nothing but their placeholders. -/
theorem slots_eq_ok_iff {row : Row} {found : List Slot} :
    row.slots = .ok found ↔ row = found.map placeholder := by
  constructor
  · intro h
    induction row generalizing found with
    | nil =>
      cases h
      rfl
    | cons item row ih =>
      rw [slots_cons] at h
      cases item with
      | foreign v => cases h
      | part p =>
        cases p with
        | text | reference => cases h
        | synonym entity optional =>
          cases hrow : slots row with
          | error e =>
            rw [hrow] at h
            cases h
          | ok rest =>
            rw [hrow] at h
            cases h
            rw [ih hrow]
            rfl
  · rintro rfl
    induction found with
    | nil => rfl
    | cons slot found ih =>
      rw [List.map_cons, slots_cons, ih]
      rfl

end Row

end Phrasing
