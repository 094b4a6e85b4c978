/-
  Phrasing/Proofs/Clean.lean
  ==========================
  **Clean sentences.**

  A clean sentence has no blanks at its edges, none before a part that begins
  with a space, and no empty literal text.  Tidying settles one literal text after
  the other, knowing of what stands around it only whether something stands before
  it and whether the seam after it closes.  The sentences that tidying leaves alone
  are the clean ones.
-/
import Phrasing.Expansion.Seams
import Phrasing.Proofs.Trim

namespace Phrasing

/-! ### Literal text in its place -/

/-- What tidying leaves of a literal text: `first` if nothing stands before it, `closes` if the end
or a part that begins with a space stands after it. -/
def Text.settle (first closes : Bool) (t : Text) : Text :=
  let t := if first then t.trimStart else t
  if closes then t.trimEnd else t

namespace Text

theorem settle_eq_nil_iff (first closes : Bool) (t : Text) :
    t.settle first closes = [] ↔ t = [] ∨ t.isBlank = true ∧ (first || closes) = true := by
  have hempty : t = [] → t.isBlank = true := by
    rintro rfl
    rfl
  cases first <;> cases closes
  · simp [settle]
  · have hend : settle false true t = t.trimEnd := rfl
    rw [hend, trimEnd_eq_nil_iff]
    simpa using hempty
  · have hstart : settle true false t = t.trimStart := rfl
    rw [hstart, trimStart_eq_nil_iff]
    simpa using hempty
  · have hboth : settle true true t = t.trimStart.trimEnd := rfl
    rw [hboth, trimEnd_eq_nil_iff, isBlank_trimStart]
    simpa using hempty

theorem startsBlank_settle {closes : Bool} {t : Text} (h : t.settle true closes ≠ []) :
    (t.settle true closes).startsBlank = false := by
  cases closes with
  | false => exact startsBlank_trimStart t
  | true =>
    have hhead : (t.settle true true).head? = t.trimStart.head? := head?_trimEnd h
    rw [startsBlank, hhead]
    exact startsBlank_trimStart t

theorem head?_settle {closes : Bool} {t : Text} (h : t.settle false closes ≠ []) :
    (t.settle false closes).head? = t.head? := by
  cases closes with
  | false => rfl
  | true => exact head?_trimEnd h

theorem endsBlank_settle {first closes : Bool} {t : Text} (h : t.settle first closes ≠ []) :
    (t.settle first closes).endsBlank = (!closes && t.endsBlank) := by
  cases closes with
  | true => exact endsBlank_trimEnd _
  | false =>
    cases first with
    | false => rfl
    | true => exact endsBlank_trimStart h

/-- A text is left as it is exactly if no edge that is trimmed is blank. -/
theorem settle_eq_self_iff (first closes : Bool) (t : Text) :
    t.settle first closes = t ↔
      (first = true → t.startsBlank = false) ∧ (closes = true → t.endsBlank = false) := by
  rw [← trimStart_eq_self_iff, ← trimEnd_eq_self_iff]
  cases first <;> cases closes
  · simp [settle]
  · simp [settle]
  · simp [settle]
  · simp only [settle, if_true, forall_const]
    constructor
    · intro h
      have hlength : t.length ≤ t.trimStart.length := by
        have hend := length_trimEnd_le t.trimStart
        rwa [h] at hend
      have hstart : t.trimStart = t :=
        (List.dropWhile_suffix _).eq_of_length_le hlength
      rw [hstart] at h
      exact ⟨hstart, h⟩
    · rintro ⟨hstart, hend⟩
      rw [hstart, hend]

end Text

namespace Sentence

/-! ### Clean sentences -/

/-- No blanks at the edges, none before a part that begins with a space, and no empty text. -/
structure Clean (v : Sentence) : Prop where
  opening : ∀ t rest, v = .text t :: rest → t.startsBlank = false
  closing : ∀ before t, v = before ++ [.text t] → t.endsBlank = false
  seams : ∀ before t next rest, v = before ++ .text t :: next :: rest →
    next.value.startsWithSpace = true → t.endsBlank = false
  filled : ∀ t, Part.text t ∈ v → t ≠ []

/-- The same, decided part by part. -/
def CleanFrom (first : Bool) : Sentence → Prop
  | [] => True
  | .text t :: rest =>
    (t ≠ [] ∧ (first = true → t.startsBlank = false) ∧
      (closesSeam rest = true → t.endsBlank = false)) ∧ CleanFrom false rest
  | .synonym _ _ :: rest => CleanFrom false rest
  | .reference _ _ _ :: rest => CleanFrom false rest

/-- A property of every literal text and of what stands after it. -/
def EveryText (p : Text → Sentence → Prop) (v : Sentence) : Prop :=
  ∀ before t rest, v = before ++ .text t :: rest → p t rest

theorem everyText_nil (p : Text → Sentence → Prop) : EveryText p [] := by
  intro before t rest h
  cases before <;> cases h

theorem everyText_text_cons {p : Text → Sentence → Prop} {t : Text} {rest : Sentence} :
    EveryText p (.text t :: rest) ↔ p t rest ∧ EveryText p rest := by
  constructor
  · intro h
    refine ⟨h [] t rest rfl, fun before u after hrest => ?_⟩
    exact h (.text t :: before) u after (by rw [hrest]; rfl)
  · rintro ⟨hfirst, hrest⟩ before u after h
    cases before with
    | nil =>
      cases h
      exact hfirst
    | cons q before =>
      rw [List.cons_append, List.cons.injEq] at h
      exact hrest before u after h.2

theorem everyText_cons_of_ne {p : Text → Sentence → Prop} {q : Part} {rest : Sentence}
    (hq : ∀ t, q ≠ .text t) : EveryText p (q :: rest) ↔ EveryText p rest := by
  constructor
  · intro h before u after hrest
    exact h (q :: before) u after (by rw [hrest]; rfl)
  · intro hrest before u after h
    cases before with
    | nil =>
      cases h
      exact absurd rfl (hq u)
    | cons r before =>
      rw [List.cons_append, List.cons.injEq] at h
      exact hrest before u after h.2

theorem cleanFrom_false_iff (v : Sentence) :
    CleanFrom false v ↔
      EveryText (fun t rest => t ≠ [] ∧ (closesSeam rest = true → t.endsBlank = false)) v := by
  induction v with
  | nil => exact iff_of_true trivial (everyText_nil _)
  | cons p rest ih =>
    cases p with
    | text t =>
      rw [everyText_text_cons, ← ih, CleanFrom]
      simp
    | synonym entity optional => rw [everyText_cons_of_ne (by simp), ← ih, CleanFrom]
    | reference kind u attributes => rw [everyText_cons_of_ne (by simp), ← ih, CleanFrom]

theorem cleanFrom_true_iff (v : Sentence) :
    CleanFrom true v ↔
      (∀ t rest, v = .text t :: rest → t.startsBlank = false) ∧ CleanFrom false v := by
  cases v with
  | nil => simp [CleanFrom]
  | cons p rest =>
    cases p with
    | text t =>
      simp only [CleanFrom, List.cons.injEq, Part.text.injEq]
      constructor
      · rintro ⟨⟨hfilled, hstart, hend⟩, hrest⟩
        refine ⟨?_, ⟨hfilled, by simp, hend⟩, hrest⟩
        rintro u after ⟨rfl, -⟩
        exact hstart trivial
      · rintro ⟨hstart, ⟨hfilled, -, hend⟩, hrest⟩
        exact ⟨⟨hfilled, fun _ => hstart t rest ⟨rfl, rfl⟩, hend⟩, hrest⟩
    | synonym entity optional => simp [CleanFrom]
    | reference kind u attributes => simp [CleanFrom]

theorem clean_iff (v : Sentence) : v.Clean ↔ CleanFrom true v := by
  rw [cleanFrom_true_iff, cleanFrom_false_iff]
  constructor
  · intro h
    refine ⟨h.opening, fun before t rest hv => ⟨?_, fun hcloses => ?_⟩⟩
    · exact h.filled t (by rw [hv]; simp)
    · cases rest with
      | nil => exact h.closing before t hv
      | cons next rest => exact h.seams before t next rest hv hcloses
  · rintro ⟨hopening, hevery⟩
    refine ⟨hopening, ?_, ?_, ?_⟩
    · intro before t hv
      exact (hevery before t [] hv).2 rfl
    · intro before t next rest hv hspace
      exact (hevery before t (next :: rest) hv).2 hspace
    · intro t hmem
      obtain ⟨before, rest, hv⟩ := List.append_of_mem hmem
      exact (hevery before t rest hv).1

/-! ### Clean sentences are the ones that tidying leaves alone -/

theorem tidyFrom_text_cons (first : Bool) (t : Text) (rest : Sentence) :
    tidyFrom first (.text t :: rest) =
      if t.settle first (closesSeam rest) = [] then tidyFrom false rest
      else .text (t.settle first (closesSeam rest)) :: tidyFrom false rest := rfl

theorem length_tidyFrom_le (first : Bool) (v : Sentence) :
    (tidyFrom first v).length ≤ v.length := by
  induction v generalizing first with
  | nil => exact Nat.le_refl 0
  | cons p rest ih =>
    have hrest := ih false
    cases p with
    | text t =>
      rw [tidyFrom_text_cons]
      split
      · exact Nat.le_succ_of_le hrest
      · exact Nat.succ_le_succ hrest
    | synonym entity optional => exact Nat.succ_le_succ hrest
    | reference kind u attributes => exact Nat.succ_le_succ hrest

/-- A part of a tidied sentence is literal text, or was there before. -/
theorem mem_tidyFrom {first : Bool} {v : Sentence} {p : Part} (h : p ∈ tidyFrom first v) :
    (∃ t, p = .text t) ∨ p ∈ v := by
  induction v generalizing first with
  | nil => cases h
  | cons q rest ih =>
    have hlift : ∀ {first}, p ∈ tidyFrom first rest → (∃ t, p = .text t) ∨ p ∈ q :: rest := by
      intro first hmem
      rcases ih hmem with htext | hrest
      · exact Or.inl htext
      · exact Or.inr (List.mem_cons_of_mem q hrest)
    cases q with
    | text t =>
      rw [tidyFrom_text_cons] at h
      split at h
      · exact hlift h
      · rcases List.mem_cons.mp h with rfl | hrest
        · exact Or.inl ⟨_, rfl⟩
        · exact hlift hrest
    | synonym entity optional =>
      rcases List.mem_cons.mp h with rfl | hrest
      · exact Or.inr List.mem_cons_self
      · exact hlift hrest
    | reference kind t attributes =>
      rcases List.mem_cons.mp h with rfl | hrest
      · exact Or.inr List.mem_cons_self
      · exact hlift hrest

theorem tidyFrom_eq_self_iff (first : Bool) (v : Sentence) :
    tidyFrom first v = v ↔ CleanFrom first v := by
  induction v generalizing first with
  | nil => exact iff_of_true rfl trivial
  | cons p rest ih =>
    cases p with
    | text t =>
      rw [tidyFrom_text_cons, CleanFrom, ← ih, ← Text.settle_eq_self_iff]
      split
      · -- text that vanishes makes the sentence shorter, so it is not left alone
        rename_i hnil
        have hlength := length_tidyFrom_le false rest
        constructor
        · intro h
          have hlonger := congrArg List.length h
          rw [List.length_cons] at hlonger
          omega
        · rintro ⟨⟨hfilled, hsame⟩, -⟩
          exact absurd (hsame.symm.trans hnil) hfilled
      · rename_i hkept
        rw [List.cons.injEq, Part.text.injEq]
        constructor
        · rintro ⟨hsame, hrest⟩
          exact ⟨⟨hsame ▸ hkept, hsame⟩, hrest⟩
        · rintro ⟨⟨-, hsame⟩, hrest⟩
          exact ⟨hsame, hrest⟩
    | synonym entity optional => simp [tidyFrom, CleanFrom, ih]
    | reference kind u attributes => simp [tidyFrom, CleanFrom, ih]

theorem clean_iff_tidy_eq_self (v : Sentence) : v.Clean ↔ v.tidy = v :=
  (clean_iff v).trans (tidyFrom_eq_self_iff true v).symm

end Sentence

end Phrasing
