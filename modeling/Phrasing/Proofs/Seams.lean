/-
  Phrasing/Proofs/Seams.lean
  ==========================
  **When a tidied sentence is clean.**

  Tidying decides on the sentence as it finds it, and drops what became empty only
  then.  So dropped text may bring an edge or a seam into sight that was not there
  when its neighbour was trimmed.  The main statement says exactly when that
  happens, by looking past the text that vanishes.  It does not happen in a
  sentence whose blank texts are rows of spaces behind other parts.
-/
import Phrasing.Proofs.Clean
import Phrasing.Proofs.Variants

namespace Phrasing.Sentence

/-! ### What vanishes, and what that exposes -/

/-- Whether a literal text that is not the first part vanishes when the sentence is tidied: it is
empty, or blank before the end or before a part that begins with a space. -/
def vanishes (t : Text) (rest : Sentence) : Bool := t.isEmpty || (t.isBlank && closesSeam rest)

/-- What is left of a sentence's tail when the text that vanishes at its beginning is passed
over. -/
def exposed : Sentence → Sentence
  | [] => []
  | .text t :: rest => if vanishes t rest then exposed rest else .text t :: rest
  | .synonym entity optional :: rest => .synonym entity optional :: rest
  | .reference kind t attributes :: rest => .reference kind t attributes :: rest

/-- Whether the first part is literal text that begins with a blank. -/
def opensBlank : Sentence → Bool
  | .text t :: _ => t.startsBlank
  | _ => false

/-- Text that vanishes brings no edge or seam into sight that was not trimmed. -/
structure SeamsInSight (s : Sentence) : Prop where
  /-- A blank first text is not followed, past what vanishes, by text that begins with a blank. -/
  edge : ∀ t rest, s = .text t :: rest → t.isBlank = true → opensBlank (exposed rest) = false
  /-- A text that ends with a blank and stands, past what vanishes, before the end or a part that
  begins with a space, stands there already.  A blank first text is no such text: it vanishes. -/
  seam : ∀ before t rest, s = before ++ .text t :: rest → (before = [] → t.isBlank = false) →
    t.endsBlank = true → closesSeam (exposed rest) = true → closesSeam rest = true

theorem settle_eq_nil_iff_vanishes (t : Text) (rest : Sentence) :
    t.settle false (closesSeam rest) = [] ↔ vanishes t rest = true := by
  rw [Text.settle_eq_nil_iff]
  simp [vanishes]

/-- What depends on the first code point of a tail alone cannot tell a tidied tail from one that is
merely exposed. -/
theorem tidyFrom_congr_exposed {g : Sentence → Bool}
    (htext : ∀ t u rest tail, t.head? = u.head? → g (.text t :: rest) = g (.text u :: tail))
    (hpart : ∀ p rest tail, g (p :: rest) = g (p :: tail)) (s : Sentence) :
    g (tidyFrom false s) = g (exposed s) := by
  induction s with
  | nil => rfl
  | cons p rest ih =>
    cases p with
    | text t =>
      rw [tidyFrom_text_cons, exposed]
      by_cases hvanishes : vanishes t rest = true
      · rw [if_pos ((settle_eq_nil_iff_vanishes t rest).mpr hvanishes), if_pos hvanishes, ih]
      · have hkept := mt (settle_eq_nil_iff_vanishes t rest).mp hvanishes
        rw [if_neg hkept, if_neg hvanishes]
        exact htext _ t _ rest (Text.head?_settle hkept)
    | synonym entity optional => exact hpart _ _ rest
    | reference kind u attributes => exact hpart _ _ rest

theorem closesSeam_tidyFrom (s : Sentence) :
    closesSeam (tidyFrom false s) = closesSeam (exposed s) := by
  refine tidyFrom_congr_exposed (fun t u rest tail h => ?_) (fun p rest tail => rfl) s
  simp only [closesSeam, Part.value, Text.startsWithSpace, h]

theorem opensBlank_tidyFrom (s : Sentence) :
    opensBlank (tidyFrom false s) = opensBlank (exposed s) := by
  refine tidyFrom_congr_exposed (fun t u rest tail h => ?_) (fun p rest tail => ?_) s
  · simp only [opensBlank, Text.startsBlank, h]
  · cases p <;> rfl

/-- What a literal text has to satisfy for its seam to stay in sight. -/
def SeamStays (t : Text) (rest : Sentence) : Prop :=
  t.endsBlank = true → closesSeam (exposed rest) = true → closesSeam rest = true

theorem settle_clean_iff {first : Bool} {t : Text} {rest : Sentence}
    (hkept : t.settle first (closesSeam rest) ≠ []) :
    (closesSeam (tidyFrom false rest) = true →
      (t.settle first (closesSeam rest)).endsBlank = false) ↔ SeamStays t rest := by
  rw [closesSeam_tidyFrom, Text.endsBlank_settle hkept, SeamStays]
  cases closesSeam rest <;> cases t.endsBlank <;> simp

theorem cleanFrom_tidyFrom_false_iff (s : Sentence) :
    CleanFrom false (tidyFrom false s) ↔ EveryText SeamStays s := by
  induction s with
  | nil => exact iff_of_true trivial (everyText_nil _)
  | cons p rest ih =>
    cases p with
    | text t =>
      rw [everyText_text_cons, ← ih, tidyFrom_text_cons]
      split
      · -- text that vanishes has no seam to lose
        rename_i hnil
        have hstays : SeamStays t rest := by
          rw [settle_eq_nil_iff_vanishes, vanishes, Bool.or_eq_true, Bool.and_eq_true] at hnil
          rintro hend -
          rcases hnil with hempty | ⟨-, hcloses⟩
          · rw [List.isEmpty_iff.mp hempty] at hend
            cases hend
          · exact hcloses
        exact (and_iff_right hstays).symm
      · rename_i hkept
        rw [CleanFrom, settle_clean_iff hkept]
        simp [hkept]
    | synonym entity optional =>
      rw [everyText_cons_of_ne (by simp), ← ih]
      rfl
    | reference kind u attributes =>
      rw [everyText_cons_of_ne (by simp), ← ih]
      rfl

theorem opensBlank_eq_false_iff (v : Sentence) :
    opensBlank v = false ↔ ∀ t rest, v = .text t :: rest → t.startsBlank = false := by
  constructor
  · rintro h t rest rfl
    exact h
  · intro h
    cases v with
    | nil => rfl
    | cons p rest =>
      cases p with
      | text t => exact h t rest rfl
      | synonym entity optional => rfl
      | reference kind u attributes => rfl

theorem seamsInSight_of_ne {p : Part} {rest : Sentence} (hp : ∀ t, p ≠ .text t) :
    SeamsInSight (p :: rest) ↔ EveryText SeamStays rest := by
  rw [← everyText_cons_of_ne hp]
  constructor
  · intro h before t after hs
    refine h.seam before t after hs fun hbefore => ?_
    rw [hbefore] at hs
    cases hs
    exact absurd rfl (hp t)
  · intro h
    refine ⟨fun t after hs => ?_, fun before t after hs _ => h before t after hs⟩
    cases hs
    exact absurd rfl (hp t)

theorem seamsInSight_text_cons {t : Text} {rest : Sentence} :
    SeamsInSight (.text t :: rest) ↔
      (if t.isBlank then opensBlank (exposed rest) = false else SeamStays t rest) ∧
        EveryText SeamStays rest := by
  constructor
  · intro h
    refine ⟨?_, fun before u after hrest => ?_⟩
    · split
      · rename_i hblank
        exact h.edge t rest rfl hblank
      · rename_i hblank
        exact h.seam [] t rest rfl fun _ => eq_false_of_ne_true hblank
    · exact h.seam (.text t :: before) u after (by rw [hrest]; rfl) (by simp)
  · rintro ⟨hfirst, hrest⟩
    refine ⟨?_, ?_⟩
    · rintro u after hs hblank
      cases hs
      rwa [if_pos hblank] at hfirst
    · intro before u after hs hno
      cases before with
      | nil =>
        cases hs
        rwa [if_neg (by simp [hno rfl])] at hfirst
      | cons q before =>
        rw [List.cons_append, List.cons.injEq] at hs
        exact hrest before u after hs.2

/-- **When a tidied sentence is clean**: exactly if what vanishes exposes nothing. -/
theorem clean_tidy_iff (s : Sentence) : s.tidy.Clean ↔ s.SeamsInSight := by
  rw [clean_iff]
  unfold tidy
  cases s with
  | nil =>
    refine iff_of_true trivial ⟨?_, ?_⟩
    · rintro t rest ⟨⟩
    · intro before t rest h
      cases before <;> cases h
  | cons p rest =>
    cases p with
    | text t =>
      rw [seamsInSight_text_cons, ← cleanFrom_tidyFrom_false_iff, tidyFrom_text_cons]
      cases hblank : t.isBlank with
      | true =>
        have hnil : t.settle true (closesSeam rest) = [] := by
          rw [Text.settle_eq_nil_iff]
          exact Or.inr ⟨hblank, rfl⟩
        rw [if_pos hnil, cleanFrom_true_iff, ← opensBlank_eq_false_iff, opensBlank_tidyFrom]
        rfl
      | false =>
        have hkept : t.settle true (closesSeam rest) ≠ [] := by
          rw [Ne, Text.settle_eq_nil_iff]
          rintro (rfl | ⟨htrue, -⟩)
          · cases hblank
          · rw [htrue] at hblank
            cases hblank
        rw [if_neg hkept, CleanFrom, settle_clean_iff hkept]
        simp [hkept, Text.startsBlank_settle hkept]
    | synonym entity optional =>
      rw [seamsInSight_of_ne (by simp), ← cleanFrom_tidyFrom_false_iff]
      rfl
    | reference kind u attributes =>
      rw [seamsInSight_of_ne (by simp), ← cleanFrom_tidyFrom_false_iff]
      rfl

/-! ### Sentences in which no edge or seam is brought into sight -/

/-- No literal text is empty or begins with a blank other than the space, and literal text in the
first place is not blank throughout. -/
structure Spaced (s : Sentence) : Prop where
  filled : ∀ t, Part.text t ∈ s → t ≠ []
  spaces : ∀ t c, Part.text t ∈ s → t.head? = some c → c.isBlank = true → c = (' ' : CodePoint)
  opening : ∀ t rest, s = .text t :: rest → t.isBlank = false

/-- A blank text between spaced ones begins with the space that closes the seam before it. -/
theorem startsWithSpace_of_vanishes {t : Text} {rest : Sentence} (hfilled : t ≠ [])
    (hspaces : ∀ c, t.head? = some c → c.isBlank = true → c = (' ' : CodePoint))
    (h : vanishes t rest = true) : t.startsWithSpace = true := by
  cases t with
  | nil => exact absurd rfl hfilled
  | cons c t =>
    simp only [vanishes, List.isEmpty_cons, Bool.false_or, Bool.and_eq_true, Text.isBlank,
      List.all_cons] at h
    obtain rfl := hspaces c rfl h.1.1
    rfl

/-- So a seam that closes past what vanishes closes before it already. -/
theorem closesSeam_of_exposed {rest : Sentence} (hfilled : ∀ t, Part.text t ∈ rest → t ≠ [])
    (hspaces : ∀ t c, Part.text t ∈ rest → t.head? = some c → c.isBlank = true →
      c = (' ' : CodePoint))
    (h : closesSeam (exposed rest) = true) : closesSeam rest = true := by
  cases rest with
  | nil => rfl
  | cons p rest =>
    cases p with
    | text t =>
      rw [exposed] at h
      by_cases hvanishes : vanishes t rest = true
      · have hmem : Part.text t ∈ Part.text t :: rest := List.mem_cons_self
        exact startsWithSpace_of_vanishes (hfilled t hmem) (fun c => hspaces t c hmem) hvanishes
      · rwa [if_neg hvanishes] at h
    | synonym entity optional => exact h
    | reference kind u attributes => exact h

theorem Spaced.seamsInSight {s : Sentence} (h : s.Spaced) : s.SeamsInSight := by
  constructor
  · intro t rest hs hblank
    rw [h.opening t rest hs] at hblank
    cases hblank
  · intro before t rest hs _ _ hcloses
    have hrest : ∀ u, Part.text u ∈ rest → Part.text u ∈ s := by
      intro u hu
      rw [hs]
      exact List.mem_append_right _ (List.mem_cons_of_mem _ hu)
    apply closesSeam_of_exposed _ _ hcloses
    · intro u hu
      exact h.filled u (hrest u hu)
    · intro u c hu
      exact h.spaces u c (hrest u hu)

/-- **Tidying a spaced sentence leaves it clean**, and tidying it again changes nothing. -/
theorem clean_of_spaced {s : Sentence} (h : s.Spaced) :
    s.tidy.Clean ∧ s.tidy.tidy = s.tidy := by
  have hclean : s.tidy.Clean := (clean_tidy_iff s).mpr h.seamsInSight
  exact ⟨hclean, (clean_iff_tidy_eq_self s.tidy).mp hclean⟩

/-- Blank texts between kept parts and in a row at the end: all of them vanish, and each seam is
trimmed. -/
theorem clean_of_spaced_blank_rows :
    let s : Sentence := [.text " Go\t", .text "  ", .text " ", .reference "city" " Rome" [],
      .text " ", .synonym "day" true, .text " now\t", .text " ", .text "  "]
    let tidied : Sentence := [.text "Go", .reference "city" " Rome" [], .text " ",
      .synonym "day" true, .text " now"]
    s.Spaced ∧ s.tidy = tidied ∧ tidied.Clean ∧ tidied.tidy = tidied := by
  intro s tidied
  let texts : List Text := [" Go\t", "  ", " ", " ", " now\t", " ", "  "]
  have htexts : ∀ t, Part.text t ∈ s → t ∈ texts := by
    intro t ht
    simpa [s, texts] using ht
  have hfilled : ∀ t ∈ texts, t ≠ [] := by decide
  have hspaces : ∀ t ∈ texts, t.head? = some (' ' : CodePoint) := by decide
  have hspaced : s.Spaced := by
    refine ⟨?_, ?_, ?_⟩
    · intro t ht
      exact hfilled t (htexts t ht)
    · intro t c ht hc _
      exact Option.some.inj (hc.symm.trans (hspaces t (htexts t ht)))
    · intro t rest hs
      obtain rfl : " Go\t" = t := Part.text.inj (List.cons.inj hs).1
      rfl
  exact ⟨hspaced, rfl, clean_of_spaced hspaced⟩

/-! ### Clean variants -/

/-- **When the variants of a sentence are clean**: exactly if in none of the filled sentences they
come from text that vanishes exposes an edge or a seam.  To be clean is to be left alone by
tidying. -/
theorem clean_variants_iff {table : SynonymTable} {cap : Option Cap} {intent : Option Text}
    {s : Sentence} {vs : List Sentence} (hs : s.slots ≠ [])
    (h : (s.expand table cap intent).result = .ok vs) :
    (∀ v ∈ vs, v.Clean ↔ v.tidy = v) ∧
      ((∀ v ∈ vs, v.Clean) ↔
        ∀ values ∈ (Odometer.combinations (s.domains table)).take vs.length,
          (s.replace fun k => values.getD k omitted).SeamsInSight) := by
  refine ⟨fun v _ => clean_iff_tidy_eq_self v, ?_⟩
  obtain ⟨rfl, -⟩ := expand_eq_of_result hs h
  rw [length_variants]
  constructor
  · intro hclean values hvalues
    rw [← clean_tidy_iff]
    exact hclean _ (List.mem_map_of_mem hvalues)
  · intro hsight v hv
    obtain ⟨values, hvalues, rfl⟩ := List.mem_map.mp hv
    exact (clean_tidy_iff _).mpr (hsight values hvalues)

/-- An omitted greeting between two blanks leaves one of them, at the seam. -/
theorem clean_variants_hello :
    let s : Sentence := [.text "Hello ", .synonym "greeting" true, .text " world"]
    let vs : List Sentence := [[.text "Hello", .text " world"]]
    s.slots ≠ [] ∧ (s.expand [] none none).result = .ok vs ∧ ∀ v ∈ vs, v.Clean := by
  intro s vs
  have hs : s.slots ≠ [] := by decide
  have h : (s.expand [] none none).result = .ok vs := rfl
  refine ⟨hs, h, (clean_variants_iff hs h).2.mpr ?_⟩
  intro values hvalues
  obtain rfl : values = [omitted] := List.mem_singleton.mp hvalues
  have hfirst : SeamStays "Hello " [.text " world"] := by unfold SeamStays; decide
  have hlast : SeamStays " world" [] := by unfold SeamStays; decide
  exact seamsInSight_text_cons.mpr
    ⟨hfirst, everyText_text_cons.mpr ⟨hlast, everyText_nil _⟩⟩

/-- Two omitted placeholders with a blank between them: the blank vanishes, and the next text, which
was not the first when it was trimmed, opens the variant with a blank. -/
theorem expand_opens_blank :
    let s : Sentence :=
      [.synonym "greeting" true, .text " ", .synonym "name" true, .text " there"]
    s.slots ≠ [] ∧ (s.expand [] none none).result = .ok [[.text " there"]] ∧
      ¬ Clean [.text " there"] ∧ tidy [.text " there"] = [.text "there"] := by
  refine ⟨by decide, rfl, fun hclean => ?_, rfl⟩
  have hopening := hclean.opening " there" [] rfl
  exact absurd hopening (by decide)

end Phrasing.Sentence
