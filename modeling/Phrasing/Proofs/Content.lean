/-
  Phrasing/Proofs/Content.lean
  ============================
  **A variant says what its sentence says.**

  Filling puts values in the places of placeholders, and tidying trims what was
  filled and drops what became empty.  Neither loses nor invents anything but
  blanks: each part of a variant comes from a place of its sentence, the places
  are in order, references are as they were, and apart from blanks the variant
  reads as the sentence with its values.
-/
import Phrasing.Proofs.Clean
import Phrasing.Proofs.Variants

namespace Phrasing

/-! ### Blanks of a trimmed text -/

namespace Text

theorem withoutBlanks_append (s t : Text) :
    withoutBlanks (s ++ t) = s.withoutBlanks ++ t.withoutBlanks := List.filter_append ..

theorem withoutBlanks_eq_nil_iff (t : Text) : t.withoutBlanks = [] ↔ t.isBlank = true := by
  simp [withoutBlanks, isBlank]

/-- What is left of a text in its place is the text without a blank end, and, if nothing stands
before it, without a blank beginning. -/
theorem exists_settle (first closes : Bool) (t : Text) :
    ∃ before after, t = before ++ t.settle first closes ++ after ∧ before.isBlank = true ∧
      after.isBlank = true ∧ (before ≠ [] → first = true) := by
  have hstart : ∃ before, t = before ++ (if first then t.trimStart else t) ∧
      before.isBlank = true ∧ (before ≠ [] → first = true) := by
    cases first with
    | false => exact ⟨[], rfl, rfl, fun h => absurd rfl h⟩
    | true =>
      obtain ⟨before, hsplit, hblank⟩ := exists_trimStart t
      exact ⟨before, hsplit, hblank, fun _ => rfl⟩
  obtain ⟨before, hsplit, hblank, hfirst⟩ := hstart
  unfold settle
  generalize (if first then t.trimStart else t) = u at hsplit ⊢
  cases closes with
  | false => exact ⟨before, [], by rw [List.append_nil]; exact hsplit, hblank, rfl, hfirst⟩
  | true =>
    obtain ⟨after, hend, hafter⟩ := exists_trimEnd u
    refine ⟨before, after, ?_, hblank, hafter, hfirst⟩
    rw [List.append_assoc]
    exact hsplit.trans (congrArg (before ++ ·) hend)

theorem withoutBlanks_settle (first closes : Bool) (t : Text) :
    (t.settle first closes).withoutBlanks = t.withoutBlanks := by
  obtain ⟨before, after, hsplit, hbefore, hafter, -⟩ := exists_settle first closes t
  rw [← withoutBlanks_eq_nil_iff] at hbefore hafter
  conv => rhs; rw [hsplit]
  rw [withoutBlanks_append, withoutBlanks_append, hbefore, hafter, List.nil_append,
    List.append_nil]

end Text

/-- Whether the part is a reference. -/
def Part.isReference : Part → Bool
  | .reference _ _ _ => true
  | _ => false

namespace Sentence

/-! ### What a sentence says -/

/-- The sentence read out with such values in the places of its placeholders. -/
def reading : Sentence → List Text → Text
  | [], _ => []
  | .synonym _ _ :: rest, [] => reading rest []
  | .synonym _ _ :: rest, v :: values => v ++ reading rest values
  | .text t :: rest, values => t ++ reading rest values
  | .reference _ t _ :: rest, values => t ++ reading rest values

/-- The part that a place of the sentence contributes: a placeholder contributes its value, unless
that leaves it out. -/
def partAt (s : Sentence) (values : List Text) (place : Nat) : Option Part :=
  match s[place]? with
  | some (.synonym _ _) =>
    (values[(slots (s.take place)).length]?.filter fun v => v ≠ omitted).map .text
  | other => other

section PartAt

variable (rest : Sentence) (values : List Text) (place : Nat)

theorem partAt_synonym_succ (entity : Text) (optional : Bool) (v : Text) :
    partAt (.synonym entity optional :: rest) (v :: values) (place + 1) =
      partAt rest values place := by simp [partAt]

theorem partAt_text_succ (t : Text) :
    partAt (.text t :: rest) values (place + 1) = partAt rest values place := by simp [partAt]

theorem partAt_reference_succ (kind t : Text) (attributes : Entries Text Json) :
    partAt (.reference kind t attributes :: rest) values (place + 1) =
      partAt rest values place := by simp [partAt]

end PartAt

/-- Whether `p` is what is left of `q`: literal text may have lost blanks at its end, and at its
beginning if it is the first part; every other part is as it was. -/
def LeftOf (first : Prop) (q p : Part) : Prop :=
  match q, p with
  | .text t, .text u =>
    ∃ before after, t = before ++ u ++ after ∧ before.isBlank = true ∧ after.isBlank = true ∧
      (before ≠ [] → first)
  | q, p => p = q

/-- What a variant keeps of its sentence and of the values it was made from. -/
structure Retains (s : Sentence) (values : List Text) (v : Sentence) : Prop where
  filled : ∀ p ∈ v, p.isSynonym = false ∧ p ≠ .text []
  references : v.filter Part.isReference = s.filter Part.isReference
  content : v.text.withoutBlanks = (s.reading values).withoutBlanks
  /-- Each part comes from a place of the sentence, in order.  The first part is the one from the
  first place that contributes any. -/
  places : ∃ places : List Nat, places.Pairwise (· < ·) ∧
    List.Forall₂ (fun place p => ∃ q, s.partAt values place = some q ∧
      LeftOf (∀ earlier < place, s.partAt values earlier = none) q p) places v

/-! ### Filling -/

/-- Filling replaces each placeholder by its value and keeps everything else. -/
theorem keeps_of_fill? {s filled : Sentence} {values : List Text}
    (h : s.fill? values = some filled) :
    (∀ p ∈ filled, p.isSynonym = false) ∧
      filled.filter Part.isReference = s.filter Part.isReference ∧
      filled.text = s.reading values := by
  fun_induction fill? s values generalizing filled with
  | case1 values =>
    obtain rfl := Option.some.inj h
    exact ⟨nofun, rfl, rfl⟩
  | case2 entity optional rest => cases h
  | case3 entity optional rest values ih =>
    obtain ⟨hno, hreferences, htext⟩ := ih h
    exact ⟨hno, hreferences, htext⟩
  | case4 entity optional rest v values hv ih =>
    obtain ⟨tail, htail, rfl⟩ := Option.map_eq_some_iff.mp h
    obtain ⟨hno, hreferences, htext⟩ := ih htail
    exact ⟨List.forall_mem_cons.mpr ⟨rfl, hno⟩, hreferences, congrArg (v ++ ·) htext⟩
  | case5 t rest values ih =>
    obtain ⟨tail, htail, rfl⟩ := Option.map_eq_some_iff.mp h
    obtain ⟨hno, hreferences, htext⟩ := ih htail
    exact ⟨List.forall_mem_cons.mpr ⟨rfl, hno⟩, hreferences, congrArg (t ++ ·) htext⟩
  | case6 kind t attributes rest values ih =>
    obtain ⟨tail, htail, rfl⟩ := Option.map_eq_some_iff.mp h
    obtain ⟨hno, hreferences, htext⟩ := ih htail
    exact ⟨List.forall_mem_cons.mpr ⟨rfl, hno⟩,
      congrArg (Part.reference kind t attributes :: ·) hreferences, congrArg (t ++ ·) htext⟩

/-! ### Tidying -/

theorem text_cons (p : Part) (rest : Sentence) : text (p :: rest) = p.value ++ rest.text :=
  List.flatMap_cons

theorem tidyFrom_cons_of_ne {p : Part} (hp : ∀ t, p ≠ .text t) (first : Bool) (rest : Sentence) :
    tidyFrom first (p :: rest) = p :: tidyFrom false rest := by
  cases p with
  | text t => exact absurd rfl (hp t)
  | synonym entity optional => rfl
  | reference kind t attributes => rfl

/-- Tidying loses no literal text but blanks, and nothing else at all. -/
theorem keeps_tidyFrom (first : Bool) (s : Sentence) :
    (∀ p ∈ tidyFrom first s, p ≠ .text []) ∧
      (tidyFrom first s).filter Part.isReference = s.filter Part.isReference ∧
      (tidyFrom first s).text.withoutBlanks = s.text.withoutBlanks := by
  induction s generalizing first with
  | nil => exact ⟨nofun, rfl, rfl⟩
  | cons p rest ih =>
    obtain ⟨hfilled, hreferences, htext⟩ := ih false
    cases p with
    | text t =>
      have hsettle := Text.withoutBlanks_settle first (closesSeam rest) t
      rw [tidyFrom_text_cons, text_cons, Text.withoutBlanks_append]
      split
      · rename_i hnil
        rw [hnil] at hsettle
        refine ⟨hfilled, hreferences, ?_⟩
        rw [htext, Part.value, ← hsettle]
        rfl
      · rename_i hkept
        refine ⟨List.forall_mem_cons.mpr ⟨?_, hfilled⟩, hreferences, ?_⟩
        · exact fun heq => hkept (Part.text.inj heq)
        · rw [text_cons, Text.withoutBlanks_append, htext, Part.value, Part.value, hsettle]
    | synonym entity optional =>
      rw [tidyFrom_cons_of_ne (by simp), text_cons, text_cons, Text.withoutBlanks_append,
        Text.withoutBlanks_append, htext]
      exact ⟨List.forall_mem_cons.mpr ⟨Part.noConfusion, hfilled⟩, hreferences, rfl⟩
    | reference kind t attributes =>
      rw [tidyFrom_cons_of_ne (by simp), text_cons, text_cons, Text.withoutBlanks_append,
        Text.withoutBlanks_append, htext]
      exact ⟨List.forall_mem_cons.mpr ⟨Part.noConfusion, hfilled⟩,
        congrArg (Part.reference kind t attributes :: ·) hreferences, rfl⟩

/-! ### Where the parts come from -/

theorem LeftOf.mono {first first' : Prop} {q p : Part} (h : LeftOf first q p)
    (himp : first → first') : LeftOf first' q p := by
  cases q with
  | text t =>
    cases p with
    | text u =>
      obtain ⟨before, after, hsplit, hbefore, hafter, hfirst⟩ := h
      exact ⟨before, after, hsplit, hbefore, hafter, fun hne => himp (hfirst hne)⟩
    | synonym | reference => exact h
  | synonym | reference => exact h

/-- Whether the parts of `v` are left of those that the places of the sentence contribute, in order.
The part of the first such place may have lost its beginning if `first` says so. -/
def Placed (s : Sentence) (values : List Text) (first : Bool) (v : Sentence) : Prop :=
  ∃ places : List Nat, places.Pairwise (· < ·) ∧
    List.Forall₂ (fun place p => ∃ q, s.partAt values place = some q ∧
      LeftOf (first = true ∧ ∀ earlier < place, s.partAt values earlier = none) q p) places v

section Placed

variable {s rest v : Sentence} {values others : List Text} {first next : Bool}

/-- What comes from later places of a sentence comes from one place further on if a part stands
before them. -/
theorem Placed.shift (h : rest.Placed others next v)
    (hshift : ∀ place, s.partAt values (place + 1) = rest.partAt others place)
    (hnext : next = true → first = true ∧ s.partAt values 0 = none) :
    s.Placed values first v := by
  obtain ⟨places, hsorted, hparts⟩ := h
  refine ⟨places.map (· + 1), hsorted.map _ fun _ _ => Nat.succ_lt_succ, ?_⟩
  rw [List.forall₂_map_left_iff]
  refine hparts.imp ?_
  rintro place p ⟨q, hq, hleft⟩
  refine ⟨q, (hshift place).trans hq, hleft.mono ?_⟩
  rintro ⟨htrue, hnone⟩
  obtain ⟨hfirst, hzero⟩ := hnext htrue
  refine ⟨hfirst, fun earlier hearlier => ?_⟩
  cases earlier with
  | zero => exact hzero
  | succ earlier => exact (hshift earlier).trans (hnone earlier (Nat.lt_of_succ_lt_succ hearlier))

theorem Placed.cons {q p : Part} (h : rest.Placed others false v)
    (hshift : ∀ place, s.partAt values (place + 1) = rest.partAt others place)
    (hq : s.partAt values 0 = some q) (hleft : LeftOf (first = true) q p) :
    s.Placed values first (p :: v) := by
  obtain ⟨places, hsorted, hparts⟩ := h
  refine ⟨0 :: places.map (· + 1), List.pairwise_cons.mpr ⟨?_, ?_⟩, .cons ?_ ?_⟩
  · intro place hplace
    obtain ⟨earlier, -, rfl⟩ := List.mem_map.mp hplace
    exact Nat.succ_pos earlier
  · exact hsorted.map _ fun _ _ => Nat.succ_lt_succ
  · exact ⟨q, hq, hleft.mono fun hfirst => ⟨hfirst, fun _ hlt => absurd hlt (Nat.not_lt_zero _)⟩⟩
  · rw [List.forall₂_map_left_iff]
    refine hparts.imp ?_
    rintro place p ⟨q, hq, hleft⟩
    exact ⟨q, (hshift place).trans hq, hleft.mono fun hfirst => nomatch hfirst.1⟩

/-- A literal text that is settled in its place is left of itself, or vanishes. -/
theorem Placed.tidyFrom_text {t : Text} {tail : Sentence}
    (h : rest.Placed others false (tidyFrom false tail))
    (hshift : ∀ place, s.partAt values (place + 1) = rest.partAt others place)
    (hq : s.partAt values 0 = some (.text t)) :
    s.Placed values first (tidyFrom first (.text t :: tail)) := by
  rw [tidyFrom_text_cons]
  split
  · exact h.shift hshift nofun
  · exact h.cons hshift hq (Text.exists_settle first (closesSeam tail) t)

end Placed

theorem placed_tidyFrom {s filled : Sentence} {values : List Text}
    (h : s.fill? values = some filled) (first : Bool) :
    s.Placed values first (tidyFrom first filled) := by
  fun_induction fill? s values generalizing filled first with
  | case1 values =>
    obtain rfl := Option.some.inj h
    exact ⟨[], .nil, .nil⟩
  | case2 entity optional rest => cases h
  | case3 entity optional rest values ih =>
    -- a placeholder that is left out leaves the next part the first one
    have hshift := fun place => partAt_synonym_succ rest values place entity optional omitted
    exact (ih h first).shift hshift fun hfirst => ⟨hfirst, by simp [partAt]⟩
  | case4 entity optional rest v values hv ih =>
    obtain ⟨tail, htail, rfl⟩ := Option.map_eq_some_iff.mp h
    have hshift := fun place => partAt_synonym_succ rest values place entity optional v
    exact (ih htail false).tidyFrom_text hshift (by simp [partAt, hv])
  | case5 t rest values ih =>
    obtain ⟨tail, htail, rfl⟩ := Option.map_eq_some_iff.mp h
    have hshift := fun place => partAt_text_succ rest values place t
    exact (ih htail false).tidyFrom_text hshift (by simp [partAt])
  | case6 kind t attributes rest values ih =>
    obtain ⟨tail, htail, rfl⟩ := Option.map_eq_some_iff.mp h
    have hshift := fun place => partAt_reference_succ rest values place kind t attributes
    have hsame : LeftOf (first = true) (.reference kind t attributes)
        (.reference kind t attributes) := rfl
    rw [tidyFrom_cons_of_ne (by simp)]
    exact (ih htail false).cons hshift (by simp [partAt]) hsame

/-! ### Variants -/

/-- The tidied form of a filled sentence keeps what the sentence and the values say. -/
theorem retains_of_fill? {s filled : Sentence} {values : List Text}
    (h : s.fill? values = some filled) : s.Retains values filled.tidy := by
  obtain ⟨hno, hreferences, htext⟩ := keeps_of_fill? h
  obtain ⟨hfilled, hreferences', htext'⟩ := keeps_tidyFrom true filled
  refine ⟨fun p hp => ⟨?_, hfilled p hp⟩, hreferences'.trans hreferences, ?_, ?_⟩
  · rcases mem_tidyFrom hp with ⟨t, rfl⟩ | hmem
    · rfl
    · exact hno p hmem
  · rw [tidy, htext', htext]
  · obtain ⟨places, hsorted, hparts⟩ := placed_tidyFrom h true
    refine ⟨places, hsorted, hparts.imp ?_⟩
    rintro place p ⟨q, hq, hleft⟩
    exact ⟨q, hq, hleft.mono And.right⟩

/-- **A variant says what its sentence says.**  If a sentence with placeholders is expanded, its
variant `i` is made from combination `i` of the values of its placeholders: it keeps the references,
no placeholder and no empty text is left in it, each of its parts comes from a place of the sentence,
in order and with no loss but blanks, and apart from blanks it reads as the sentence with the
values. -/
theorem variants_retain {table : SynonymTable} {cap : Option Cap} {intent : Option Text}
    {s : Sentence} {vs : List Sentence} (hs : s.slots ≠ [])
    (h : (s.expand table cap intent).result = .ok vs) (i : Nat) (v : Sentence)
    (hv : vs[i]? = some v) :
    ∃ values, (Odometer.combinations (s.domains table))[i]? = some values ∧
      List.Forall₂ (· ∈ ·) values (s.domains table) ∧ s.Retains values v := by
  obtain ⟨rfl, -⟩ := expand_eq_of_result hs h
  rw [variants, List.getElem?_map, Option.map_eq_some_iff] at hv
  obtain ⟨values, hvalues, rfl⟩ := hv
  have hchosen : (Odometer.combinations (s.domains table))[i]? = some values := by
    rw [List.getElem?_take] at hvalues
    split at hvalues
    · exact hvalues
    · cases hvalues
  have hmem := List.mem_of_getElem? hchosen
  refine ⟨values, hchosen, Odometer.forall₂_of_mem_combinations hmem, ?_⟩
  have hvariant := variant_eq_ok hmem
  unfold variant at hvariant
  split at hvariant
  · rename_i filled hfilled
    rw [← Except.ok.inj hvariant]
    exact retains_of_fill? hfilled
  · cases hvariant

/-- A placeholder is left out, so a blank text comes first and vanishes; of the texts behind the
reference, one loses a tab before a space, the other its end. -/
theorem variants_retain_left_out :
    let s : Sentence := [.synonym "greeting" true, .text " ",
      .reference "city" "Rome" [("role", .null)], .text " is\t", .synonym "state" false]
    let table : SynonymTable := [("greeting", ["Hi"]), ("state", [" nice "])]
    let reference : Part := .reference "city" "Rome" [("role", .null)]
    let vs : List Sentence := [
      [.text "Hi", .text " ", reference, .text " is", .text " nice"],
      [reference, .text " is", .text " nice"]]
    let v : Sentence := [reference, .text " is", .text " nice"]
    let values : List Text := [omitted, " nice "]
    s.slots ≠ [] ∧ (s.expand table none none).result = .ok vs ∧ vs[1]? = some v ∧
      s.Retains values v ∧ s.reading values = " Rome is\t nice " := by
  intro s table reference vs v values
  have hs : s.slots ≠ [] := by decide
  have h : (s.expand table none none).result = .ok vs := rfl
  have hv : vs[1]? = some v := rfl
  obtain ⟨found, hfound, -, hretains⟩ := variants_retain hs h 1 v hv
  obtain rfl : values = found := Option.some.inj hfound
  exact ⟨hs, h, hv, hretains, rfl⟩

end Sentence

end Phrasing
