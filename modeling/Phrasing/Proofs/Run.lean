/-
  Phrasing/Proofs/Run.lean
  ========================
  **Expansions in a row.**

  A run expands one thing after another and stops at the first that fails.  A run
  that finishes has finished at every step, its results are the results of the
  steps, and it has reported what the steps reported, one after the other.  These
  are the lemmas that carry a property of one expansion over to the sentences of
  an intent and to the intents of a corpus.  A session that is opened on a tree
  expands the tree's corpus under the cap that it was given.
-/
import Mathlib.Data.List.Forall2
import Phrasing.Corpus.Session
import Phrasing.Proofs.Entries

namespace Phrasing

/-! ### Lists related item by item -/

section Related

variable {α β : Type} {r : α → β → Prop}

theorem exists_right_of_mem {l : List α} {m : List β} (h : List.Forall₂ r l m) {a : α}
    (ha : a ∈ l) : ∃ b ∈ m, r a b := by
  induction h with
  | nil => cases ha
  | cons hfirst hrest ih =>
    rename_i first b others tail
    rcases List.mem_cons.mp ha with rfl | hmem
    · exact ⟨b, List.mem_cons_self, hfirst⟩
    · obtain ⟨c, hc, hac⟩ := ih hmem
      exact ⟨c, List.mem_cons_of_mem b hc, hac⟩

theorem exists_left_of_mem {l : List α} {m : List β} (h : List.Forall₂ r l m) {b : β}
    (hb : b ∈ m) : ∃ a ∈ l, r a b := exists_right_of_mem h.flip hb

theorem map_eq_map_of_forall₂ {γ : Type} {f : α → γ} {g : β → γ} {l : List α} {m : List β}
    (h : List.Forall₂ r l m) (heq : ∀ a b, r a b → f a = g b) : l.map f = m.map g := by
  induction h with
  | nil => rfl
  | cons hfirst _ ih => rw [List.map_cons, List.map_cons, heq _ _ hfirst, ih]

end Related

namespace Expansion

variable {α β : Type}

@[simp] theorem events_map (f : α → β) (x : Expansion α) : (x.map f).events = x.events := rfl

theorem map_pure (f : α → β) (a : α) : (pure a).map f = pure (f a) := rfl

theorem result_map_eq_ok_iff {f : α → β} {x : Expansion α} {b : β} :
    (x.map f).result = .ok b ↔ ∃ a, x.result = .ok a ∧ f a = b := by
  unfold map
  cases x.result with
  | error e => simp [Except.map]
  | ok a => simp [Except.map]

/-- Two steps finish if both do, and then report what both reported. -/
theorem bind_eq_ok {x : Expansion α} {f : α → Expansion β} {b : β}
    (h : (x.bind f).result = .ok b) :
    ∃ a, x.result = .ok a ∧ (f a).result = .ok b ∧
      (x.bind f).events = x.events ++ (f a).events := by
  unfold bind at h ⊢
  cases hx : x.result with
  | error e =>
    rw [hx] at h
    cases h
  | ok a =>
    rw [hx] at h
    exact ⟨a, rfl, h, rfl⟩

theorem all_congr {f g : α → Expansion β} {l : List α} (h : ∀ a ∈ l, f a = g a) :
    all f l = all g l := by
  induction l with
  | nil => rfl
  | cons a rest ih =>
    rw [all, all, h a List.mem_cons_self, ih fun b hb => h b (List.mem_cons_of_mem a hb)]

/-! ### Runs that finish -/

/-- A run that finishes has finished at every step. -/
theorem forall₂_of_all {f : α → Expansion β} {l : List α} {bs : List β}
    (h : (all f l).result = .ok bs) :
    List.Forall₂ (fun a b => (f a).result = .ok b) l bs := by
  induction l generalizing bs with
  | nil =>
    obtain rfl : [] = bs := Except.ok.inj h
    exact .nil
  | cons a rest ih =>
    obtain ⟨b, hb, hrest, -⟩ := bind_eq_ok h
    obtain ⟨tail, htail, rfl⟩ := result_map_eq_ok_iff.mp hrest
    exact .cons hb (ih htail)

theorem events_all {f : α → Expansion β} {l : List α} {bs : List β}
    (h : (all f l).result = .ok bs) : (all f l).events = l.flatMap fun a => (f a).events := by
  induction l generalizing bs with
  | nil => rfl
  | cons a rest ih =>
    obtain ⟨b, -, hrest, hevents⟩ := bind_eq_ok h
    obtain ⟨tail, htail, -⟩ := result_map_eq_ok_iff.mp hrest
    rw [all, hevents, events_map, ih htail, List.flatMap_cons]

theorem all_eq_pure {f : α → Expansion β} {g : α → β} {l : List α}
    (h : ∀ a ∈ l, f a = pure (g a)) : all f l = pure (l.map g) := by
  induction l with
  | nil => rfl
  | cons a rest ih =>
    rw [all, h a List.mem_cons_self, ih fun b hb => h b (List.mem_cons_of_mem a hb)]
    rfl

/-- A run finishes exactly if each of its steps does. -/
theorem finishes_all_iff {f : α → Expansion β} {l : List α} :
    (∃ bs, (all f l).result = .ok bs) ↔ ∀ a ∈ l, ∃ b, (f a).result = .ok b := by
  constructor
  · rintro ⟨bs, hbs⟩ a ha
    obtain ⟨b, -, hb⟩ := exists_right_of_mem (forall₂_of_all hbs) ha
    exact ⟨b, hb⟩
  · intro h
    induction l with
    | nil => exact ⟨[], rfl⟩
    | cons a rest ih =>
      obtain ⟨b, hb⟩ := h a List.mem_cons_self
      obtain ⟨bs, hbs⟩ := ih fun c hc => h c (List.mem_cons_of_mem a hc)
      refine ⟨b :: bs, ?_⟩
      rw [all, bind, hb]
      exact result_map_eq_ok_iff.mpr ⟨bs, hbs, rfl⟩

theorem finishes_map_iff {f : α → β} {x : Expansion α} :
    (∃ b, (x.map f).result = .ok b) ↔ ∃ a, x.result = .ok a := by
  constructor
  · rintro ⟨b, hb⟩
    obtain ⟨a, ha, -⟩ := result_map_eq_ok_iff.mp hb
    exact ⟨a, ha⟩
  · rintro ⟨a, ha⟩
    exact ⟨f a, result_map_eq_ok_iff.mpr ⟨a, ha, rfl⟩⟩

end Expansion

/-! ### Runs over intents -/

section Runs

variable {table : SynonymTable} {cap : Option Cap}

/-- An intent that is expanded keeps its name and its fields, and its new sentences are variants of
its old ones. -/
theorem Intent.expand_eq_ok {intent expanded : Intent}
    (h : (intent.expand table cap).result = .ok expanded) :
    ∃ variants,
      List.Forall₂ (fun s vs => (s.expand table cap (some intent.name)).result = .ok vs)
        intent.sentences variants ∧
      expanded = { intent with sentences := variants.flatten } ∧
      (intent.expand table cap).events =
        intent.sentences.flatMap fun s => (s.expand table cap (some intent.name)).events := by
  obtain ⟨variants, hall, rfl⟩ := Expansion.result_map_eq_ok_iff.mp h
  exact ⟨variants, Expansion.forall₂_of_all hall, rfl, Expansion.events_all hall⟩

theorem Intents.expand_eq_ok {intents expanded : Intents}
    (h : (intents.expand table cap).result = .ok expanded) :
    List.Forall₂ (fun e f => f.1 = e.1 ∧ (e.2.expand table cap).result = .ok f.2)
      intents expanded ∧
    (intents.expand table cap).events =
      intents.flatMap fun e => (e.2.expand table cap).events := by
  refine ⟨(Expansion.forall₂_of_all h).imp ?_, Expansion.events_all h⟩
  rintro e f hstep
  obtain ⟨intent, hintent, rfl⟩ := Expansion.result_map_eq_ok_iff.mp hstep
  exact ⟨rfl, hintent⟩

/-- Expanded intents keep their keys and their order. -/
theorem Intents.keys_expand {intents expanded : Intents}
    (h : (intents.expand table cap).result = .ok expanded) :
    Entries.keys expanded = Entries.keys intents :=
  (map_eq_map_of_forall₂ (Intents.expand_eq_ok h).1 fun _ _ hstep => hstep.1.symm).symm

end Runs

theorem Intents.name_of_mem_ofJson {v : Json} {e : Text × Intent} (h : e ∈ Intents.ofJson v) :
    e.2.name = e.1 := by
  obtain ⟨_, -, rfl⟩ := List.mem_map.mp h
  rfl

/-! ### Opening a session -/

theorem Cap.ofInt?_eq_some_iff {n : Int} {m : Cap} : Cap.ofInt? n = some m ↔ (m.size : Int) = n := by
  have hpositive := m.positive
  unfold ofInt?
  constructor
  · intro h
    split at h
    · obtain rfl := Option.some.inj h
      dsimp only
      omega
    · cases h
  · rintro rfl
    rw [dif_pos (by omega)]
    rfl

theorem Cap.eq_of_map_size {cap cap' : Option Cap}
    (h : cap.map (fun m => (m.size : Int)) = cap'.map fun m => (m.size : Int)) : cap = cap' := by
  refine Option.map_injective ?_ h
  rintro ⟨size, hpositive⟩ ⟨size', hpositive'⟩ heq
  obtain rfl : size = size' := Int.ofNat_inj.mp heq
  rfl

theorem Session.open?_eq_some_iff {useSynonyms : Bool} {maxVariants : Option Int} {tree : Json}
    {session : Session} : Session.open? useSynonyms maxVariants tree = some session ↔
      ∃ cap : Option Cap, cap.map (fun m => (m.size : Int)) = maxVariants ∧
        session = start (Corpus.ofJson useSynonyms tree) cap := by
  cases maxVariants with
  | none =>
    constructor
    · intro h
      exact ⟨none, rfl, (Option.some.inj h).symm⟩
    · rintro ⟨_ | m, hcap, rfl⟩
      · rfl
      · cases hcap
  | some n =>
    rw [open?, Option.map_eq_some_iff]
    constructor
    · rintro ⟨m, hm, rfl⟩
      exact ⟨some m, congrArg some (Cap.ofInt?_eq_some_iff.mp hm), rfl⟩
    · rintro ⟨_ | m, hcap, rfl⟩
      · cases hcap
      · exact ⟨m, Cap.ofInt?_eq_some_iff.mpr (Option.some.inj hcap), rfl⟩

end Phrasing
