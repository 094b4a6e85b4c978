/-
  Phrasing/Proofs/Losses.lean
  ===========================
  **No variant is lost without an event.**

  A sentence yields fewer variants than its placeholders promise for two reasons:
  a required placeholder of an entity without synonyms, which leaves no variant at
  all, and a cap.  The events of an expansion tell exactly these reasons, never
  both at once, and the events of a whole run are those of its sentences in order,
  each under the name of its own intent.
-/
import Phrasing.Corpus.Session
import Phrasing.Proofs.Run
import Phrasing.Proofs.Variants

namespace Phrasing

namespace Sentence

/-! ### What has to be reported -/

/-- The required slots of entities that have no synonyms, in order. -/
def unfillable (table : SynonymTable) (s : Sentence) : List Slot :=
  s.slots.filter fun slot => !slot.optional && (table.values slot.entity).isEmpty

/-- The events that tell how an expansion comes to yield fewer variants: one for each slot that
cannot be filled, then one if a cap is smaller than the number of combinations. -/
def lossEvents (table : SynonymTable) (cap : Option Cap) (intent : Option Text) (s : Sentence) :
    List Event :=
  ((s.unfillable table).map fun slot =>
    { kind := "empty_domain"
      sentence := s.text
      entity := some slot.entity
      intent
      detail := some "required synonym has no values; sentence dropped" }) ++
  ((cap.filter fun m => m.size < s.total table).toList.map fun m =>
    { kind := "truncated"
      sentence := s.text
      entity := none
      intent
      detail := some
        ("kept " ++ Text.ofNat m.size ++ " of " ++ Text.ofNat (s.total table) ++ " variants") })

/-- What the events of an expansion say about its variants. -/
structure Accounted (table : SynonymTable) (cap : Option Cap) (intent : Option Text) (s : Sentence)
    (vs : List Sentence) (events : List Event) : Prop where
  /-- Nothing else is reported. -/
  exact_events : events = s.lossEvents table cap intent
  /-- A sentence is not dropped and cut at once. -/
  exclusive : ¬ ((∃ e ∈ events, e.kind = Event.emptyDomain) ∧
    ∃ e ∈ events, e.kind = Event.truncated)
  /-- A sentence is dropped exactly if that is reported. -/
  dropped_iff : vs = [] ↔ ∃ e ∈ events, e.kind = Event.emptyDomain
  /-- A sentence that is not dropped is cut exactly if that is reported. -/
  cut_iff : (s.total table ≠ 0 ∧ vs.length < s.total table) ↔
    ∃ e ∈ events, e.kind = Event.truncated

/-! ### Slots that cannot be filled -/

theorem domain_isEmpty (table : SynonymTable) (slot : Slot) :
    (slot.domain table).isEmpty = (!slot.optional && (table.values slot.entity).isEmpty) := by
  unfold Slot.domain
  cases slot.optional <;> simp

theorem total_eq_zero_iff (table : SynonymTable) (s : Sentence) :
    s.total table = 0 ↔ s.unfillable table ≠ [] := by
  rw [total, Odometer.size_eq_zero_iff, domains, List.mem_map, Ne, unfillable,
    List.filter_eq_nil_iff, Classical.not_forall]
  constructor
  · rintro ⟨slot, hslot, hempty⟩
    refine ⟨slot, fun hno => hno hslot ?_⟩
    rw [← domain_isEmpty, hempty]
    rfl
  · rintro ⟨slot, hno⟩
    simp only [Classical.not_imp, Classical.not_not] at hno
    obtain ⟨hslot, hempty⟩ := hno
    rw [← domain_isEmpty, List.isEmpty_iff] at hempty
    exact ⟨slot, hslot, hempty⟩

theorem total_of_slots_eq_nil {table : SynonymTable} {s : Sentence} (h : s.slots = []) :
    s.total table = 1 := by
  rw [total, domains, h]
  rfl

/-! ### Kinds of events -/

section Kinds

variable {table : SynonymTable} {cap : Option Cap} {intent : Option Text} {s : Sentence}

theorem emptyDomain_ne_truncated : Event.emptyDomain ≠ Event.truncated := by decide

theorem exists_emptyDomain_iff :
    (∃ e ∈ s.lossEvents table cap intent, e.kind = Event.emptyDomain) ↔ s.total table = 0 := by
  rw [total_eq_zero_iff]
  constructor
  · rintro ⟨e, he, hkind⟩ hnone
    rw [lossEvents, hnone, List.map_nil, List.nil_append] at he
    obtain ⟨m, -, rfl⟩ := List.mem_map.mp he
    exact emptyDomain_ne_truncated hkind.symm
  · intro hsome
    obtain ⟨slot, rest, hslots⟩ := List.exists_cons_of_ne_nil hsome
    rw [lossEvents, hslots]
    exact ⟨_, List.mem_append_left _ List.mem_cons_self, rfl⟩

theorem exists_truncated_iff :
    (∃ e ∈ s.lossEvents table cap intent, e.kind = Event.truncated) ↔
      Cap.Cuts cap (s.total table) := by
  constructor
  · rintro ⟨e, he, hkind⟩
    rcases List.mem_append.mp he with hslot | hcap
    · obtain ⟨slot, -, rfl⟩ := List.mem_map.mp hslot
      exact absurd hkind emptyDomain_ne_truncated
    · obtain ⟨m, hm, -⟩ := List.mem_map.mp hcap
      rw [Option.mem_toList, Option.filter_eq_some_iff] at hm
      exact ⟨m, hm.1, of_decide_eq_true hm.2⟩
  · rintro ⟨m, hm, hlt⟩
    have hkeep : (cap.filter fun m => m.size < s.total table) = some m :=
      Option.filter_eq_some_iff.mpr ⟨hm, decide_eq_true hlt⟩
    rw [lossEvents, hkeep]
    exact ⟨_, List.mem_append_right _ List.mem_cons_self, rfl⟩

end Kinds

end Sentence

/-! ### Counting what is kept -/

theorem Cap.kept_eq_zero_iff (cap : Option Cap) (total : Nat) :
    Cap.kept cap total = 0 ↔ total = 0 := by
  cases cap with
  | none => rfl
  | some m =>
    have hpos := m.positive
    simp only [Cap.kept]
    omega

theorem Cap.kept_lt_iff (cap : Option Cap) (total : Nat) :
    Cap.kept cap total < total ↔ Cap.Cuts cap total := by
  constructor
  · intro h
    cases cap with
    | none => exact absurd h (Nat.lt_irrefl total)
    | some m =>
      simp only [Cap.kept] at h
      exact ⟨m, rfl, by omega⟩
  · rintro ⟨m, hm, hlt⟩
    obtain rfl : cap = some m := hm
    rwa [Cap.kept_of_lt hlt]

namespace Sentence

variable {table : SynonymTable} {cap : Option Cap} {intent : Option Text} {s : Sentence}

theorem finalEvents_eq_lossEvents :
    s.finalEvents table cap intent = s.lossEvents table cap intent := by
  have hslots : (s.slots.filter fun slot => (slot.domain table).isEmpty) = s.unfillable table := by
    simp only [domain_isEmpty, unfillable]
  rw [finalEvents, emptySlotEvents, hslots]
  rfl

/-- The events of an expansion that finishes are the ones that have to be reported. -/
theorem events_expand {vs : List Sentence} (h : (s.expand table cap intent).result = .ok vs) :
    (s.expand table cap intent).events = s.lossEvents table cap intent ∧
      vs.length = Cap.kept cap (s.total table) := by
  by_cases hs : s.slots = []
  · have htotal : s.total table = 1 := total_of_slots_eq_nil hs
    have hcap : ¬ Cap.Cuts cap 1 := fun ⟨m, _, hlt⟩ => by
      have hpos := m.positive
      omega
    have hnone : (cap.filter fun m => m.size < 1) = none := by
      rw [Option.filter_eq_none_iff]
      exact fun m hm hlt => hcap ⟨m, hm, of_decide_eq_true hlt⟩
    rw [expand_of_slots_eq_nil hs] at h ⊢
    obtain rfl : [s] = vs := Except.ok.inj h
    rw [htotal, Cap.kept_of_not_cuts hcap, lossEvents, unfillable, hs, htotal, hnone]
    exact ⟨rfl, rfl⟩
  · obtain ⟨rfl, hevents⟩ := expand_eq_of_result hs h
    exact ⟨hevents.trans finalEvents_eq_lossEvents, length_variants table cap s⟩

theorem accounted_expand {vs : List Sentence} (h : (s.expand table cap intent).result = .ok vs) :
    s.Accounted table cap intent vs (s.expand table cap intent).events := by
  obtain ⟨hevents, hlength⟩ := events_expand h
  rw [hevents]
  refine ⟨rfl, ?_, ?_, ?_⟩
  · rintro ⟨hdropped, hcut⟩
    rw [exists_emptyDomain_iff] at hdropped
    obtain ⟨m, -, hlt⟩ := exists_truncated_iff.mp hcut
    omega
  · rw [exists_emptyDomain_iff, ← List.length_eq_zero_iff, hlength, Cap.kept_eq_zero_iff]
  · rw [exists_truncated_iff, ← Cap.kept_lt_iff, hlength]
    omega

end Sentence

/-! ### Runs over a corpus -/

section Runs

variable {table : SynonymTable} {cap : Option Cap}

theorem Intent.events_expand {intent expanded : Intent}
    (h : (intent.expand table cap).result = .ok expanded) :
    (intent.expand table cap).events =
      intent.sentences.flatMap (Sentence.lossEvents table cap (some intent.name)) := by
  obtain ⟨variants, hsteps, -, hevents⟩ := Intent.expand_eq_ok h
  rw [hevents]
  refine List.flatMap_congr fun s hs => ?_
  obtain ⟨vs, -, hvs⟩ := exists_right_of_mem hsteps hs
  exact (Sentence.events_expand hvs).1

theorem Intents.events_expand {intents expanded : Intents}
    (hnames : ∀ e ∈ intents, e.2.name = e.1)
    (h : (intents.expand table cap).result = .ok expanded) :
    (intents.expand table cap).events =
      intents.flatMap fun e =>
        e.2.sentences.flatMap (Sentence.lossEvents table cap (some e.1)) := by
  obtain ⟨hsteps, hevents⟩ := Intents.expand_eq_ok h
  rw [hevents]
  refine List.flatMap_congr fun e he => ?_
  obtain ⟨f, -, -, hf⟩ := exists_right_of_mem hsteps he
  rw [Intent.events_expand hf, hnames e he]

end Runs

/-- **No silent loss.**  The events of an expansion that finishes account for every variant that is
missing.  The events that a session collects while it expands the intents of a tree are those of
the sentences, in the order of the intents and of their sentences, each under its own intent's
name. -/
theorem losses_reported :
    (∀ (table : SynonymTable) (cap : Option Cap) (intent : Option Text) (s : Sentence)
      (vs : List Sentence), (s.expand table cap intent).result = .ok vs →
        s.Accounted table cap intent vs (s.expand table cap intent).events) ∧
    ∀ (useSynonyms : Bool) (tree : Json) (session : Session) (expanded : Intents)
      (request : Request), session.corpus = Corpus.ofJson useSynonyms tree →
        (session.corpus.expand session.cap).result = .ok expanded →
        request = .storedIntents ∨ request = .expandedIntents →
        (session.perform request).2.events =
          session.events ++ session.corpus.intents.flatMap fun e =>
            e.2.sentences.flatMap fun s =>
              s.lossEvents session.corpus.synonyms session.cap (some e.1) := by
  refine ⟨fun table cap intent s vs h => Sentence.accounted_expand h, ?_⟩
  intro useSynonyms tree session expanded request hcorpus hexpanded hrequest
  have hcollected : (session.perform request).2.events =
      session.events ++ (session.corpus.expand session.cap).events := by
    rcases hrequest with rfl | rfl
    · rfl
    · rfl
  have hnames : ∀ e ∈ session.corpus.intents, e.2.name = e.1 := by
    intro e he
    rw [hcorpus] at he
    exact Intents.name_of_mem_ofJson he
  rw [hcollected]
  exact congrArg (session.events ++ ·) (Intents.events_expand hnames hexpanded)

/-- A session whose tree has a sentence that is dropped and one that is cut. -/
theorem losses_reported_dropped_and_cut :
    let tree : Json := .obj [
      ("intents", .obj [("go", .obj [("data", .arr [
        .arr [.obj [("type", .str "synonym"), ("value", .str "place")]],
        .arr [.obj [("type", .str "synonym"), ("value", .str "day"),
          ("optional", .bool true)]]])])]),
      ("synonyms", .obj [("day", .obj [("data", .arr [.obj [("value", .str "today")]])])])]
    let session := Session.start (Corpus.ofJson false tree) (some ⟨1, by decide⟩)
    (∃ expanded, (session.corpus.expand session.cap).result = .ok expanded) ∧
      (session.perform .storedIntents).2.events = [
        ⟨"empty_domain", "place", some "place", some "go",
          some "required synonym has no values; sentence dropped"⟩,
        ⟨"truncated", "day", none, some "go", some "kept 1 of 2 variants"⟩] ∧
      Sentence.Accounted session.corpus.synonyms session.cap none [.synonym "place" false] []
        (Sentence.expand session.corpus.synonyms session.cap none
          [.synonym "place" false]).events := by
  intro tree session
  have hfinishes : (session.corpus.expand session.cap).result.isOk = true := by decide +kernel
  obtain ⟨expanded, hrun⟩ : ∃ e, (session.corpus.expand session.cap).result = .ok e := by
    cases hresult : (session.corpus.expand session.cap).result with
    | ok e => exact ⟨e, rfl⟩
    | error e =>
      rw [hresult] at hfinishes
      cases hfinishes
  have hdropped : (Sentence.expand session.corpus.synonyms session.cap none
      [.synonym "place" false]).result = .ok [] := rfl
  refine ⟨⟨_, hrun⟩, ?_, losses_reported.1 _ _ _ _ _ hdropped⟩
  rw [losses_reported.2 false tree session _ .storedIntents rfl hrun (Or.inl rfl)]
  decide

end Phrasing
