/-
  Phrasing/Proofs/Locality.lean
  =============================
  **An intent is expanded on its own.**

  All intents of a tree are expanded in one run, with one table of synonyms and
  under one cap.  Still nothing passes from one intent to another: what becomes of
  an intent, and what is told about it, hangs on its own definition and on the
  synonyms of its own placeholders.  Two trees that agree on these agree on all
  that is said of the intent.
-/
import Phrasing.Proofs.Losses
import Phrasing.Proofs.Rows

namespace Phrasing

/-! ### Tables that agree -/

/-- Whether two tables list the same synonyms for every placeholder of a sentence. -/
def Sentence.Agree (table table' : SynonymTable) (s : Sentence) : Prop :=
  ∀ slot ∈ s.slots, table.values slot.entity = table'.values slot.entity

section Agree

variable {table table' : SynonymTable} {cap : Option Cap}

theorem Sentence.expand_congr {s : Sentence} (h : s.Agree table table')
    (intent : Option Text) : s.expand table cap intent = s.expand table' cap intent := by
  have hdomain : ∀ slot ∈ s.slots, slot.domain table = slot.domain table' := by
    intro slot hslot
    rw [Slot.domain, Slot.domain, h slot hslot]
  have hdomains : s.domains table = s.domains table' := List.map_congr_left hdomain
  have hmissing : s.emptySlotEvents table intent = s.emptySlotEvents table' intent := by
    refine congrArg (List.map (Event.ofEmptySlot s intent)) (List.filter_congr ?_)
    intro slot hslot
    rw [hdomain slot hslot]
  have hchosen : s.chosen table cap intent = s.chosen table' cap intent := by
    unfold chosen countVariants
    rw [hdomains, hmissing]
  rw [expand, expand, hchosen]

theorem Intent.expand_congr {intent : Intent}
    (h : ∀ s ∈ intent.sentences, s.Agree table table') :
    intent.expand table cap = intent.expand table' cap := by
  have hsentence : ∀ s ∈ intent.sentences,
      s.expand table cap (some intent.name) = s.expand table' cap (some intent.name) :=
    fun s hs => Sentence.expand_congr (h s hs) (some intent.name)
  have hall := Expansion.all_congr hsentence
  rw [Intent.expand, hall, Intent.expand]

end Agree

/-! ### One intent of a run -/

section Runs

variable {table : SynonymTable} {cap : Option Cap}

theorem Sentence.intent_of_mem_lossEvents {intent : Option Text} {s : Sentence} {e : Event}
    (h : e ∈ s.lossEvents table cap intent) : e.intent = intent := by
  rcases List.mem_append.mp h with hslot | hcap
  · obtain ⟨slot, -, rfl⟩ := List.mem_map.mp hslot
    rfl
  · obtain ⟨m, -, rfl⟩ := List.mem_map.mp hcap
    rfl

variable {intents expanded : Intents}

/-- Under a name stands what the intent of that name is expanded to. -/
theorem Intents.get?_expand (h : (intents.expand table cap).result = .ok expanded) (name : Text) :
    Entries.get? expanded name =
      (Entries.get? intents name).bind fun intent => (intent.expand table cap).result.toOption := by
  obtain ⟨hsteps, -⟩ := Intents.expand_eq_ok h
  clear h
  induction hsteps with
  | nil => rfl
  | @cons e f rest tail hstep _ ih =>
    obtain ⟨k, intent⟩ := e
    obtain ⟨k', changed⟩ := f
    obtain ⟨rfl, hresult⟩ := hstep
    by_cases hk : k' = name
    · simp only [Entries.get?, if_pos hk, Option.bind_some, hresult, Except.toOption]
    · rw [Entries.get?_cons_of_ne hk, Entries.get?_cons_of_ne hk, ih]

/-- The events under a name are those of the intent of that name. -/
theorem Intents.filter_events_expand (honce : Entries.WellFormed intents)
    (hnames : ∀ e ∈ intents, e.2.name = e.1)
    (h : (intents.expand table cap).result = .ok expanded) (name : Text) :
    (intents.expand table cap).events.filter (fun e => e.intent = some name) =
      (Entries.get? intents name).elim [] fun intent => (intent.expand table cap).events := by
  obtain ⟨hsteps, hevents⟩ := Intents.expand_eq_ok h
  have htag : ∀ e ∈ intents, ∀ event ∈ (e.2.expand table cap).events,
      event.intent = some e.1 := by
    intro e he event hevent
    obtain ⟨f, -, -, hf⟩ := exists_right_of_mem hsteps he
    rw [Intent.events_expand hf, hnames e he] at hevent
    obtain ⟨s, -, hs⟩ := List.mem_flatMap.mp hevent
    exact Sentence.intent_of_mem_lossEvents hs
  rw [hevents]
  refine Entries.filter_flatMap honce ?_ ?_
  · intro intent hmem event hevent
    exact decide_eq_true (htag _ hmem event hevent)
  · intro e he hne event hevent
    rw [htag e he event hevent]
    simpa using hne

/-- Two runs that agree on an intent and on the synonyms of its placeholders agree on what becomes
of it and on what is told of it. -/
theorem Intents.agree_of_expand {table' : SynonymTable} {intents' expanded' : Intents} {name : Text}
    (honce : Entries.WellFormed intents) (honce' : Entries.WellFormed intents')
    (hnames : ∀ e ∈ intents, e.2.name = e.1) (hnames' : ∀ e ∈ intents', e.2.name = e.1)
    (h : (intents.expand table cap).result = .ok expanded)
    (h' : (intents'.expand table' cap).result = .ok expanded')
    (hsame : Entries.get? intents name = Entries.get? intents' name)
    (hagree : ∀ intent, Entries.get? intents name = some intent →
      ∀ s ∈ intent.sentences, s.Agree table table') :
    Entries.get? expanded name = Entries.get? expanded' name ∧
      expanded.rows.filter (fun r => r.intent = name) =
        expanded'.rows.filter (fun r => r.intent = name) ∧
      (intents.expand table cap).events.filter (fun e => e.intent = some name) =
        (intents'.expand table' cap).events.filter (fun e => e.intent = some name) := by
  have hexpanded : Entries.get? expanded name = Entries.get? expanded' name := by
    rw [get?_expand h, get?_expand h', ← hsame]
    refine Option.bind_congr fun intent hintent => ?_
    rw [Intent.expand_congr (hagree intent hintent)]
  have hkeys : Entries.WellFormed expanded := by
    rwa [Entries.WellFormed, keys_expand h]
  have hkeys' : Entries.WellFormed expanded' := by
    rwa [Entries.WellFormed, keys_expand h']
  refine ⟨hexpanded, ?_, ?_⟩
  · rw [filter_rows_get? hkeys, filter_rows_get? hkeys', hexpanded]
  · rw [filter_events_expand honce hnames h, filter_events_expand honce' hnames' h', ← hsame]
    cases hget : Entries.get? intents name with
    | none => rfl
    | some intent => rw [Option.elim_some, Option.elim_some, Intent.expand_congr (hagree intent hget)]

end Runs

/-! ### One intent of a tree -/

namespace Corpus

/-- The definition of an intent in a tree. -/
def definition? (tree : Json) (name : Text) : Option Json :=
  (sectionOf tree Intents.treeKey).field? name

theorem get?_intents_ofJson (useSynonyms : Bool) (tree : Json) (name : Text) :
    Entries.get? (ofJson useSynonyms tree).intents name =
      (definition? tree name).map (Intent.ofJson name) := by
  exact Entries.get?_mapValues _ _ _

end Corpus

namespace Session

/-- **An intent is expanded on its own.**  Take two sessions, on whatever trees, under one bound on
variants, that both reply with stored intents.  If a name has the same definition in both trees, or
in neither, and both sessions list the same synonyms for every placeholder of that definition, then
they store the same under that name, give the same rows, and tell the same events. -/
theorem same_replies_on_intent (useSynonyms useSynonyms' : Bool) (maxVariants : Option Int)
    (tree tree' : Json) (session session' : Session) (out out' : Entries Text Json) (name : Text)
    (htree : tree.WellFormed) (htree' : tree'.WellFormed)
    (hopen : open? useSynonyms maxVariants tree = some session)
    (hopen' : open? useSynonyms' maxVariants tree' = some session')
    (hout : (session.perform .storedIntents).1 = .fields out)
    (hout' : (session'.perform .storedIntents).1 = .fields out')
    (hsame : Corpus.definition? tree name = Corpus.definition? tree' name)
    (hsynonyms : ∀ definition, Corpus.definition? tree name = some definition →
      ∀ s ∈ (Intent.ofJson name definition).sentences, ∀ slot ∈ s.slots,
        (session.perform (.synonyms slot.entity)).1 =
          (session'.perform (.synonyms slot.entity)).1) :
    out.get? name = out'.get? name ∧
      (∃ rows rows', (session.perform .rows).1 = .rows rows ∧
        (session'.perform .rows).1 = .rows rows' ∧
        rows.filter (fun r => r.intent = name) = rows'.filter (fun r => r.intent = name)) ∧
      (session.perform .storedIntents).2.events.filter (fun e => e.intent = some name) =
        (session'.perform .storedIntents).2.events.filter (fun e => e.intent = some name) := by
  obtain ⟨cap, hcap, rfl⟩ := open?_eq_some_iff.mp hopen
  obtain ⟨cap', hcap', rfl⟩ := open?_eq_some_iff.mp hopen'
  obtain rfl : cap = cap' := Cap.eq_of_map_size (hcap.trans hcap'.symm)
  obtain ⟨expanded, hexpanded, rfl⟩ := storedIntents_eq_fields hout
  obtain ⟨expanded', hexpanded', rfl⟩ := storedIntents_eq_fields hout'
  have hintents := Corpus.get?_intents_ofJson useSynonyms tree name
  have hintents' := Corpus.get?_intents_ofJson useSynonyms' tree' name
  have hagree : ∀ intent, Entries.get? (Corpus.ofJson useSynonyms tree).intents name = some intent →
      ∀ s ∈ intent.sentences, s.Agree (Corpus.ofJson useSynonyms tree).synonyms
        (Corpus.ofJson useSynonyms' tree').synonyms := by
    intro intent hintent s hs slot hslot
    rw [hintents, Option.map_eq_some_iff] at hintent
    obtain ⟨definition, hdefinition, rfl⟩ := hintent
    exact Reply.names.inj (hsynonyms definition hdefinition s hs slot hslot)
  obtain ⟨hstored, hrows, hevents⟩ := Intents.agree_of_expand
    (Corpus.wellFormed_intents htree useSynonyms) (Corpus.wellFormed_intents htree' useSynonyms')
    (fun e he => Intents.name_of_mem_ofJson he) (fun e he => Intents.name_of_mem_ofJson he)
    hexpanded hexpanded' (by rw [hintents, hintents', hsame]) hagree
  refine ⟨?_, ⟨_, _, perform_rows hexpanded, perform_rows hexpanded', hrows⟩, hevents⟩
  rw [Intents.toFields, Intents.toFields, Entries.get?_mapValues, Entries.get?_mapValues, hstored]

/-- Two trees with one intent in common, between others and with other synonyms around those of its
placeholders.  Its first sentence is expanded, its second is dropped. -/
theorem same_replies_on_intent_between_others :
    let part (kind value : Text) : Json := .obj [("type", .str kind), ("value", .str value)]
    let records (values : List Text) : Json :=
      .obj [("data", .arr (values.map fun v => .obj [("value", .str v)]))]
    let go : Json := .obj [("data", .arr [
      .arr [part "text" "to ", part "synonym" "x"], .arr [part "synonym" "y"]])]
    let tree : Json := .obj [
      ("intents", .obj [("go", go), ("stop", .obj [("data", .arr [.arr [part "synonym" "z"]])])]),
      ("synonyms", .obj [("x", records ["A", "B"]), ("y", .null), ("z", records [])])]
    let tree' : Json := .obj [
      ("synonyms", .obj [("z", records ["C"]), ("x", records ["A", "B"])]),
      ("entities", .obj [("x", records ["A"])]),
      ("intents", .obj [("wait", .null), ("go", go)])]
    let session := start (Corpus.ofJson false tree) (some ⟨2, by decide⟩)
    let session' := start (Corpus.ofJson true tree') (some ⟨2, by decide⟩)
    let stored : Json := .obj [("data", .arr [
      .arr [part "text" "to ", part "text" "A"], .arr [part "text" "to ", part "text" "B"]])]
    let name : Text := "go"
    let out : Entries Text Json := [("go", stored), ("stop", .obj [("data", .arr [])])]
    let out' : Entries Text Json := [("wait", .obj [("data", .arr [])]), ("go", stored)]
    tree.WellFormed ∧ tree'.WellFormed ∧
      open? false (some 2) tree = some session ∧ open? true (some 2) tree' = some session' ∧
      (session.perform .storedIntents).1 = .fields out ∧
      (session'.perform .storedIntents).1 = .fields out' ∧
      Corpus.definition? tree name = some go ∧ Corpus.definition? tree' name = some go ∧
      (session.perform .storedIntents).2.events.length = 2 ∧
      (session'.perform .storedIntents).2.events.length = 1 ∧
      out.get? name = out'.get? name ∧
      (session.perform .storedIntents).2.events.filter (fun e => e.intent = some name) =
        (session'.perform .storedIntents).2.events.filter (fun e => e.intent = some name) := by
  intro part records go tree tree' session session' stored name out out'
  have htree : tree.WellFormed := by decide
  have htree' : tree'.WellFormed := by decide
  have hopen : open? false (some 2) tree = some session := rfl
  have hopen' : open? true (some 2) tree' = some session' := rfl
  have hout : (session.perform .storedIntents).1 = .fields out := rfl
  have hout' : (session'.perform .storedIntents).1 = .fields out' := rfl
  have hsynonyms : ∀ definition, Corpus.definition? tree name = some definition →
      ∀ s ∈ (Intent.ofJson name definition).sentences, ∀ slot ∈ s.slots,
        (session.perform (.synonyms slot.entity)).1 =
          (session'.perform (.synonyms slot.entity)).1 := by
    intro definition hdefinition s hs slot hslot
    obtain rfl : go = definition := Option.some.inj hdefinition
    have hnames : ∀ t ∈ (Intent.ofJson name go).sentences, ∀ slot ∈ t.slots,
        slot.entity = "x" ∨ slot.entity = "y" := by decide
    rcases hnames s hs slot hslot with hx | hy
    · rw [hx]
      rfl
    · rw [hy]
      rfl
  obtain ⟨hstored, -, hevents⟩ := same_replies_on_intent false true (some 2) tree tree' session
    session' out out' name htree htree' hopen hopen' hout hout' rfl hsynonyms
  have hlength : (session.perform .storedIntents).2.events.length = 2 := by decide +kernel
  have hlength' : (session'.perform .storedIntents).2.events.length = 1 := by decide +kernel
  exact ⟨htree, htree', hopen, hopen', hout, hout', rfl, rfl, hlength, hlength', hstored, hevents⟩

end Session

end Phrasing
