/-
  Phrasing/Proofs/Twice.lean
  ==========================
  **Expanding twice is expanding once.**

  What an expansion delivers has no placeholder left and is stored in a form that
  reads back.  So a second expansion finds nothing to do, whatever synonyms and
  whatever cap it is given: a sentence without placeholders is not even tidied.
-/
import Phrasing.Corpus.Session
import Phrasing.Proofs.Clean
import Phrasing.Proofs.Run
import Phrasing.Proofs.StoredForm
import Phrasing.Proofs.Variants

namespace Phrasing

/-! ### Sentences without placeholders -/

namespace Sentence

/-- Whether the sentence has no placeholder and an object can describe each of its parts. -/
def Final (s : Sentence) : Prop := ∀ p ∈ s, p.Describable ∧ p.isSynonym = false

theorem slots_of_final {s : Sentence} (h : s.Final) : s.slots = [] :=
  (slots_eq_nil_iff s).mpr fun p hp => (h p hp).2

theorem final_realize {s : Sentence} (h : ∀ p ∈ s, p.Describable) (values : List Text) :
    (s.realize values).Final := by
  intro p hp
  rcases mem_tidyFrom hp with ⟨t, rfl⟩ | hfilled
  · exact ⟨trivial, rfl⟩
  · rcases mem_replaceFrom hfilled with ⟨t, rfl⟩ | ⟨hmem, hno⟩
    · exact ⟨trivial, rfl⟩
    · exact ⟨h p hmem, hno⟩

section Expanding

variable {table : SynonymTable} {cap : Option Cap} {intent : Option Text} {s : Sentence}

/-- No placeholder survives an expansion. -/
theorem final_of_expand (h : ∀ p ∈ s, p.Describable) {vs : List Sentence}
    (hvs : (s.expand table cap intent).result = .ok vs) : ∀ v ∈ vs, v.Final := by
  intro v hv
  by_cases hs : s.slots = []
  · rw [expand_of_slots_eq_nil hs] at hvs
    obtain rfl : [s] = vs := Except.ok.inj hvs
    obtain rfl : v = s := List.mem_singleton.mp hv
    exact fun p hp => ⟨h p hp, (slots_eq_nil_iff v).mp hs p hp⟩
  · obtain ⟨rfl, -⟩ := expand_eq_of_result hs hvs
    obtain ⟨values, -, rfl⟩ := List.mem_map.mp hv
    exact final_realize h values

theorem expand_of_final (h : s.Final) : s.expand table cap intent = .pure [s] :=
  expand_of_slots_eq_nil (slots_of_final h)

end Expanding

theorem final_compact {s : Sentence} (h : s.Final) : s.compact.Final := by
  intro p hp
  obtain ⟨q, hq, rfl⟩ := List.mem_map.mp hp
  exact ⟨Part.describable_compact (h q hq).1, by rw [Part.isSynonym_compact, (h q hq).2]⟩

end Sentence

/-! ### Intents without placeholders -/

section Intents

variable {table : SynonymTable} {cap : Option Cap}

def Intents.Final (intents : Intents) : Prop :=
  ∀ e ∈ intents, ∀ s ∈ e.2.sentences, s.Final

theorem Intent.expand_of_final {intent : Intent} (h : ∀ s ∈ intent.sentences, s.Final) :
    intent.expand table cap = .pure intent := by
  have hall : Expansion.all (Sentence.expand table cap (some intent.name)) intent.sentences =
      .pure (intent.sentences.map fun s => [s]) :=
    Expansion.all_eq_pure fun s hs => Sentence.expand_of_final (h s hs)
  have hflatten : (intent.sentences.map fun s => [s]).flatten = intent.sentences := by
    rw [← List.flatMap_def, List.flatMap_singleton']
  rw [Intent.expand, hall, Expansion.map_pure, hflatten]

/-- Intents without placeholders are expanded to themselves, and nothing is reported. -/
theorem Intents.expand_of_final {intents : Intents} (h : intents.Final) :
    intents.expand table cap = .pure intents := by
  have hstep : ∀ e ∈ intents,
      (e.2.expand table cap).map (fun intent => (e.1, intent)) = .pure (id e) := by
    intro e he
    rw [Intent.expand_of_final (h e he), Expansion.map_pure]
    rfl
  rw [Intents.expand, Expansion.all_eq_pure hstep, List.map_id]

/-- Expanded intents have no placeholder left, and an object can describe them. -/
theorem Intents.final_of_expand {intents expanded : Intents} (h : intents.Describable)
    (hexpanded : (intents.expand table cap).result = .ok expanded) :
    expanded.Describable ∧ expanded.Final := by
  obtain ⟨hsteps, -⟩ := Intents.expand_eq_ok hexpanded
  have hstep : ∀ f ∈ expanded,
      (f.2.name = f.1 ∧ f.2.Describable) ∧ ∀ s ∈ f.2.sentences, s.Final := by
    intro f hf
    obtain ⟨e, he, hname, hintent⟩ := exists_left_of_mem hsteps hf
    obtain ⟨hkey, hdescribable⟩ := h e he
    obtain ⟨variants, hvariants, heq, -⟩ := Intent.expand_eq_ok hintent
    have hfinal : ∀ s ∈ f.2.sentences, s.Final := by
      intro v hv
      rw [heq] at hv
      obtain ⟨vs, hvs, hmem⟩ := List.mem_flatten.mp hv
      obtain ⟨s, hs, hresult⟩ := exists_left_of_mem hvariants hvs
      exact Sentence.final_of_expand (hdescribable.parts s hs) hresult v hmem
    refine ⟨⟨?_, ?_, ?_⟩, hfinal⟩
    · rw [heq, hname]
      exact hkey
    · exact fun s hs p hp => (hfinal s hs p hp).1
    · rw [heq]
      exact hdescribable.fields
  exact ⟨fun f hf => (hstep f hf).1, fun f hf => (hstep f hf).2⟩

theorem Intents.final_compact {intents : Intents} (h : intents.Final) : intents.compact.Final := by
  intro e he s hs
  obtain ⟨f, hf, rfl⟩ := List.mem_map.mp he
  obtain ⟨t, ht, rfl⟩ := List.mem_map.mp hs
  exact Sentence.final_compact (h f hf t ht)

end Intents

/-! ### Sessions -/

theorem Session.storedIntents_eq_fields {session : Session} {out : Entries Text Json}
    (h : (session.perform .storedIntents).1 = .fields out) :
    ∃ expanded, (session.corpus.expand session.cap).result = .ok expanded ∧
      out = expanded.toFields := by
  cases hresult : (session.corpus.expand session.cap).result with
  | ok expanded =>
    have hreply : (session.perform .storedIntents).1 = .fields expanded.toFields := by
      simp only [perform, expanding, hresult]
    rw [hreply] at h
    exact ⟨expanded, rfl, (Reply.fields.inj h).symm⟩
  | error e =>
    have hreply : (session.perform .storedIntents).1 = .failed (.expansion e) := by
      simp only [perform, expanding, hresult]
    rw [hreply] at h
    cases h

theorem Session.perform_of_expand_eq_pure {session : Session} {intents : Intents}
    (h : session.corpus.expand session.cap = .pure intents) :
    session.perform .storedIntents = (.fields intents.toFields, session) := by
  simp only [perform, expanding, h, Expansion.pure, List.append_nil]

/-- **Expanding what was expanded changes nothing.**  Whatever tree a session was opened on, if it
replies with stored intents, then a session on these intents, with any synonyms, any entities and
any cap, replies with the same intents, and reports nothing. -/
theorem Session.storedIntents_twice (session other : Session) (tree synonyms entities : Json)
    (useSynonyms listsSynonyms : Bool) (out : Entries Text Json)
    (hcorpus : session.corpus = Corpus.ofJson useSynonyms tree)
    (hout : (session.perform .storedIntents).1 = .fields out)
    (hother : other.corpus = Corpus.ofJson listsSynonyms
      (.obj [(Intents.treeKey, .obj out), (Corpus.synonymsKey, synonyms),
        (Corpus.entitiesKey, entities)])) :
    other.perform .storedIntents = (.fields out, other) := by
  obtain ⟨expanded, hexpanded, rfl⟩ := storedIntents_eq_fields hout
  have hread : session.corpus.intents.Describable := by
    rw [hcorpus]
    exact Intents.describable_ofJson _
  obtain ⟨hdescribable, hfinal⟩ := Intents.final_of_expand hread hexpanded
  have hintents : other.corpus.intents = expanded.compact := by
    have hsection : other.corpus.intents = Intents.ofJson (.obj expanded.toFields) := by
      rw [hother]
      rfl
    rw [hsection, Intents.ofJson_toFields hdescribable]
  have hpure : other.corpus.expand other.cap = .pure expanded.compact := by
    rw [Corpus.expand, hintents, Intents.expand_of_final (Intents.final_compact hfinal)]
  rw [perform_of_expand_eq_pure hpure, Intents.toFields_compact hdescribable]

/-- A tree with a placeholder, a reference whose value is no string, and a sentence with blanks at
its edges, which is not tidied. -/
theorem Session.storedIntents_twice_greeting :
    let tree : Json := .obj [
      ("intents", .obj [("greet", .obj [("data", .arr [
          .arr [.obj [("value", .str " hello ")]],
          .arr [.obj [("type", .str "synonym"), ("value", .str "name")],
            .obj [("type", .str "entity"), ("role", .bool true), ("value", .int 3)]]]),
        ("note", .null)])]),
      ("synonyms", .obj [("name", .obj [("data", .arr [.obj [("value", .str "Ann ")]])])])]
    let out : Entries Text Json := [("greet", .obj [("note", .null), ("data", .arr [
      .arr [.obj [("type", .str "text"), ("value", .str " hello ")]],
      .arr [.obj [("type", .str "text"), ("value", .str "Ann ")],
        .obj [("type", .str "entity"), ("value", .str "3"), ("role", .bool true)]]])])]
    let again : Json := .obj [("intents", .obj out), ("synonyms", .str "none"), ("entities", .null)]
    let session := Session.start (Corpus.ofJson false tree) none
    let other := Session.start (Corpus.ofJson true again) (some ⟨1, by decide⟩)
    (session.perform .storedIntents).1 = .fields out ∧
      other.perform .storedIntents = (.fields out, other) := by
  intro tree out again session other
  have hout : (session.perform .storedIntents).1 = .fields out := rfl
  exact ⟨hout, Session.storedIntents_twice session other tree (.str "none") .null false true out
    rfl hout rfl⟩

end Phrasing
