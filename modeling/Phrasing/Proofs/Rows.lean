/-
  Phrasing/Proofs/Rows.lean
  =========================
  **The table says what the tree says.**

  Expanded intents are given out in two forms: as objects, whose parts are stored
  with a type, a value and whatever else belongs to them, and as rows of a table.
  Here the rows are read off the stored form again, from the values of the parts
  alone.  They are the rows of the table because no attribute of a part that was
  read stands under the key of its value.  Where a saved table goes is up to the
  host; on one that keeps tables it stands at its path, with all its rows.
-/
import Mathlib.Algebra.GroupWithZero.Nat
import Mathlib.Data.List.Nodup
import Phrasing.Corpus.Session
import Phrasing.Proofs.Inverse
import Phrasing.Proofs.Saving
import Phrasing.Proofs.Twice

namespace Phrasing

/-! ### Rows read off stored intents -/

/-- The values of the parts of a stored sentence one after the other, if each is a string. -/
def Sentence.storedText? (v : Json) : Option Text := do
  let parts ← v.items?
  let values ← parts.mapM fun part => (part.field? Part.valueKey).bind Json.text?
  return values.flatten

namespace Intent

/-- The sentences of a stored intent. -/
def storedSentences (v : Json) : List Json := ((v.field? dataKey).getD .null).items

def storedRows? (name : Text) (v : Json) : Option (List TrainingRow) := do
  let texts ← (storedSentences v).mapM Sentence.storedText?
  return texts.mapIdx fun place t => ⟨name, place, t⟩

end Intent

namespace Intents

/-- The rows of stored intents: one for each sentence, in order. -/
def storedRows? (out : Entries Text Json) : Option (List TrainingRow) := do
  let rows ← out.mapM fun e => Intent.storedRows? e.1 e.2
  return rows.flatten

/-- The number of sentences of all stored intents. -/
def storedSize (out : Entries Text Json) : Nat :=
  (out.map fun e => (Intent.storedSentences e.2).length).sum

end Intents

/-! ### The rows of the table are those of the tree -/

theorem mapM_eq_some_map {α β : Type} {f : α → Option β} {g : α → β} {l : List α}
    (h : ∀ a ∈ l, f a = some (g a)) : l.mapM f = some (l.map g) := by
  induction l with
  | nil => rfl
  | cons a rest ih =>
    rw [List.mapM_cons, h a List.mem_cons_self, ih fun b hb => h b (List.mem_cons_of_mem a hb)]
    rfl

theorem Part.field?_valueKey {p : Part} (h : p.Describable) :
    p.toJson.field? valueKey = some (.str p.value) := by
  have hfields : p.toJson.fields = p.toFields := rfl
  rw [Json.field?, hfields]
  cases p with
  | text t => simp [toFields, Entries.get?, valueKey_ne_typeKey.symm, value]
  | synonym entity optional => simp [toFields, Entries.get?, valueKey_ne_typeKey.symm, value]
  | reference kind t attributes =>
    rw [toFields_reference h.2]
    simp [Entries.get?, valueKey_ne_typeKey.symm, value]

theorem Sentence.storedText?_toJson {s : Sentence} (h : ∀ p ∈ s, p.Describable) :
    storedText? s.toJson = some s.text := by
  have hvalues : (s.map Part.toJson).mapM
      (fun part => (part.field? Part.valueKey).bind Json.text?) = some (s.map Part.value) := by
    rw [List.mapM_map]
    refine mapM_eq_some_map fun p hp => ?_
    rw [Function.comp_apply, Part.field?_valueKey (h p hp)]
    rfl
  have hitems : s.toJson.items? = some (s.map Part.toJson) := rfl
  rw [storedText?, hitems, Option.bind_eq_bind, Option.bind_some, hvalues, text, List.flatMap_def]
  rfl

namespace Intent

theorem storedSentences_toJson {intent : Intent} (h : intent.Describable) :
    storedSentences intent.toJson = intent.sentences.map Sentence.toJson := by
  have hfields : intent.toJson.fields = intent.toFields := rfl
  rw [storedSentences, Json.field?, hfields, toFields_eq h, Entries.get?_append_of_not_mem h.fields]
  simp [Entries.get?, Json.items, Json.items?]

theorem storedRows?_toJson {intent : Intent} (h : intent.Describable) (name : Text) :
    storedRows? name intent.toJson = some (intent.rows name) := by
  have htexts : (intent.sentences.map Sentence.toJson).mapM Sentence.storedText? =
      some (intent.sentences.map Sentence.text) := by
    rw [List.mapM_map]
    exact mapM_eq_some_map fun s hs => Sentence.storedText?_toJson (h.parts s hs)
  rw [storedRows?, storedSentences_toJson h, htexts, rows, Option.bind_eq_bind, Option.bind_some]
  refine congrArg some (List.ext_getElem? fun i => ?_)
  rw [List.getElem?_mapIdx, List.getElem?_mapIdx, List.getElem?_map, Option.map_map]
  rfl

end Intent

namespace Intents

theorem storedRows?_toFields {intents : Intents} (h : intents.Describable) :
    storedRows? intents.toFields = some intents.rows := by
  have hrows : intents.toFields.mapM (fun e => Intent.storedRows? e.1 e.2) =
      some (intents.map fun e => e.2.rows e.1) := by
    rw [toFields, Entries.mapValues, List.mapM_map]
    exact mapM_eq_some_map fun e he => Intent.storedRows?_toJson (h e he).2 e.1
  rw [storedRows?, hrows, rows, List.flatMap_def]
  rfl

theorem storedSize_toFields {intents : Intents} (h : intents.Describable) :
    storedSize intents.toFields = intents.rows.length := by
  have hsizes : ∀ e ∈ intents,
      (Intent.storedSentences e.2.toJson).length = (e.2.rows e.1).length := by
    intro e he
    rw [Intent.storedSentences_toJson (h e he).2, Intent.rows, List.length_map, List.length_mapIdx]
  rw [storedSize, toFields, Entries.mapValues, List.map_map, rows, List.length_flatMap]
  exact congrArg List.sum (List.map_congr_left hsizes)

end Intents

/-! ### Where a row stands -/

namespace Intent

theorem places_rows (name : Text) (intent : Intent) :
    (intent.rows name).map TrainingRow.place = List.range intent.sentences.length := by
  refine List.ext_getElem? fun i => ?_
  rw [rows, List.getElem?_map, List.getElem?_mapIdx]
  rcases Nat.lt_or_ge i intent.sentences.length with hi | hi
  · rw [List.getElem?_eq_getElem hi, List.getElem?_range hi]
    rfl
  · rw [List.getElem?_eq_none hi, List.getElem?_eq_none (by rwa [List.length_range])]
    rfl

theorem intent_of_mem_rows {name : Text} {intent : Intent} {r : TrainingRow}
    (h : r ∈ intent.rows name) : r.intent = name := by
  obtain ⟨i, hi, rfl⟩ := List.mem_mapIdx.mp h
  rfl

end Intent

namespace Intents

theorem rows_cons (e : Text × Intent) (rest : Intents) :
    rows (e :: rest) = e.2.rows e.1 ++ rows rest := List.flatMap_cons

theorem exists_key_of_mem_rows {intents : Intents} {r : TrainingRow} (h : r ∈ intents.rows) :
    r.intent ∈ Entries.keys intents := by
  obtain ⟨e, he, hr⟩ := List.mem_flatMap.mp h
  rw [Intent.intent_of_mem_rows hr]
  exact Entries.mem_keys_of_mem he

/-- The rows under a name are those of the intent of that name. -/
theorem filter_rows_get? {intents : Intents} (h : Entries.WellFormed intents)
    (name : Text) : intents.rows.filter (fun r => r.intent = name) =
      (Entries.get? intents name).elim [] (Intent.rows name) := by
  refine Entries.filter_flatMap h ?_ ?_
  · intro intent _ r hr
    exact decide_eq_true (Intent.intent_of_mem_rows hr)
  · intro e _ hne r hr
    rw [Intent.intent_of_mem_rows hr]
    exact decide_eq_false hne

theorem filter_rows {intents : Intents} (h : Entries.WellFormed intents) {e : Text × Intent}
    (he : e ∈ intents) : intents.rows.filter (fun r => r.intent = e.1) = e.2.rows e.1 := by
  rw [filter_rows_get? h, (Entries.get?_eq_some_iff h).mpr he, Option.elim_some]

/-- No two rows stand at the same place of the same intent. -/
theorem nodup_rows {intents : Intents} (h : Entries.WellFormed intents) :
    (intents.rows.map fun r => (r.intent, r.place)).Nodup := by
  induction intents with
  | nil => exact List.nodup_nil
  | cons e rest ih =>
    obtain ⟨hfirst, hrest⟩ := List.nodup_cons.mp h
    have hblock : ((e.2.rows e.1).map fun r => (r.intent, r.place)).Nodup := by
      refine List.Nodup.of_map Prod.snd ?_
      have hplaces : ((e.2.rows e.1).map fun r => (r.intent, r.place)).map Prod.snd =
          (e.2.rows e.1).map TrainingRow.place := by
        rw [List.map_map]
        rfl
      rw [hplaces, Intent.places_rows]
      exact List.nodup_range
    rw [rows_cons, List.map_append, List.nodup_append]
    refine ⟨hblock, ih hrest, ?_⟩
    intro a ha b hb heq
    obtain ⟨r, hr, rfl⟩ := List.mem_map.mp ha
    obtain ⟨r', hr', rfl⟩ := List.mem_map.mp hb
    have hname : r.intent = r'.intent := congrArg Prod.fst heq
    refine hfirst ?_
    rw [Intent.intent_of_mem_rows hr] at hname
    exact hname ▸ exists_key_of_mem_rows hr'

end Intents

/-! ### Saving a table -/

/-- Whether a table that was put at a path stands there, unless the path leads home or is an
address. -/
def Host.KeepsTables (host : Host) : Prop :=
  ∀ (d after : Disk) (p : Path) (rows : List TrainingRow), p.expandHome = p →
    Address.ofText? p.text = none → host.putTable d p rows = (after, .ok ()) →
    d.put p (.table rows) = .ok after

namespace Disk

variable [host : Host]

/-- Whether the directories on the way to a path can be made and a table can then be put there. -/
def AcceptsTable (d : Disk) (rows : List TrainingRow) (p : Path) : Prop :=
  ∃ made after, d.ensureDirectories p.parent = (made, .ok ()) ∧
    Host.putTable made p rows = (after, .ok ())

/-- A table is saved exactly if it can hold each row and the disk accepts it, and then with all its
rows. -/
theorem saveTable_eq_ok_iff (d : Disk) (rows : List TrainingRow) (p : Path) (size : Nat) :
    (d.saveTable rows p).result = .ok size ↔
      size = rows.length ∧ (∀ r ∈ rows, r.IsScalar) ∧ d.AcceptsTable rows p := by
  unfold saveTable
  by_cases hrows : ∀ r ∈ rows, r.IsScalar
  · rw [if_pos hrows, afterParents]
    rcases hparents : d.ensureDirectories p.parent with ⟨made, error | ⟨⟩⟩
    · simp [AcceptsTable, hparents]
    · dsimp only
      rcases hput : Host.putTable made p rows with ⟨after, error | ⟨⟩⟩
      · simp [AcceptsTable, hparents, hput]
      · constructor
        · rintro ⟨rfl⟩
          exact ⟨rfl, hrows, made, after, hparents, hput⟩
        · rintro ⟨rfl, -, -⟩
          rfl
  · rw [if_neg hrows]
    simp [hrows]

/-- On a host that keeps tables, a table that was saved stands at its path, with all its rows.  Read
as a file, it is the bytes that the host writes for them. -/
theorem table_of_saveTable (hhost : host.KeepsTables) {d : Disk} {rows : List TrainingRow}
    {p : Path} {size : Nat} (hhome : p.expandHome = p) (haddress : Address.ofText? p.text = none)
    (h : (d.saveTable rows p).result = .ok size) :
    let after := (d.saveTable rows p).disk
    (∃ l, after.resolve p = .ok l ∧ after.node? l = some (.table rows)) ∧
      after.bytes p = .ok (Host.tableBytes rows) := by
  intro after
  obtain ⟨-, hrows, made, final, hmade, hput⟩ := (d.saveTable_eq_ok_iff rows p size).mp h
  have hafter : after = final := by
    change (d.saveTable rows p).disk = final
    rw [saveTable, if_pos hrows, afterParents, hmade]
    dsimp only
    rw [hput]
  have hstands := hhost made final p rows hhome haddress hput
  cases hwritable : made.writable p with
  | error e =>
    rw [put_of_not_writable hwritable] at hstands
    cases hstands
  | ok l =>
    rw [put_of_writable hwritable] at hstands
    obtain rfl := Except.ok.inj hstands
    obtain ⟨hresolve, hnode⟩ := writable_eq_ok_iff.mp hwritable
    rw [hafter]
    refine ⟨⟨l, resolve_insert hnode _ hresolve, ?_⟩, openWith_insert _ _ hwritable _⟩
    exact node?_insert_self made (names_ne_nil_of_node? hnode) _

end Disk

/-- The host of the program keeps tables. -/
theorem keepsTables_programHost : programHost.KeepsTables := by
  intro d after p rows hhome haddress hput
  change Destination.putTable d p rows = (after, .ok ()) at hput
  rw [Destination.putTable, hhome] at hput
  cases hwrite : Destination.write d p rows with
  | error e =>
    rw [hwrite] at hput
    cases hput
  | ok found =>
    rw [hwrite] at hput
    obtain ⟨rfl, -⟩ := Prod.mk.inj hput
    rw [Destination.write, Destination.ofPath] at hwrite
    split at hwrite
    · cases hwrite
    · split at hwrite
      · cases hwrite
      · rw [haddress] at hwrite
        exact hwrite

/-! ### Sessions -/

theorem Corpus.wellFormed_intents {tree : Json} (h : tree.WellFormed) (useSynonyms : Bool) :
    Entries.WellFormed (Corpus.ofJson useSynonyms tree).intents := by
  have hsection := Json.wellFormed_field? h Intents.treeKey
  rw [Corpus.ofJson, Intents.ofJson, Entries.WellFormed, Entries.keys_mapValues]
  exact (Json.wellFormed_fields hsection).1

namespace Session

theorem perform_rows {session : Session} {expanded : Intents}
    (h : (session.corpus.expand session.cap).result = .ok expanded) :
    (session.perform .rows).1 = .rows expanded.rows := by
  simp only [perform, expanding, h]

section Expanded

variable {session : Session} {tree : Json} {useSynonyms : Bool} {expanded : Intents}

theorem describable_of_expand (hcorpus : session.corpus = Corpus.ofJson useSynonyms tree)
    (h : (session.corpus.expand session.cap).result = .ok expanded) : expanded.Describable := by
  rw [hcorpus] at h
  exact (Intents.final_of_expand (Intents.describable_ofJson _) h).1

/-- Expanded intents have each name once. -/
theorem wellFormed_of_expand (htree : tree.WellFormed)
    (hcorpus : session.corpus = Corpus.ofJson useSynonyms tree)
    (h : (session.corpus.expand session.cap).result = .ok expanded) :
    Entries.WellFormed expanded := by
  rw [hcorpus] at h
  rw [Entries.WellFormed, Intents.keys_expand h]
  exact Corpus.wellFormed_intents htree useSynonyms

end Expanded

/-- **Two forms of one expansion.**  Whatever tree a session was opened on, if it replies with
stored intents, then it also replies with rows, and these are the rows read off the stored intents.
The places of the rows of an intent count its sentences from zero without a gap, no place is taken
twice, and a table of the rows that is saved has as many of them as there are stored sentences. -/
theorem rows_of_storedIntents [Host] (session : Session) (tree : Json) (useSynonyms : Bool)
    (out : Entries Text Json) (htree : tree.WellFormed)
    (hcorpus : session.corpus = Corpus.ofJson useSynonyms tree)
    (hout : (session.perform .storedIntents).1 = .fields out) :
    ∃ rows, (session.perform .rows).1 = .rows rows ∧ Intents.storedRows? out = some rows ∧
      (∀ e ∈ out, (rows.filter fun r => r.intent = e.1).map TrainingRow.place =
        List.range (Intent.storedSentences e.2).length) ∧
      (rows.map fun r => (r.intent, r.place)).Nodup ∧
      ∀ (d : Disk) (p : Path) (size : Nat),
        (d.saveTable rows p).result = .ok size ↔
          size = Intents.storedSize out ∧ (∀ r ∈ rows, r.IsScalar) ∧ d.AcceptsTable rows p := by
  obtain ⟨expanded, hexpanded, rfl⟩ := storedIntents_eq_fields hout
  have hdescribable := describable_of_expand hcorpus hexpanded
  have honce := wellFormed_of_expand htree hcorpus hexpanded
  refine ⟨expanded.rows, perform_rows hexpanded, Intents.storedRows?_toFields hdescribable, ?_,
    Intents.nodup_rows honce, fun d p size => ?_⟩
  · intro e he
    obtain ⟨f, hf, rfl⟩ := List.mem_map.mp he
    rw [Intents.filter_rows honce hf, Intent.places_rows,
      Intent.storedSentences_toJson (hdescribable f hf).2, List.length_map]
  · rw [Intents.storedSize_toFields hdescribable]
    exact d.saveTable_eq_ok_iff expanded.rows p size

/-- A tree with two intents, of which one has a reference with attributes and a sentence without
parts. -/
theorem rows_of_storedIntents_two :
    let tree : Json := .obj [
      ("intents", .obj [
        ("go", .obj [("data", .arr [
          .arr [.obj [("value", .str "to ")], .obj [("type", .str "synonym"), ("value", .str "x")]],
          .arr [.obj [("role", .null), ("type", .str "slot"), ("value", .int 3)]]])]),
        ("stop", .obj [("data", .arr [.null]), ("note", .str "value")])]),
      ("synonyms", .obj [("x", .obj [("data", .arr [.obj [("value", .str "A")],
        .obj [("value", .str "B")]])])])]
    let session := Session.start (Corpus.ofJson false tree) none
    let out : Entries Text Json := [
      ("go", .obj [("data", .arr [
        .arr [.obj [("type", .str "text"), ("value", .str "to ")],
          .obj [("type", .str "text"), ("value", .str "A")]],
        .arr [.obj [("type", .str "text"), ("value", .str "to ")],
          .obj [("type", .str "text"), ("value", .str "B")]],
        .arr [.obj [("type", .str "slot"), ("value", .str "3"), ("role", .null)]]])]),
      ("stop", .obj [("note", .str "value"), ("data", .arr [.arr []])])]
    tree.WellFormed ∧ (session.perform .storedIntents).1 = .fields out ∧
      Intents.storedRows? out =
        some [⟨"go", 0, "to A"⟩, ⟨"go", 1, "to B"⟩, ⟨"go", 2, "3"⟩, ⟨"stop", 0, []⟩] ∧
      ∃ rows, (session.perform .rows).1 = .rows rows ∧ Intents.storedRows? out = some rows ∧
        (rows.map fun r => (r.intent, r.place)).Nodup := by
  intro tree session out
  have htree : tree.WellFormed := by decide
  have hout : (session.perform .storedIntents).1 = .fields out := rfl
  obtain ⟨rows, hrows, hstored, -, hnodup, -⟩ :=
    rows_of_storedIntents session tree false out htree rfl hout
  exact ⟨htree, hout, rfl, rows, hrows, hstored, hnodup⟩

end Session

end Phrasing
