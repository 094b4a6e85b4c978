/-
  Phrasing/Proofs/Insertion.lean
  ==============================
  **Listing synonyms only inserts them.**

  An entity that lists synonyms has each of its values where it would stand
  without them, moved by the synonyms of the values before it, and behind each
  value the synonyms of that value.  A synonym has no synonyms of its own in the
  list.  All else that is said of an entity, and every answer that does not look
  at the values of an entity, is the same with and without synonyms.
-/
import Mathlib.Algebra.GroupWithZero.Nat
import Phrasing.Proofs.Replies

namespace Phrasing

/-! ### Lists with insertions -/

section Lists

variable (synonyms : Text → List Text)

/-- A list in which the synonyms of each value are put behind it. -/
def withSynonyms (raw : List Text) : List Text := raw.flatMap fun v => v :: synonyms v

/-- The place of the value at `k`: behind the values before it and the synonyms of these. -/
def placeOf (raw : List Text) (k : Nat) : Nat :=
  k + ((raw.take k).map fun v => (synonyms v).length).sum

/-- How a list with synonyms hangs on the list without them, place by place. -/
structure Inserted (raw full : List Text) : Prop where
  length : full.length = raw.length + (raw.map fun v => (synonyms v).length).sum
  value : ∀ k v, raw[k]? = some v → full[placeOf synonyms raw k]? = some v
  followed : ∀ k v, raw[k]? = some v → ∀ i w, (synonyms v)[i]? = some w →
    full[placeOf synonyms raw k + 1 + i]? = some w
  /-- No place is left for anything else. -/
  only : ∀ place < full.length, ∃ k v, raw[k]? = some v ∧ placeOf synonyms raw k ≤ place ∧
    place ≤ placeOf synonyms raw k + (synonyms v).length

theorem withSynonyms_cons (v : Text) (rest : List Text) :
    withSynonyms synonyms (v :: rest) = (v :: synonyms v) ++ withSynonyms synonyms rest :=
  List.flatMap_cons

theorem placeOf_zero (raw : List Text) : placeOf synonyms raw 0 = 0 := by
  simp [placeOf]

theorem placeOf_succ (v : Text) (rest : List Text) (k : Nat) :
    placeOf synonyms (v :: rest) (k + 1) = (v :: synonyms v).length + placeOf synonyms rest k := by
  simp only [placeOf, List.take_succ_cons, List.map_cons, List.sum_cons, List.length_cons]
  omega

theorem length_withSynonyms (raw : List Text) :
    (withSynonyms synonyms raw).length =
      raw.length + (raw.map fun v => (synonyms v).length).sum := by
  induction raw with
  | nil => rfl
  | cons v rest ih =>
    rw [withSynonyms_cons, List.length_append, ih]
    simp only [List.length_cons, List.map_cons, List.sum_cons]
    omega

variable {synonyms}

/-- The value at `k` and its synonyms stand in a row that starts at the place of the value. -/
theorem getElem?_withSynonyms {raw : List Text} {k i : Nat} {v : Text} (h : raw[k]? = some v)
    (hi : i < (v :: synonyms v).length) :
    (withSynonyms synonyms raw)[placeOf synonyms raw k + i]? = (v :: synonyms v)[i]? := by
  induction raw generalizing k with
  | nil => simp at h
  | cons first rest ih =>
    rw [withSynonyms_cons]
    cases k with
    | zero =>
      obtain rfl : first = v := by simpa using h
      rw [placeOf_zero, Nat.zero_add, List.getElem?_append_left hi]
    | succ k =>
      -- the rows behind the first one are those of the rest, moved by the length of the first
      rw [placeOf_succ, Nat.add_assoc, List.getElem?_append_right (Nat.le_add_right _ _),
        Nat.add_sub_cancel_left]
      apply ih
      simpa using h

theorem exists_placeOf_le {raw : List Text} {place : Nat}
    (h : place < (withSynonyms synonyms raw).length) :
    ∃ k v, raw[k]? = some v ∧ placeOf synonyms raw k ≤ place ∧
      place ≤ placeOf synonyms raw k + (synonyms v).length := by
  induction raw generalizing place with
  | nil => exact absurd h (Nat.not_lt_zero _)
  | cons first rest ih =>
    rw [withSynonyms_cons, List.length_append] at h
    by_cases hfirst : place < (first :: synonyms first).length
    · refine ⟨0, first, rfl, ?_, ?_⟩
      · rw [placeOf_zero]
        exact Nat.zero_le _
      · rw [placeOf_zero]
        simp at hfirst
        omega
    · have hrest : place - (first :: synonyms first).length <
          (withSynonyms synonyms rest).length := by omega
      obtain ⟨k, v, hv, hlow, hhigh⟩ := ih hrest
      refine ⟨k + 1, v, by simpa using hv, ?_, ?_⟩
      · rw [placeOf_succ]
        omega
      · rw [placeOf_succ]
        omega

theorem inserted_withSynonyms (raw : List Text) :
    Inserted synonyms raw (withSynonyms synonyms raw) := by
  refine ⟨length_withSynonyms synonyms raw, ?_, ?_, fun place h => exists_placeOf_le h⟩
  · intro k v hv
    have hplace : (withSynonyms synonyms raw)[placeOf synonyms raw k + 0]? =
        (v :: synonyms v)[0]? := getElem?_withSynonyms hv (by simp)
    simpa using hplace
  · intro k v hv i w hw
    obtain ⟨hi, -⟩ := List.getElem?_eq_some_iff.mp hw
    have hplace : (withSynonyms synonyms raw)[placeOf synonyms raw k + (i + 1)]? =
        (v :: synonyms v)[i + 1]? := getElem?_withSynonyms hv (by simpa using hi)
    rw [Nat.add_assoc, Nat.add_comm 1 i, hplace, List.getElem?_cons_succ, hw]

end Lists

/-! ### Entities -/

namespace Entity

/-- The records behind a list of the entity that a value describes. -/
def recordsOf (definition : Json) : Option Text → Except LookupError Json
  | none => .ok ((definition.field? Intent.dataKey).getD .null)
  | some name =>
    match ((definition.field? variantsKey).getD .null).fields.get? name with
    | some records => .ok records
    | none => .error (.unknownVariant name)

theorem values_ofJson (table : SynonymTable) (definition : Json) (variant : Option Text) :
    (ofJson table definition).values variant =
      (recordsOf definition variant).map (collect table) := by
  cases variant with
  | none => rfl
  | some name =>
    rw [values, recordsOf, ofJson, Entries.get?_mapValues]
    cases ((definition.field? variantsKey).getD .null).fields.get? name with
    | none => rfl
    | some records => rfl

theorem collect_eq_withSynonyms (table : SynonymTable) (records : Json) :
    collect table records = withSynonyms table.values (collect [] records) := by
  have hraw : collect [] records = records.items.filterMap SynonymTable.recordValue? :=
    List.flatMap_singleton' _
  rw [hraw]
  rfl

theorem keys_variants_ofJson (table : SynonymTable) (definition : Json) :
    (ofJson table definition).variants.keys =
      Entries.keys ((definition.field? variantsKey).getD .null).fields := by
  rw [ofJson, Entries.keys_mapValues]

end Entity

/-! ### Sessions with and without synonyms -/

/-- Whether the request looks at the values of an entity. -/
def Request.asksValues : Request → Bool
  | .values _ _ | .next _ _ | .size _ => true
  | _ => false

/-- The synonyms that a tree lists. -/
def Corpus.tableOf (tree : Json) : SynonymTable := .ofJson (sectionOf tree synonymsKey)

namespace Session

/-- The value that describes an entity in a tree. -/
def definitionOf (tree : Json) (name : Text) : Except LookupError Json :=
  match (Corpus.sectionOf tree Corpus.entitiesKey).fields.get? name with
  | some definition => .ok definition
  | none => .error (.unknownEntity name)

section Flag

variable (tree : Json) (cap : Option Cap)

theorem entityNamed_start (useSynonyms : Bool) (name : Text) :
    (start (Corpus.ofJson useSynonyms tree) cap).entityNamed name =
      (definitionOf tree name).map
        (Entity.ofJson (if useSynonyms then Corpus.tableOf tree else [])) := by
  rw [entityNamed, provider, start, Entries.get?_mapValues, Corpus.ofJson, Corpus.entitiesOf,
    Entries.get?_mapValues, definitionOf]
  cases (Corpus.sectionOf tree Corpus.entitiesKey).fields.get? name with
  | none => rfl
  | some definition => rfl

/-- What is said of an entity without a look at its values hangs on its description alone. -/
theorem found_entityNamed {α : Type} (reply : α → Reply) {f : Entity → α}
    (hf : ∀ table definition, f (Entity.ofJson table definition) = f (Entity.ofJson [] definition))
    (name : Text) :
    found reply (((start (Corpus.ofJson true tree) cap).entityNamed name).map f) =
      found reply (((start (Corpus.ofJson false tree) cap).entityNamed name).map f) := by
  rw [entityNamed_start, entityNamed_start]
  cases definitionOf tree name with
  | error e => rfl
  | ok definition => exact congrArg reply (hf _ definition)

theorem perform_start_of_not_asksValues {request : Request} (h : request.asksValues = false) :
    ((start (Corpus.ofJson true tree) cap).perform request).1 =
      ((start (Corpus.ofJson false tree) cap).perform request).1 := by
  cases request with
  | values | next | size => cases h
  | entityNames =>
    simp only [perform, start, Corpus.ofJson, Corpus.entitiesOf, Entries.keys_mapValues]
  | props name =>
    have hprops := found_entityNamed tree cap .fields (f := Entity.props) (fun _ _ => rfl) name
    rw [found_map, found_map] at hprops
    exact hprops
  | variantNames name =>
    have hkeys : ∀ table definition, (Entity.ofJson table definition).variants.keys =
        (Entity.ofJson [] definition).variants.keys := by
      intro table definition
      rw [Entity.keys_variants_ofJson, Entity.keys_variants_ofJson]
    have hnames := found_entityNamed tree cap .names (f := fun entity => entity.variants.keys)
      hkeys name
    rw [found_map, found_map] at hnames
    exact hnames
  | storedIntents | expandedIntents | texts | rows | table =>
    exact perform_start_of_expands tree cap true rfl
  | synonymNames | intents | synonyms | counts | events | eventCount =>
    simp only [perform, start, Corpus.ofJson, Corpus.counts]

theorem perform_values_start (useSynonyms : Bool) (name : Text) (variant : Option Text) :
    ((start (Corpus.ofJson useSynonyms tree) cap).perform (.values name variant)).1 =
      found .names (((definitionOf tree name).bind fun definition =>
        Entity.recordsOf definition variant).map
          (Entity.collect (if useSynonyms then Corpus.tableOf tree else []))) := by
  rw [perform_values, entityNamed_start]
  cases definitionOf tree name with
  | error e => rfl
  | ok definition => exact congrArg (found .names) (Entity.values_ofJson _ definition variant)

end Flag

/-- **Listing synonyms only inserts them.**  Of two sessions on a tree, the one whose entities list
synonyms has each list of values as the other has it, with the synonyms of each value right behind
it and nothing else; a list that one of them refuses is refused by the other for the same reason.
Whatever does not look at the values of an entity is answered alike. -/
theorem synonyms_only_inserted (maxVariants : Option Int) (tree : Json) (plain full : Session)
    (hplain : open? false maxVariants tree = some plain)
    (hfull : open? true maxVariants tree = some full) :
    (∀ request : Request, request.asksValues = false →
      (full.perform request).1 = (plain.perform request).1) ∧
    ∃ synonyms : Text → List Text,
      (∀ x, (plain.perform (.synonyms x)).1 = .names (synonyms x)) ∧
      ∀ name variant,
        (∀ raw, (plain.perform (.values name variant)).1 = .names raw →
          ∃ values, (full.perform (.values name variant)).1 = .names values ∧
            Inserted synonyms raw values) ∧
        ∀ error, (plain.perform (.values name variant)).1 = .failed error ↔
          (full.perform (.values name variant)).1 = .failed error := by
  obtain ⟨cap, hcap, rfl⟩ := open?_eq_some_iff.mp hplain
  obtain ⟨cap', hcap', rfl⟩ := open?_eq_some_iff.mp hfull
  obtain rfl : cap = cap' := Cap.eq_of_map_size (hcap.trans hcap'.symm)
  refine ⟨fun request h => perform_start_of_not_asksValues tree cap h,
    (Corpus.tableOf tree).values, fun _ => rfl, ?_⟩
  -- both replies are made from the same records, or both fail for want of them
  intro name variant
  rw [perform_values_start, perform_values_start]
  cases (definitionOf tree name).bind fun definition => Entity.recordsOf definition variant with
  | error e =>
    refine ⟨?_, fun _ => Iff.rfl⟩
    intro raw h
    cases h
  | ok records =>
    constructor
    · intro raw h
      obtain rfl := Reply.names.inj h
      refine ⟨_, rfl, ?_⟩
      rw [if_pos rfl, if_neg Bool.false_ne_true,
        Entity.collect_eq_withSynonyms (Corpus.tableOf tree)]
      exact inserted_withSynonyms _
    · intro error
      constructor
      · intro h
        cases h
      · intro h
        cases h

/-- A value has a synonym that is a value too and has synonyms of its own; one record holds no
string, and one of the two entities is described by no object. -/
theorem synonyms_only_inserted_mixed :
    let records (values : List Text) : List Json := values.map fun v => .obj [("value", .str v)]
    let listing (values : List Text) : Json := .obj [("data", .arr (records values))]
    let tree : Json := .obj [
      ("synonyms", .obj [("x", listing ["A", "y"]), ("y", listing ["B", "B"])]),
      ("entities", .obj [("odd", .int 3), ("e", .obj [
        ("data", .arr (records ["x"] ++ .obj [("value", .int 1)] :: records ["y", "x"])),
        ("variants", .obj [("v", .arr (records ["z"]))])])])]
    let plain := start (Corpus.ofJson false tree) none
    let full := start (Corpus.ofJson true tree) none
    let synonyms := (Corpus.tableOf tree).values
    open? false none tree = some plain ∧ open? true none tree = some full ∧
      (plain.perform (.values "e" none)).1 = .names ["x", "y", "x"] ∧
      (full.perform (.values "e" none)).1 =
        .names ["x", "A", "y", "y", "B", "B", "x", "A", "y"] ∧
      Inserted synonyms ["x", "y", "x"] ["x", "A", "y", "y", "B", "B", "x", "A", "y"] ∧
      (full.perform (.variantNames "e")).1 = (plain.perform (.variantNames "e")).1 ∧
      (full.perform (.values "odd" (some "v"))).1 =
        .failed (.lookup (.unknownVariant "v")) := by
  intro records listing tree plain full synonyms
  have hplain : open? false none tree = some plain := rfl
  have hfull : open? true none tree = some full := rfl
  obtain ⟨hsame, found, hfound, hlists⟩ := synonyms_only_inserted none tree plain full hplain hfull
  have hsynonyms : synonyms = found := by
    funext x
    exact Reply.names.inj (hfound x)
  obtain ⟨values, hvalues, hinserted⟩ := (hlists "e" none).1 ["x", "y", "x"] rfl
  have hlisted : (full.perform (.values "e" none)).1 =
      .names ["x", "A", "y", "y", "B", "B", "x", "A", "y"] := rfl
  obtain rfl := Reply.names.inj (hvalues.symm.trans hlisted)
  rw [hsynonyms]
  exact ⟨hplain, hfull, rfl, hlisted, hinserted, hsame (.variantNames "e") rfl,
    ((hlists "odd" (some "v")).2 _).mp rfl⟩

end Session

end Phrasing
