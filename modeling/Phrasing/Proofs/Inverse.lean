/-
  Phrasing/Proofs/Inverse.lean
  ============================
  **Reading and storing undo each other.**

  Where no object repeats a key, intents that were read from any value come back
  when they are stored and read again.  In the other direction an intent that is
  already in stored form comes back with the same entries at every level.  Only
  their order may change: sentences are stored last, and the type and the value
  of a part first.
-/
import Mathlib.Data.List.Perm.Basic
import Phrasing.Proofs.StoredForm

namespace Phrasing

/-! ### Looking inside values without repeated keys -/

namespace Json

theorem wellFormed_of_mem {items : List Json} (h : WellFormedItems items) :
    ∀ v ∈ items, v.WellFormed := by
  intro v hv
  induction items with
  | nil => cases hv
  | cons w rest ih =>
    rcases List.mem_cons.mp hv with rfl | hrest
    · exact h.1
    · exact ih h.2 hrest

theorem wellFormed_of_mem_fields {fields : Entries Text Json} (h : WellFormedFields fields) :
    ∀ e ∈ fields, e.2.WellFormed := by
  intro e he
  induction fields with
  | nil => cases he
  | cons f rest ih =>
    rcases List.mem_cons.mp he with rfl | hrest
    · exact h.1
    · exact ih h.2 hrest

section Inside

variable {v : Json}

theorem wellFormed_items (h : v.WellFormed) : ∀ w ∈ v.items, w.WellFormed := by
  cases v with
  | arr items => exact wellFormed_of_mem h
  | null | bool | int | float | str | obj =>
    intro w hw
    cases hw

theorem wellFormed_fields (h : v.WellFormed) :
    Entries.WellFormed v.fields ∧ ∀ e ∈ v.fields, e.2.WellFormed := by
  cases v with
  | obj fields => exact ⟨h.1, wellFormed_of_mem_fields h.2⟩
  | null | bool | int | float | str | arr =>
    refine ⟨List.nodup_nil, ?_⟩
    intro e he
    cases he

theorem wellFormed_field? (h : v.WellFormed) (key : Text) :
    ((v.field? key).getD .null).WellFormed := by
  unfold field?
  cases hget : v.fields.get? key with
  | none => trivial
  | some w => exact (wellFormed_fields h).2 (key, w) (Entries.mem_of_get? hget)

end Inside

/-! ### Alike values -/

mutual

/-- Whether two values are the same but for the order of members, at every depth. -/
def Alike : Json → Json → Prop
  | .arr items, .arr others => AlikeItems items others
  | .obj fields, .obj others =>
    (Entries.keys fields).Perm (Entries.keys others) ∧ AlikeFields fields others
  | v, w => v = w

def AlikeItems : List Json → List Json → Prop
  | [], [] => True
  | v :: rest, w :: others => v.Alike w ∧ AlikeItems rest others
  | _, _ => False

/-- Whether every member has an alike value under its key among the others. -/
def AlikeFields : List (Text × Json) → Entries Text Json → Prop
  | [], _ => True
  | (key, v) :: rest, others =>
    (∃ w, others.get? key = some w ∧ v.Alike w) ∧ AlikeFields rest others

end

theorem alikeFields_iff {fields others : Entries Text Json} :
    AlikeFields fields others ↔ ∀ e ∈ fields, ∃ w, others.get? e.1 = some w ∧ e.2.Alike w := by
  induction fields with
  | nil => simp [AlikeFields]
  | cons e rest ih =>
    obtain ⟨key, v⟩ := e
    simp [AlikeFields, ih]

mutual

theorem alike_refl : ∀ v : Json, v.WellFormed → v.Alike v
  | .null, _ | .bool _, _ | .int _, _ | .float _, _ | .str _, _ => by
    unfold Alike
    rfl
  | .arr items, h => by
    unfold Alike
    exact alikeItems_refl items h
  | .obj fields, h => by
    unfold Alike
    refine ⟨List.Perm.refl _, alikeFields_iff.mpr fun e he => ?_⟩
    exact ⟨e.2, (Entries.get?_eq_some_iff h.1).mpr he, alike_refl_of_mem fields h.2 e he⟩

theorem alikeItems_refl : ∀ items : List Json, WellFormedItems items → AlikeItems items items
  | [], _ => by
    unfold AlikeItems
    trivial
  | v :: rest, h => by
    unfold AlikeItems
    exact ⟨alike_refl v h.1, alikeItems_refl rest h.2⟩

theorem alike_refl_of_mem : ∀ fields : List (Text × Json), WellFormedFields fields →
    ∀ e ∈ fields, e.2.Alike e.2
  | [], _, _, he => nomatch he
  | (key, v) :: rest, h, e, he => by
    rcases List.mem_cons.mp he with rfl | hrest
    · exact alike_refl v h.1
    · exact alike_refl_of_mem rest h.2 e hrest

end

theorem alikeItems_map {items : List Json} {f : Json → Json} (h : ∀ v ∈ items, (f v).Alike v) :
    AlikeItems (items.map f) items := by
  induction items with
  | nil => simp [AlikeItems]
  | cons v rest ih =>
    rw [List.map_cons, AlikeItems]
    exact ⟨h v List.mem_cons_self, ih fun w hw => h w (List.mem_cons_of_mem v hw)⟩

/-- An object is alike to another if its members are alike to those of a rearrangement. -/
theorem alike_obj_of_perm {fields others : Entries Text Json} (h : (obj others).WellFormed)
    (hperm : fields.Perm others) : (obj fields).Alike (obj others) := by
  unfold Alike
  refine ⟨hperm.map Prod.fst, alikeFields_iff.mpr fun e he => ?_⟩
  have hmem : e ∈ others := hperm.mem_iff.mp he
  exact ⟨e.2, (Entries.get?_eq_some_iff h.1).mpr hmem, alike_refl_of_mem others h.2 e hmem⟩

end Json

/-! ### What was read comes back -/

theorem Part.compact_ofFields {fields : Entries Text Json} (h : fields.WellFormed) :
    (ofFields fields).compact = ofFields fields := by
  unfold ofFields
  dsimp only
  split
  · rfl
  · split
    · rfl
    · rw [compact, Entries.merge_nil_of_wellFormed (Entries.wellFormed_without h _)]

theorem Part.ofFields_toFields_ofFields {fields : Entries Text Json} (h : fields.WellFormed) :
    ofFields (ofFields fields).toFields = ofFields fields := by
  rw [ofFields_toFields (describable_ofFields fields), compact_ofFields h]

theorem Sentence.compact_ofJson {v : Json} (h : v.WellFormed) : (ofJson v).compact = ofJson v := by
  rw [compact, ofJson, List.map_map]
  refine List.map_congr_left fun fields hfields => ?_
  obtain ⟨item, hitem, hobject⟩ := List.mem_filterMap.mp hfields
  have hitem := (Json.wellFormed_fields (Json.wellFormed_items h item hitem)).1
  rw [Json.fields, hobject] at hitem
  exact Part.compact_ofFields hitem

theorem Intent.compact_ofJson {v : Json} (h : v.WellFormed) (name : Text) :
    (ofJson name v).compact = ofJson name v := by
  have hdata := Json.wellFormed_field? h dataKey
  have hsentences : (ofJson name v).sentences.map Sentence.compact = (ofJson name v).sentences := by
    rw [ofJson, List.map_map]
    exact List.map_congr_left fun row hrow =>
      Sentence.compact_ofJson (Json.wellFormed_items hdata row hrow)
  rw [compact, hsentences]

theorem Intents.compact_ofJson {v : Json} (h : v.WellFormed) : (ofJson v).compact = ofJson v := by
  rw [compact, ofJson]
  simp only [Entries.mapValues, List.map_map]
  refine List.map_congr_left fun e he => ?_
  exact congrArg (Prod.mk e.1) (Intent.compact_ofJson ((Json.wellFormed_fields h).2 e he) e.1)

/-! ### What is in stored form comes back -/

/-- The objects that parts are stored as: literal text, a placeholder, or a part of another type
with whatever else is said about it. -/
inductive Part.Stored (fields : Entries Text Json) : Prop
  | text (t : Text)
      (entries : fields.Perm [(typeKey, .str textType), (valueKey, .str t)])
  | synonym (entity : Text) (optional : Bool)
      (entries : fields.Perm
        [(typeKey, .str synonymType), (valueKey, .str entity), (optionalKey, .bool optional)])
  | reference (kind t : Text)
      (other : kind ≠ [] ∧ kind ≠ textType ∧ kind ≠ synonymType)
      (type_eq : fields.get? typeKey = some (.str kind))
      (value_eq : fields.get? valueKey = some (.str t))

/-- The objects that intents are stored as: under the key of the sentences stands a list of lists
of stored parts. -/
def Intent.Stored (fields : Entries Text Json) : Prop :=
  ∃ rows, fields.get? dataKey = some (.arr rows) ∧
    ∀ row ∈ rows, ∃ parts, row = .arr parts ∧
      ∀ part ∈ parts, ∃ members, part = .obj members ∧ Part.Stored members

namespace Part

variable {fields : Entries Text Json}

theorem typeOf_of_get? {kind : Text} (h : fields.get? typeKey = some (.str kind))
    (hkind : kind ≠ []) : typeOf fields = kind := by
  have hset : (Json.str kind).isSet = true := by simpa [Json.isSet] using hkind
  simp [typeOf, h, hset, Json.display]

theorem valueOf_of_get? {t : Text} (h : fields.get? valueKey = some (.str t)) :
    valueOf fields = t := by
  simp [valueOf, h, Json.display]

/-- A part in stored form is stored with the entries it was read from. -/
theorem toFields_ofFields_perm (h : fields.WellFormed) (hstored : Stored fields) :
    (ofFields fields).toFields.Perm fields := by
  cases hstored with
  | text t hentries =>
    have htype : fields.get? typeKey = some (.str textType) :=
      (Entries.get?_eq_some_iff h).mpr (hentries.mem_iff.mpr (by simp))
    have hvalue : fields.get? valueKey = some (.str t) :=
      (Entries.get?_eq_some_iff h).mpr (hentries.mem_iff.mpr (by simp))
    have hpart : ofFields fields = .text t := by
      simp [ofFields, typeOf_of_get? htype (by decide), valueOf_of_get? hvalue]
    rw [hpart]
    exact hentries.symm
  | synonym entity optional hentries =>
    have htype : fields.get? typeKey = some (.str synonymType) :=
      (Entries.get?_eq_some_iff h).mpr (hentries.mem_iff.mpr (by simp))
    have hvalue : fields.get? valueKey = some (.str entity) :=
      (Entries.get?_eq_some_iff h).mpr (hentries.mem_iff.mpr (by simp))
    have hoptional : fields.get? optionalKey = some (.bool optional) :=
      (Entries.get?_eq_some_iff h).mpr (hentries.mem_iff.mpr (by simp))
    have hpart : ofFields fields = .synonym entity optional := by
      simp [ofFields, typeOf_of_get? htype (by decide), valueOf_of_get? hvalue, hoptional,
        synonymType_ne_textType, Json.isSet]
    rw [hpart]
    exact hentries.symm
  | reference kind t hother htype hvalue =>
    obtain ⟨hempty, htext, hsynonym⟩ := hother
    have hpart : ofFields fields = .reference kind t (fields.without [typeKey, valueKey]) := by
      simp [ofFields, typeOf_of_get? htype hempty, valueOf_of_get? hvalue, htext, hsynonym]
    have hdropped : ∀ key ∈ Entries.keys (fields.without [typeKey, valueKey]),
        key ∉ [typeKey, valueKey] := fun key hkey => (Entries.mem_keys_without.mp hkey).2
    have honce := Entries.wellFormed_without h [typeKey, valueKey]
    have hfirst := Entries.perm_cons_without h htype
    have hsecond := Entries.perm_cons_without (Entries.wellFormed_without h [typeKey])
      ((Entries.get?_without_of_not_mem (by simp [valueKey_ne_typeKey])).trans hvalue)
    rw [Entries.without_without] at hsecond
    rw [hpart, toFields_reference hdropped, Entries.merge_nil_of_wellFormed honce]
    exact (hfirst.trans (hsecond.cons _)).symm

end Part

theorem Sentence.toJson_ofJson_alike {parts : List Json} (h : Json.WellFormedItems parts)
    (hstored : ∀ part ∈ parts, ∃ members, part = .obj members ∧ Part.Stored members) :
    (ofJson (.arr parts)).toJson.Alike (.arr parts) := by
  have hobjects : parts.filterMap Json.fields? = parts.map Json.fields := by
    rw [← List.filterMap_eq_map]
    refine List.filterMap_congr fun part hpart => ?_
    obtain ⟨members, rfl, -⟩ := hstored part hpart
    rfl
  have hitems : (Json.arr parts).items = parts := rfl
  rw [toJson, ofJson, hitems, hobjects, List.map_map, List.map_map, Json.Alike]
  refine Json.alikeItems_map fun part hpart => ?_
  obtain ⟨members, rfl, hpart'⟩ := hstored part hpart
  have hmembers := Json.wellFormed_of_mem h _ hpart
  exact Json.alike_obj_of_perm hmembers (Part.toFields_ofFields_perm hmembers.1 hpart')

theorem Intent.toJson_ofJson_alike {fields : Entries Text Json} (h : (Json.obj fields).WellFormed)
    (hstored : Stored fields) (name : Text) :
    (ofJson name (.obj fields)).toJson.Alike (.obj fields) := by
  obtain ⟨rows, hdata, hrows⟩ := hstored
  have hentries : (ofJson name (.obj fields)).toFields =
      fields.without [dataKey] ++
        [(dataKey, .arr (rows.map fun row => (Sentence.ofJson row).toJson))] := by
    have hsentences : (ofJson name (.obj fields)).sentences = rows.map Sentence.ofJson := by
      have hfield : (Json.obj fields).field? dataKey = some (.arr rows) := hdata
      rw [ofJson, hfield]
      rfl
    rw [toFields_eq (describable_ofJson name (.obj fields)), hsentences, List.map_map]
    rfl
  have hkeys : (Entries.keys (ofJson name (.obj fields)).toFields).Perm (Entries.keys fields) := by
    have hfront := (Entries.perm_cons_without h.1 hdata).map Prod.fst
    rw [hentries]
    refine List.Perm.trans ?_ hfront.symm
    simp only [Entries.keys, List.map_append, List.map_cons, List.map_nil]
    exact List.perm_append_singleton _ _
  rw [toJson, Json.Alike]
  refine ⟨hkeys, Json.alikeFields_iff.mpr fun e he => ?_⟩
  rw [hentries] at he
  rcases List.mem_append.mp he with hother | hrow
  · have hmem : e ∈ fields := List.mem_of_mem_filter hother
    exact ⟨e.2, (Entries.get?_eq_some_iff h.1).mpr hmem,
      Json.alike_refl_of_mem fields h.2 e hmem⟩
  · obtain rfl := List.mem_singleton.mp hrow
    refine ⟨.arr rows, hdata, ?_⟩
    have hitems : Json.WellFormedItems rows :=
      Json.wellFormed_of_mem_fields h.2 (dataKey, .arr rows) (Entries.mem_of_get? hdata)
    rw [Json.Alike]
    refine Json.alikeItems_map fun row hrow => ?_
    obtain ⟨parts, rfl, hparts⟩ := hrows row hrow
    exact Sentence.toJson_ofJson_alike (Json.wellFormed_of_mem hitems _ hrow) hparts

/-! ### Both directions -/

/-- **Reading and storing are inverse.** -/
theorem Intents.reading_and_storing :
    (∀ raw : Json, raw.WellFormed → ofJson (.obj (ofJson raw).toFields) = ofJson raw) ∧
      (∀ fields : Entries Text Json, fields.WellFormed →
        Part.ofFields (Part.ofFields fields).toFields = Part.ofFields fields) ∧
      ∀ (name : Text) (fields : Entries Text Json), (Json.obj fields).WellFormed →
        Intent.Stored fields → (Intent.ofJson name (.obj fields)).toJson.Alike (.obj fields) := by
  refine ⟨?_, ?_, ?_⟩
  · intro raw h
    rw [ofJson_toFields (describable_ofJson raw), compact_ofJson h]
  · intro fields h
    exact Part.ofFields_toFields_ofFields h
  · intro name fields h hstored
    exact Intent.toJson_ofJson_alike h hstored name

/-- An intent with a placeholder whose members are out of order, a reference with attributes, and
its sentences before another field. -/
theorem Intents.reading_and_storing_out_of_order :
    let placeholder : Entries Text Json :=
      [("optional", .bool true), ("value", .str "name"), ("type", .str "synonym")]
    let reference : Entries Text Json :=
      [("role", .arr [.null]), ("type", .str "entity"), ("value", .str "")]
    let fields : Entries Text Json :=
      [("data", .arr [.arr [.obj placeholder, .obj reference]]), ("note", .int 3)]
    let raw : Json := .obj [("greet", .obj fields), ("odd", .obj [("data", .arr [.arr [
      .obj [("type", .int 7), ("value", .null), ("x", .float .nan)], .bool false], .null])])]
    raw.WellFormed ∧ ofJson (.obj (ofJson raw).toFields) = ofJson raw ∧
      Part.ofFields (Part.ofFields reference).toFields = Part.ofFields reference ∧
      Intent.Stored fields ∧ (Intent.ofJson "greet" (.obj fields)).toJson.Alike (.obj fields) := by
  intro placeholder reference fields raw
  have hraw : raw.WellFormed := by decide
  have hreference : Entries.WellFormed reference := by decide
  have hfields : (Json.obj fields).WellFormed := by decide
  have hstored : Intent.Stored fields := by
    refine ⟨_, rfl, fun row hrow => ⟨[.obj placeholder, .obj reference], ?_, ?_⟩⟩
    · exact List.mem_singleton.mp hrow
    · intro part hpart
      rcases List.mem_pair.mp hpart with rfl | rfl
      · refine ⟨placeholder, rfl, .synonym "name" true ?_⟩
        exact (List.reverse_perm placeholder).symm
      · exact ⟨reference, rfl, .reference "entity" "" (by decide) rfl rfl⟩
  exact ⟨hraw, reading_and_storing.1 raw hraw, reading_and_storing.2.1 reference hreference,
    hstored, reading_and_storing.2.2 "greet" fields hfields hstored⟩

end Phrasing
