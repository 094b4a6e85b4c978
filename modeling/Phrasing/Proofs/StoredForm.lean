/-
  Phrasing/Proofs/StoredForm.lean
  ===============================
  **What is stored reads back.**

  A part that was read from an object is stored as an object that describes it
  again: its type is never empty, since no value that is set has an empty plain
  form, and its attributes leave the keys of the type and of the value alone.
  Only attributes under one key are then told once.  Sentences and intents read
  back part by part.
-/
import Phrasing.Proofs.Display
import Phrasing.Proofs.Entries
import Phrasing.Sentence.Basic

namespace Phrasing

/-! ### Keys that are told apart -/

namespace Part

theorem valueKey_ne_typeKey : valueKey ≠ typeKey := by decide

theorem optionalKey_ne_typeKey : optionalKey ≠ typeKey := by decide

theorem optionalKey_ne_valueKey : optionalKey ≠ valueKey := by decide

theorem synonymType_ne_textType : synonymType ≠ textType := by decide

/-! ### Parts that an object can describe -/

/-- Whether an object can describe the part: a reference has to have a type of its own, and no
attribute where its type and its value are stored. -/
def Describable : Part → Prop
  | .reference kind _ attributes =>
    (kind ≠ [] ∧ kind ≠ textType ∧ kind ≠ synonymType) ∧
      ∀ key ∈ Entries.keys attributes, key ∉ [typeKey, valueKey]
  | _ => True

/-- The part with every attribute told once. -/
def compact : Part → Part
  | .reference kind t attributes => .reference kind t (Entries.merge [] attributes)
  | .text t => .text t
  | .synonym entity optional => .synonym entity optional

theorem typeOf_ne_nil (fields : Entries Text Json) : typeOf fields ≠ [] := by
  have htext : textType ≠ [] := by decide
  unfold typeOf
  split
  · split
    · rename_i hset
      exact Json.display_ne_nil hset
    · exact htext
  · exact htext

/-- Every object describes a part that an object can describe. -/
theorem describable_ofFields (fields : Entries Text Json) : (ofFields fields).Describable := by
  unfold ofFields
  dsimp only
  split
  · trivial
  · rename_i htext
    split
    · trivial
    · rename_i hsynonym
      refine ⟨⟨typeOf_ne_nil fields, htext, hsynonym⟩, fun key hkey => ?_⟩
      exact (Entries.mem_keys_without.mp hkey).2

theorem describable_compact {p : Part} (h : p.Describable) : p.compact.Describable := by
  cases p with
  | text t => trivial
  | synonym entity optional => trivial
  | reference kind t attributes =>
    refine ⟨h.1, fun key hkey => ?_⟩
    rcases Entries.mem_keys_merge.mp hkey with hnil | hmem
    · cases hnil
    · exact h.2 key hmem

theorem isSynonym_compact (p : Part) : p.compact.isSynonym = p.isSynonym := by
  cases p <;> rfl

/-! ### Stored parts -/

theorem toFields_reference {kind t : Text} {attributes : Entries Text Json}
    (h : ∀ key ∈ Entries.keys attributes, key ∉ [typeKey, valueKey]) :
    (reference kind t attributes).toFields =
      [(typeKey, .str kind), (valueKey, .str t)] ++ Entries.merge [] attributes := by
  have hbase : ∀ key ∈ Entries.keys attributes,
      key ∉ Entries.keys [(typeKey, Json.str kind), (valueKey, Json.str t)] := h
  rw [toFields, ← Entries.merge_append hbase, List.append_nil]

theorem typeOf_cons {kind : Text} (hkind : kind ≠ []) (rest : Entries Text Json) :
    typeOf ((typeKey, .str kind) :: rest) = kind := by
  have hset : (Json.str kind).isSet = true := by
    simpa [Json.isSet] using hkind
  simp [typeOf, Entries.get?, hset, Json.display]

theorem valueOf_cons_cons (kind t : Text) (rest : Entries Text Json) :
    valueOf ((typeKey, .str kind) :: (valueKey, .str t) :: rest) = t := by
  simp [valueOf, Entries.get?, valueKey_ne_typeKey.symm, Json.display]

/-- **A part reads back** with every attribute told once. -/
theorem ofFields_toFields {p : Part} (h : p.Describable) : ofFields p.toFields = p.compact := by
  cases p with
  | text t =>
    have hkind : typeOf (text t).toFields = textType := typeOf_cons (by decide) _
    have hvalue : valueOf (text t).toFields = t := valueOf_cons_cons _ _ _
    rw [ofFields, hkind, hvalue]
    rfl
  | synonym entity optional =>
    have hkind : typeOf (synonym entity optional).toFields = synonymType :=
      typeOf_cons (by decide) _
    have hvalue : valueOf (synonym entity optional).toFields = entity := valueOf_cons_cons _ _ _
    have hoptional : (synonym entity optional).toFields.get? optionalKey =
        some (.bool optional) := by
      simp [toFields, Entries.get?, optionalKey_ne_typeKey.symm, optionalKey_ne_valueKey.symm]
    rw [ofFields, hkind, hvalue, hoptional]
    simp [synonymType_ne_textType, Json.isSet, compact]
  | reference kind t attributes =>
    have hmerged := (describable_compact h).2
    obtain ⟨⟨hempty, htext, hsynonym⟩, hkeys⟩ := h
    have hkind : typeOf (reference kind t attributes).toFields = kind := by
      rw [toFields_reference hkeys]
      exact typeOf_cons hempty _
    have hvalue : valueOf (reference kind t attributes).toFields = t := by
      rw [toFields_reference hkeys]
      exact valueOf_cons_cons _ _ _
    have hrest : (reference kind t attributes).toFields.without [typeKey, valueKey] =
        Entries.merge [] attributes := by
      have hbase : Entries.without [(typeKey, Json.str kind), (valueKey, Json.str t)]
          [typeKey, valueKey] = [] := Entries.without_eq_nil fun key hkey => hkey
      rw [toFields_reference hkeys, Entries.without_append, hbase, List.nil_append]
      exact Entries.without_eq_self hmerged
    rw [ofFields, hkind, hvalue, hrest]
    simp [htext, hsynonym, compact]

theorem toFields_compact {p : Part} (h : p.Describable) : p.compact.toFields = p.toFields := by
  cases p with
  | text t => rfl
  | synonym entity optional => rfl
  | reference kind t attributes =>
    have hmerged := (describable_compact h).2
    have hnil : Entries.WellFormed ([] : Entries Text Json) := List.nodup_nil
    have honce := Entries.wellFormed_merge hnil attributes
    rw [compact, toFields_reference hmerged, toFields_reference h.2,
      Entries.merge_nil_of_wellFormed honce]

end Part

/-! ### Stored sentences -/

namespace Sentence

def compact (s : Sentence) : Sentence := s.map Part.compact

theorem describable_ofJson (v : Json) : ∀ p ∈ ofJson v, p.Describable := by
  intro p hp
  obtain ⟨fields, -, rfl⟩ := List.mem_map.mp hp
  exact Part.describable_ofFields fields

theorem ofJson_toJson {s : Sentence} (h : ∀ p ∈ s, p.Describable) :
    ofJson s.toJson = s.compact := by
  have hobjects : (s.map Part.toJson).filterMap Json.fields? = s.map Part.toFields := by
    have hread : Json.fields? ∘ Part.toJson = some ∘ Part.toFields := rfl
    rw [List.filterMap_map, hread, List.filterMap_eq_map]
  have hitems : s.toJson.items = s.map Part.toJson := rfl
  rw [ofJson, hitems, hobjects, List.map_map, compact]
  exact List.map_congr_left fun p hp => Part.ofFields_toFields (h p hp)

theorem toJson_compact {s : Sentence} (h : ∀ p ∈ s, p.Describable) :
    s.compact.toJson = s.toJson := by
  have hparts : s.compact.map Part.toJson = s.map Part.toJson := by
    rw [compact, List.map_map]
    exact List.map_congr_left fun p hp => congrArg Json.obj (Part.toFields_compact (h p hp))
  rw [toJson, hparts, toJson]

end Sentence

/-! ### Stored intents -/

namespace Intent

/-- Whether an object can describe the intent: it can describe every part, and no other field is
kept where the sentences are stored. -/
structure Describable (intent : Intent) : Prop where
  parts : ∀ s ∈ intent.sentences, ∀ p ∈ s, p.Describable
  fields : dataKey ∉ Entries.keys intent.fields

def compact (intent : Intent) : Intent :=
  { intent with sentences := intent.sentences.map Sentence.compact }

theorem describable_ofJson (name : Text) (v : Json) : (ofJson name v).Describable := by
  constructor
  · intro s hs
    obtain ⟨item, -, rfl⟩ := List.mem_map.mp hs
    exact Sentence.describable_ofJson item
  · intro hmem
    exact (Entries.mem_keys_without.mp hmem).2 List.mem_cons_self

theorem toFields_eq {intent : Intent} (h : intent.Describable) :
    intent.toFields =
      intent.fields ++ [(dataKey, .arr (intent.sentences.map Sentence.toJson))] :=
  Entries.insert_of_not_mem h.fields

theorem ofJson_toJson {intent : Intent} (h : intent.Describable) :
    ofJson intent.name intent.toJson = intent.compact := by
  have hdata : intent.toJson.field? dataKey =
      some (.arr (intent.sentences.map Sentence.toJson)) := by
    have hfields : intent.toJson.fields = intent.toFields := rfl
    rw [Json.field?, hfields, toFields_eq h, Entries.get?_append_of_not_mem h.fields]
    simp [Entries.get?]
  have hothers : intent.toJson.fields.without [dataKey] = intent.fields := by
    have hfields : intent.toJson.fields = intent.toFields := rfl
    rw [hfields, toFields_eq h, Entries.without_append, Entries.without_eq_self,
      Entries.without_eq_nil, List.append_nil]
    · intro key hkey
      exact hkey
    · intro key hkey hdropped
      rw [List.mem_singleton.mp hdropped] at hkey
      exact h.fields hkey
  have hsentences : (intent.sentences.map Sentence.toJson).map Sentence.ofJson =
      intent.sentences.map Sentence.compact := by
    rw [List.map_map]
    exact List.map_congr_left fun s hs => Sentence.ofJson_toJson (h.parts s hs)
  rw [ofJson, hdata, hothers]
  exact congrArg (Intent.mk intent.name · intent.fields) hsentences

theorem toJson_compact {intent : Intent} (h : intent.Describable) :
    intent.compact.toJson = intent.toJson := by
  have hsentences : (intent.sentences.map Sentence.compact).map Sentence.toJson =
      intent.sentences.map Sentence.toJson := by
    rw [List.map_map]
    exact List.map_congr_left fun s hs => Sentence.toJson_compact (h.parts s hs)
  simp only [toJson, toFields, compact, hsentences]

end Intent

namespace Intents

/-- Whether an object can describe the intents, each under its name. -/
def Describable (intents : Intents) : Prop :=
  ∀ e ∈ intents, e.2.name = e.1 ∧ e.2.Describable

def compact (intents : Intents) : Intents := intents.mapValues fun _ intent => intent.compact

theorem describable_ofJson (v : Json) : (ofJson v).Describable := by
  intro e he
  obtain ⟨member, -, rfl⟩ := List.mem_map.mp he
  exact ⟨rfl, Intent.describable_ofJson member.1 member.2⟩

/-- **Intents read back** with every attribute told once. -/
theorem ofJson_toFields {intents : Intents} (h : intents.Describable) :
    ofJson (.obj intents.toFields) = intents.compact := by
  have hfields : (Json.obj intents.toFields).fields = intents.toFields := rfl
  rw [ofJson, hfields, toFields, compact]
  simp only [Entries.mapValues, List.map_map]
  refine List.map_congr_left fun e he => ?_
  obtain ⟨hname, hdescribable⟩ := h e he
  have hread := Intent.ofJson_toJson hdescribable
  rw [hname] at hread
  exact congrArg (Prod.mk e.1) hread

/-- **What is stored does not change** by reading it back. -/
theorem toFields_compact {intents : Intents} (h : intents.Describable) :
    intents.compact.toFields = intents.toFields := by
  simp only [toFields, compact, Entries.mapValues, List.map_map]
  refine List.map_congr_left fun e he => ?_
  exact congrArg (Prod.mk e.1) (Intent.toJson_compact (h e he).2)

end Intents

end Phrasing
