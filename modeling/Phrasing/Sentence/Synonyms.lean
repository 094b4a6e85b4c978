/-
  Phrasing/Sentence/Synonyms.lean
  ===============================
  **Synonym tables and the choices of a sentence.**

  A table lists the synonyms of each entity in order, duplicates included; an
  entity that is not in it has none.  Each placeholder of a sentence is a slot of
  its own, also where two of them name the same entity, and its domain lists the
  values it may take.  An optional slot may also be left out, which its domain
  says last, by the empty text.
-/
import Phrasing.Sentence.Basic

namespace Phrasing

/-- The synonyms of each entity. -/
abbrev SynonymTable := Entries Text (List Text)

namespace SynonymTable

def values (table : SynonymTable) (entity : Text) : List Text := (table.get? entity).getD []

/-- The value of a stored record, if it is a string. -/
def recordValue? (record : Json) : Option Text := (record.field? Part.valueKey).bind Json.text?

/-- The synonyms that a value describes: the records under its data key that hold a string. -/
def valuesOf (v : Json) : List Text :=
  ((v.field? Intent.dataKey).getD .null).items.filterMap recordValue?

/-- The table that a value describes. -/
def ofJson (v : Json) : SynonymTable := v.fields.mapValues fun _ definition => valuesOf definition

end SynonymTable

/-! ### Slots and domains -/

/-- A placeholder's entity, and whether it may be left out. -/
structure Slot where
  entity : Text
  optional : Bool
deriving DecidableEq

/-- The choice to leave an optional placeholder out. -/
def omitted : Text := []

/-- The values a slot may take. -/
def Slot.domain (table : SynonymTable) (slot : Slot) : List Text :=
  if slot.optional then table.values slot.entity ++ [omitted] else table.values slot.entity

namespace Sentence

def slot? : Part → Option Slot
  | .synonym entity optional => some ⟨entity, optional⟩
  | _ => none

def slots (s : Sentence) : List Slot := s.filterMap slot?

/-- The placeholders of a sentence and its other parts, each in order. -/
def partition (s : Sentence) : Sentence × Sentence := List.partition Part.isSynonym s

def domains (table : SynonymTable) (s : Sentence) : List (List Text) :=
  s.slots.map (Slot.domain table)

/-- How many ways there are to fill the slots of a sentence: the product of the sizes of their
domains. -/
def countVariants (table : SynonymTable) (s : Sentence) : Nat :=
  (s.domains table).foldr (fun domain count => domain.length * count) 1

end Sentence

end Phrasing
