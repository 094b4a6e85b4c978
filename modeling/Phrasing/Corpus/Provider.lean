/-
  Phrasing/Corpus/Provider.lean
  =============================
  **Values of an entity, one after the other.**

  An entity lists default values and, by name, lists of other values.  With
  synonyms at hand each value is followed by its own.  A provider serves every
  list in a circle and remembers for each where it stands; asking in vain moves
  nothing.
-/
import Phrasing.Sentence.Synonyms

namespace Phrasing

/-! ### The lists of an entity -/

/-- Why an entity yields no value. -/
inductive LookupError where
  /-- No entity has the name. -/
  | unknownEntity (name : Text)
  /-- The entity has no list of the name. -/
  | unknownVariant (name : Text)
  /-- The list is empty. -/
  | noValues
deriving DecidableEq

/-- An entity: what is said about it, its default values, and its named lists. -/
structure Entity where
  props : Entries Text Json
  defaults : List Text
  variants : Entries Text (List Text)

namespace Entity

def propsKey : Text := "props"

def variantsKey : Text := "variants"

/-- The values of stored records, each followed by its synonyms. -/
def collect (synonyms : SynonymTable) (records : Json) : List Text :=
  (records.items.filterMap SynonymTable.recordValue?).flatMap fun v => v :: synonyms.values v

/-- The entity that a value describes. -/
def ofJson (synonyms : SynonymTable) (v : Json) : Entity where
  props := ((v.field? propsKey).getD .null).fields
  defaults := collect synonyms ((v.field? Intent.dataKey).getD .null)
  variants := ((v.field? variantsKey).getD .null).fields.mapValues fun _ => collect synonyms

/-- The values of a named list, or the default ones. -/
def values (entity : Entity) : Option Text → Except LookupError (List Text)
  | none => .ok entity.defaults
  | some name =>
    match entity.variants.get? name with
    | some values => .ok values
    | none => .error (.unknownVariant name)

end Entity

/-! ### Serving in a circle -/

/-- An entity and, for each list that was asked, the place of the value served last. -/
structure Provider where
  entity : Entity
  cursors : Entries (Option Text) Nat

namespace Provider

/-- A provider that has served nothing. -/
def ofEntity (entity : Entity) : Provider := ⟨entity, []⟩

/-- The place after the one served last, back at the start after the end of the list. -/
def nextPlace (last : Option Nat) (size : Nat) : Nat :=
  match last with
  | none => 0
  | some place => if place + 1 < size then place + 1 else 0

/-- Serves the next value of a list. -/
def next (p : Provider) (variant : Option Text) : Except LookupError Text × Provider :=
  match p.entity.values variant with
  | .error e => (.error e, p)
  | .ok values =>
    let place := nextPlace (p.cursors.get? variant) values.length
    match values[place]? with
    | none => (.error .noValues, p)
    | some v => (.ok v, { p with cursors := p.cursors.insert variant place })

end Provider

end Phrasing
