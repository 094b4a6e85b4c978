/-
  Phrasing/Sentence/Part.lean
  ===========================
  **The parts of a training sentence.**

  A part is a piece of literal text, a placeholder for one of the synonyms of an
  entity, or a reference of some other kind that is only carried along.  A part
  is stored as an object whose type says which of the three it is; an object
  without a type is literal text, and a value that is no string is taken in its
  plain form.  Objects are those that files hold: in their integers the limit on
  digits is kept already, so taking the plain form never fails.
-/
import Phrasing.Json.Display

namespace Phrasing

/-- A part of a sentence. -/
inductive Part where
  /-- Literal text. -/
  | text (value : Text)
  /-- A placeholder for a synonym of an entity; an optional one may be left out. -/
  | synonym (entity : Text) (optional : Bool)
  /-- A part of another kind, with everything else that was said about it. -/
  | reference (kind value : Text) (attributes : Entries Text Json)

namespace Part

/-! ### Keys of a stored part -/

def typeKey : Text := "type"

def valueKey : Text := "value"

def optionalKey : Text := "optional"

def textType : Text := "text"

def synonymType : Text := "synonym"

/-! ### Reading and storing -/

/-- The text that stands for a part when a sentence is read out. -/
def value : Part → Text
  | .text t => t
  | .synonym entity _ => entity
  | .reference _ t _ => t

/-- The type that a stored part claims. -/
def typeOf (fields : Entries Text Json) : Text :=
  match fields.get? typeKey with
  | some v => if v.isSet then v.display else textType
  | none => textType

/-- The value of a stored part. -/
def valueOf (fields : Entries Text Json) : Text :=
  match fields.get? valueKey with
  | some .null => []
  | some v => v.display
  | none => []

/-- The part that an object describes. -/
def ofFields (fields : Entries Text Json) : Part :=
  let kind := typeOf fields
  if kind = textType then .text (valueOf fields)
  else if kind = synonymType then
    .synonym (valueOf fields) ((fields.get? optionalKey).any Json.isSet)
  else .reference kind (valueOf fields) (fields.without [typeKey, valueKey])

/-- The object that describes a part. -/
def toFields : Part → Entries Text Json
  | .text t => [(typeKey, .str textType), (valueKey, .str t)]
  | .synonym entity optional =>
    [(typeKey, .str synonymType), (valueKey, .str entity), (optionalKey, .bool optional)]
  | .reference kind t attributes =>
    Entries.merge [(typeKey, .str kind), (valueKey, .str t)] attributes

/-- A part as it is stored. -/
def toJson (p : Part) : Json := .obj p.toFields

/-- Whether the part is a placeholder. -/
def isSynonym : Part → Bool
  | .synonym _ _ => true
  | _ => false

end Part

end Phrasing
