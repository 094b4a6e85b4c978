/-
  Phrasing/Sentence/Basic.lean
  ============================
  **Sentences and intents.**

  A sentence is a row of parts and reads as their values one after the other.  An
  intent names a group of sentences and keeps whatever else was stored with it.
  Stored data may be of any shape: what is no sentence is an empty one, and what
  is no part is passed over.
-/
import Phrasing.Sentence.Part

namespace Phrasing

/-- A training sentence. -/
abbrev Sentence := List Part

namespace Sentence

/-- The sentence read out: the values of its parts. -/
def text (s : Sentence) : Text := s.flatMap Part.value

/-- The sentence that a value describes. -/
def ofJson (v : Json) : Sentence := (v.items.filterMap Json.fields?).map Part.ofFields

/-- A sentence as it is stored. -/
def toJson (s : Sentence) : Json := .arr (s.map Part.toJson)

end Sentence

/-- A named group of sentences. -/
structure Intent where
  name : Text
  sentences : List Sentence
  /-- Everything stored with the intent apart from its sentences. -/
  fields : Entries Text Json

namespace Intent

def dataKey : Text := "data"

/-- The intent that a value describes. -/
def ofJson (name : Text) (v : Json) : Intent where
  name
  sentences := ((v.field? dataKey).getD .null).items.map Sentence.ofJson
  fields := v.fields.without [dataKey]

/-- The object that describes an intent. -/
def toFields (intent : Intent) : Entries Text Json :=
  intent.fields.insert dataKey (.arr (intent.sentences.map Sentence.toJson))

/-- An intent as it is stored. -/
def toJson (intent : Intent) : Json := .obj intent.toFields

end Intent

/-- Intents by name. -/
abbrev Intents := Entries Text Intent

namespace Intents

def treeKey : Text := "intents"

/-- The intents that a value describes. -/
def ofJson (v : Json) : Intents := v.fields.mapValues Intent.ofJson

/-- The intents as they are stored. -/
def toFields (intents : Intents) : Entries Text Json := intents.mapValues fun _ i => i.toJson

end Intents

end Phrasing
