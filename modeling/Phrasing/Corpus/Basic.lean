/-
  Phrasing/Corpus/Basic.lean
  ==========================
  **A corpus and its expansion.**

  A corpus holds intents, the synonyms of entities, and the entities themselves.
  Expanding it replaces the sentences of each intent by their variants, in order,
  and keeps everything else.  Sections of the wrong shape are empty ones.
-/
import Phrasing.Corpus.Provider
import Phrasing.Corpus.TrainingRow
import Phrasing.Expansion.Basic

namespace Phrasing

/-- Parsed training data. -/
structure Corpus where
  intents : Intents
  synonyms : SynonymTable
  entities : Entries Text Entity

namespace Corpus

def synonymsKey : Text := "synonyms"

def entitiesKey : Text := "entities"

def sectionOf (tree : Json) (key : Text) : Json := (tree.field? key).getD .null

/-- The entities that a value describes, with synonyms at hand. -/
def entitiesOf (synonyms : SynonymTable) (v : Json) : Entries Text Entity :=
  v.fields.mapValues fun _ definition => Entity.ofJson synonyms definition

/-- The corpus that a tree describes.  Its entities list synonyms only if `useSynonyms` says so. -/
def ofJson (useSynonyms : Bool) (tree : Json) : Corpus :=
  let synonyms := SynonymTable.ofJson (sectionOf tree synonymsKey)
  { intents := Intents.ofJson (sectionOf tree Intents.treeKey)
    synonyms
    entities := entitiesOf (if useSynonyms then synonyms else []) (sectionOf tree entitiesKey) }

end Corpus

/-! ### Expansion -/

/-- An intent with its sentences replaced by their variants. -/
def Intent.expand (table : SynonymTable) (cap : Option Cap) (intent : Intent) : Expansion Intent :=
  (Expansion.all (Sentence.expand table cap (some intent.name)) intent.sentences).map
    fun variants => { intent with sentences := variants.flatten }

/-- Intents with their sentences replaced by their variants. -/
def Intents.expand (table : SynonymTable) (cap : Option Cap) (intents : Intents) :
    Expansion Intents :=
  Expansion.all (fun e => (Intent.expand table cap e.2).map fun intent => (e.1, intent)) intents

namespace Corpus

def expand (cap : Option Cap) (corpus : Corpus) : Expansion Intents :=
  corpus.intents.expand corpus.synonyms cap

/-- The number of variants of each sentence of each intent, without making them. -/
def counts (corpus : Corpus) : Entries Text (List Nat) :=
  corpus.intents.mapValues fun _ intent =>
    intent.sentences.map (Sentence.countVariants corpus.synonyms)

end Corpus

end Phrasing
