/-
  Phrasing/Corpus/TrainingRow.lean
  ================================
  **Training rows: intents as a flat table.**

  A row holds the name of an intent, the place of one of its sentences from zero,
  and the sentence read out.  A table can only hold scalar text.
-/
import Phrasing.Sentence.Basic

namespace Phrasing

structure TrainingRow where
  intent : Text
  place : Nat
  text : Text
deriving DecidableEq

namespace TrainingRow

/-- Whether a table can hold the row. -/
def IsScalar (r : TrainingRow) : Prop := r.intent.IsScalar ∧ r.text.IsScalar

instance (r : TrainingRow) : Decidable r.IsScalar := inferInstanceAs (Decidable (_ ∧ _))

end TrainingRow

def Intent.rows (name : Text) (intent : Intent) : List TrainingRow :=
  intent.sentences.mapIdx fun place s => ⟨name, place, s.text⟩

/-- The rows of all intents, in order. -/
def Intents.rows (intents : Intents) : List TrainingRow :=
  intents.flatMap fun e => e.2.rows e.1

end Phrasing
