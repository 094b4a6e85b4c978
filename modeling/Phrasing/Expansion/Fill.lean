/-
  Phrasing/Expansion/Fill.lean
  ============================
  **Filling the slots of a sentence.**

  Values are taken one by one as placeholders are met.  A value becomes literal
  text in the place of the placeholder; the empty text leaves the placeholder
  out.  Values that are left over are ignored.
-/
import Phrasing.Sentence.Synonyms

namespace Phrasing.Sentence

/-- The sentence with its placeholders replaced, or nothing if the values run out. -/
def fill? : Sentence → List Text → Option Sentence
  | [], _ => some []
  | .synonym _ _ :: _, [] => none
  | .synonym _ _ :: rest, v :: values =>
    if v = omitted then fill? rest values else (fill? rest values).map (.text v :: ·)
  | .text t :: rest, values => (fill? rest values).map (.text t :: ·)
  | .reference kind t attributes :: rest, values =>
    (fill? rest values).map (.reference kind t attributes :: ·)

end Phrasing.Sentence
