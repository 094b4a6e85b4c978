/-
  Phrasing/Expansion/Seams.lean
  =============================
  **Closing the seams of a filled sentence.**

  Leaving a placeholder out leaves blanks at the edges of a sentence and two
  spaces where its neighbours meet.  The first part loses its leading blanks, the
  last its trailing ones, and so does a part before one that begins with a space.
  Literal text that ends up empty is dropped; nothing but literal text changes.
-/
import Phrasing.Sentence.Basic

namespace Phrasing.Sentence

/-- Whether a part is followed by the end of the sentence or by a part that begins with a space. -/
def closesSeam : Sentence → Bool
  | [] => true
  | next :: _ => next.value.startsWithSpace

/-- Closes the seams of a sentence whose first part is the first of all if `first` says so. -/
def tidyFrom (first : Bool) : Sentence → Sentence
  | [] => []
  | .text t :: rest =>
    let t := if first then t.trimStart else t
    let t := if closesSeam rest then t.trimEnd else t
    if t = [] then tidyFrom false rest else .text t :: tidyFrom false rest
  | part :: rest => part :: tidyFrom false rest

/-- The sentence with its seams closed. -/
def tidy (s : Sentence) : Sentence := tidyFrom true s

end Phrasing.Sentence
