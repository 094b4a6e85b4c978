/-
  Phrasing/Expansion/Foreign.lean
  ===============================
  **Rows that hold something other than parts.**

  A caller may put a value into a sentence that is no part at all.  Such a value
  has no text and no place in a variant, so whatever has to look at it fails: the
  text of the row at once, its filling where the value is met.  What looks for
  placeholders alone passes it by.
-/
import Phrasing.Expansion.Basic

namespace Phrasing

/-- An item of a row: a part, or a value that is none. -/
inductive Item where
  | part (p : Part)
  | foreign (v : Json)

/-- Why a row is refused. -/
inductive RowError where
  /-- A value stands where a part must. -/
  | unsupportedPart (v : Json)
  /-- A value that is no part has no text. -/
  | noText
  /-- Something other than a placeholder stands where one must. -/
  | notSlot
  /-- A placeholder was met after the last value. -/
  | outOfValues

/-- A row of items. -/
abbrev Row := List Item

namespace Row

def parts (row : Row) : Sentence :=
  row.filterMap fun
    | .part p => some p
    | .foreign _ => none

/-- The sentence that a row is, if all its items are parts. -/
def sentence? : Row → Option Sentence
  | [] => some []
  | .part p :: rest => (sentence? rest).map (p :: ·)
  | .foreign _ :: _ => none

/-- The parts before the first foreign value, and that value. -/
def untilForeign : Row → Sentence × Option Json
  | [] => ([], none)
  | .part p :: rest => let (parts, v) := untilForeign rest; (p :: parts, v)
  | .foreign v :: _ => ([], some v)

/-- An item as it is stored. -/
def itemToJson : Item → Except RowError Json
  | .part p => .ok p.toJson
  | .foreign v => .error (.unsupportedPart v)

/-- A row read as a sentence, wherever the text of every item is needed. -/
def sentence (row : Row) : Except RowError Sentence :=
  match row.sentence? with
  | some s => .ok s
  | none => .error .noText

def text (row : Row) : Except RowError Text := row.sentence.map Sentence.text

def slotOf : Item → Except RowError Slot
  | .part (.synonym entity optional) => .ok ⟨entity, optional⟩
  | _ => .error .notSlot

/-- The slots of a row that holds nothing but placeholders. -/
def slots (row : Row) : Except RowError (List Slot) := row.mapM slotOf

/-- Fills a row.  Of a foreign value and values that run out, the one that is met first decides. -/
def fill (row : Row) (values : List Text) : Except RowError Sentence :=
  let (parts, foreign) := row.untilForeign
  match parts.fill? values, foreign with
  | none, _ => .error .outOfValues
  | some filled, none => .ok filled
  | some _, some v => .error (.unsupportedPart v)

/-- The expansion of a row: nothing is filled in a row without a slot, which is left as it is. -/
inductive Outcome where
  | sentence (variants : Expansion (List Sentence))
  | unchanged
  | refused (error : RowError)

/-- Why a row with a foreign value and a slot cannot be expanded: an event would need its text, a
variant its filling. -/
def refusal (table : SynonymTable) (cap : Option Cap) (row : Row) (foreign : Json) : RowError :=
  let missing := row.parts.emptySlotEvents table none
  let total := row.parts.countVariants table
  if missing.isEmpty && cap.all (total ≤ ·.size) then .unsupportedPart foreign else .noText

def expand (table : SynonymTable) (cap : Option Cap) (intent : Option Text) (row : Row) :
    Outcome :=
  match row.sentence?, row.untilForeign.2 with
  | none, some foreign =>
    if row.parts.slots.isEmpty then .unchanged else .refused (row.refusal table cap foreign)
  | _, _ => .sentence (row.parts.expand table cap intent)

end Row

end Phrasing
