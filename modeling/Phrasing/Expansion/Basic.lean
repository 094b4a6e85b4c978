/-
  Phrasing/Expansion/Basic.lean
  =============================
  **Expanding a sentence into its variants.**

  A sentence without placeholders is its own only variant.  Any other has one
  variant for each combination of values of its slots, in odometer order, up to a
  cap.  Two things are worth telling: a required slot without values, which
  leaves the sentence with no variant at all, and a cap that cut variants off.
-/
import Phrasing.Expansion.Fill
import Phrasing.Expansion.Odometer
import Phrasing.Expansion.Seams

namespace Phrasing

/-! ### Events -/

/-- Something that an expansion reports. -/
structure Event where
  kind : Text
  /-- The text of the sentence before its expansion. -/
  sentence : Text
  entity : Option Text
  intent : Option Text
  detail : Option Text
deriving DecidableEq

namespace Event

/-- The kind of event for a required slot without values. -/
def emptyDomain : Text := "empty_domain"

/-- The kind of event for a cap that cut variants off. -/
def truncated : Text := "truncated"

def countKind (events : List Event) (kind : Text) : Nat := events.countP (·.kind = kind)

/-- A required slot has no values. -/
def ofEmptySlot (s : Sentence) (intent : Option Text) (slot : Slot) : Event where
  kind := emptyDomain
  sentence := s.text
  entity := some slot.entity
  intent
  detail := some "required synonym has no values; sentence dropped"

/-- A cap kept some of the variants. -/
def ofCap (s : Sentence) (intent : Option Text) (kept total : Nat) : Event where
  kind := truncated
  sentence := s.text
  entity := none
  intent
  detail := some ("kept " ++ Text.ofNat kept ++ " of " ++ Text.ofNat total ++ " variants")

end Event

/-! ### Caps -/

/-- The most variants that a sentence may have: at least one. -/
structure Cap where
  size : Nat
  positive : 0 < size
deriving DecidableEq

namespace Cap

/-- The cap of an integer, if it is positive. -/
def ofInt? (n : Int) : Option Cap :=
  if h : 0 < n.toNat then some ⟨n.toNat, h⟩ else none

end Cap

/-- The largest cap under which variants can be counted off. -/
def Cap.largest : Nat := 9223372036854775807

/-! ### Expansion -/

/-- Why an expansion does not finish. -/
inductive ExpansionError where
  /-- A placeholder was met after the last value. -/
  | outOfValues
  /-- The number of variants has too many digits to be told. -/
  | longTotal
  /-- A cap that has to cut variants off is too large for counting them off. -/
  | capTooLarge
deriving DecidableEq

/-- What an expansion did: the events it reported, and its variants unless it failed. -/
structure Expansion (α : Type) where
  events : List Event
  result : Except ExpansionError α

namespace Expansion

variable {α β : Type}

/-- An expansion that reports nothing. -/
def pure (a : α) : Expansion α := ⟨[], .ok a⟩

/-- One expansion after another; the second does not start if the first fails. -/
def bind (x : Expansion α) (f : α → Expansion β) : Expansion β :=
  match x.result with
  | .error e => ⟨x.events, .error e⟩
  | .ok a => ⟨x.events ++ (f a).events, (f a).result⟩

/-- An expansion with its result changed. -/
def map (f : α → β) (x : Expansion α) : Expansion β := ⟨x.events, x.result.map f⟩

/-- Expansions in a row, up to the first that fails. -/
def all (f : α → Expansion β) : List α → Expansion (List β)
  | [] => pure []
  | a :: rest => (f a).bind fun b => (all f rest).map (b :: ·)

end Expansion

namespace Sentence

def variant (s : Sentence) (values : List Text) : Except ExpansionError Sentence :=
  match s.fill? values with
  | some filled => .ok filled.tidy
  | none => .error .outOfValues

/-- The events of the required slots that have no values. -/
def emptySlotEvents (table : SynonymTable) (intent : Option Text) (s : Sentence) : List Event :=
  (s.slots.filter fun slot => (slot.domain table).isEmpty).map (Event.ofEmptySlot s intent)

/-- The combinations to enumerate under a cap, after the events that tell what is missing. -/
def chosen (table : SynonymTable) (cap : Option Cap) (intent : Option Text) (s : Sentence) :
    Expansion (List (List Text)) :=
  let domains := s.domains table
  let missing := s.emptySlotEvents table intent
  match cap with
  | none => ⟨missing, .ok (Odometer.combinations domains)⟩
  | some cap =>
    let total := s.countVariants table
    if total ≤ cap.size then ⟨missing, .ok (Odometer.combinations domains)⟩
    else if isLongInteger total then ⟨missing, .error .longTotal⟩
    else
      ⟨missing ++ [.ofCap s intent cap.size total],
        if Cap.largest < cap.size then .error .capTooLarge
        else .ok (Odometer.first cap.size domains)⟩

def expand (table : SynonymTable) (cap : Option Cap) (intent : Option Text) (s : Sentence) :
    Expansion (List Sentence) :=
  if s.slots.isEmpty then .pure [s]
  else
    (s.chosen table cap intent).bind fun combinations => ⟨[], combinations.mapM s.variant⟩

end Sentence

end Phrasing
