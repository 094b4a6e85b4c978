/-
  Phrasing/Json/Basic.lean
  ========================
  **JSON values.**

  An object is a list of members in order.  Integers and floating-point numbers
  are different values even where they are equal as numbers, since they are
  written differently.  `WellFormed` values are those that a reader can deliver:
  no object in them has a key twice.
-/
import Phrasing.Entries
import Phrasing.Number.Double
import Phrasing.Number.Integer

namespace Phrasing

/-- A JSON value. -/
inductive Json where
  | null
  | bool (value : Bool)
  | int (value : Int)
  | float (value : Double)
  | str (value : Text)
  | arr (items : List Json)
  | obj (fields : List (Text × Json))

namespace Json

instance : Inhabited Json := ⟨.null⟩

/-! ### Looking inside -/

/-- The members of an object. -/
def fields? : Json → Option (Entries Text Json)
  | .obj fields => some fields
  | _ => none

/-- The items of an array. -/
def items? : Json → Option (List Json)
  | .arr items => some items
  | _ => none

/-- The text of a string. -/
def text? : Json → Option Text
  | .str t => some t
  | _ => none

/-- The members of an object; any other value has none. -/
def fields (value : Json) : Entries Text Json := value.fields?.getD []

/-- The items of an array; any other value has none. -/
def items (value : Json) : List Json := value.items?.getD []

/-- The member of an object under a key. -/
def field? (value : Json) (key : Text) : Option Json := value.fields.get? key

/-- Whether a value counts as set: null, false, zero and everything empty do not. -/
def isSet : Json → Bool
  | .null => false
  | .bool b => b
  | .int n => n != 0
  | .float x => !x.isZero
  | .str t => !t.isEmpty
  | .arr items => !items.isEmpty
  | .obj fields => !fields.isEmpty

/-! ### Well-formed values -/

mutual

/-- No object inside the value has a key twice. -/
def WellFormed : Json → Prop
  | .arr items => WellFormedItems items
  | .obj fields => Entries.WellFormed fields ∧ WellFormedFields fields
  | _ => True

def WellFormedItems : List Json → Prop
  | [] => True
  | v :: rest => v.WellFormed ∧ WellFormedItems rest

/-- Every member's value is well formed. -/
def WellFormedFields : List (Text × Json) → Prop
  | [] => True
  | (_, v) :: rest => v.WellFormed ∧ WellFormedFields rest

end

mutual

def decideWellFormed : (v : Json) → Decidable v.WellFormed
  | .arr items => decideWellFormedItems items
  | .obj fields =>
    have := decideWellFormedFields fields
    inferInstanceAs (Decidable (Entries.WellFormed fields ∧ WellFormedFields fields))
  | .null | .bool _ | .int _ | .float _ | .str _ => isTrue trivial

def decideWellFormedItems : (items : List Json) → Decidable (WellFormedItems items)
  | [] => isTrue trivial
  | v :: rest =>
    have := v.decideWellFormed
    have := decideWellFormedItems rest
    inferInstanceAs (Decidable (v.WellFormed ∧ WellFormedItems rest))

def decideWellFormedFields : (fields : List (Text × Json)) → Decidable (WellFormedFields fields)
  | [] => isTrue trivial
  | (_, v) :: rest =>
    have := v.decideWellFormed
    have := decideWellFormedFields rest
    inferInstanceAs (Decidable (v.WellFormed ∧ WellFormedFields rest))

end

instance (v : Json) : Decidable v.WellFormed := v.decideWellFormed

/-! ### Integers too long to write -/

mutual

/-- Whether an integer inside the value has more digits than may be written. -/
def hasLongInteger : Json → Bool
  | .int n => isLongInteger n
  | .arr items => hasLongIntegerItem items
  | .obj fields => hasLongIntegerField fields
  | _ => false

def hasLongIntegerItem : List Json → Bool
  | [] => false
  | v :: rest => v.hasLongInteger || hasLongIntegerItem rest

/-- Whether a member has an integer that is too long to write. -/
def hasLongIntegerField : List (Text × Json) → Bool
  | [] => false
  | (_, v) :: rest => v.hasLongInteger || hasLongIntegerField rest

end

end Json

end Phrasing
