/-
  Phrasing/Entries.lean
  =====================
  **Keyed entries in the order in which their keys first appeared.**

  Objects, tables of synonyms and sets of intents all show their order in the
  output: a key keeps the place of its first appearance and takes the value that
  was given last.  `WellFormed` says that no key appears twice; everything built
  by `insert` has that property.
-/

namespace Phrasing

universe u v w

/-- Values under keys, in order. -/
abbrev Entries (κ : Type u) (α : Type v) := List (κ × α)

namespace Entries

variable {κ : Type u} {α : Type v} {β : Type w}

/-! ### Reading -/

/-- The keys in order. -/
def keys (entries : Entries κ α) : List κ := entries.map Prod.fst

/-- No key appears twice. -/
def WellFormed (entries : Entries κ α) : Prop := entries.keys.Nodup

/-- The same keys with other values. -/
def mapValues (entries : Entries κ α) (f : κ → α → β) : Entries κ β :=
  entries.map fun e => (e.1, f e.1 e.2)

variable [DecidableEq κ]

instance (entries : Entries κ α) : Decidable entries.WellFormed :=
  inferInstanceAs (Decidable (List.Nodup _))

/-- The value under a key. -/
def get? : Entries κ α → κ → Option α
  | [], _ => none
  | (k, v) :: rest, key => if k = key then some v else get? rest key

/-- Whether a key is present. -/
def has (entries : Entries κ α) (key : κ) : Bool := (entries.get? key).isSome

/-! ### Changing -/

/-- Puts a value under a key: in its place if the key is present, else at the end. -/
def insert : Entries κ α → κ → α → Entries κ α
  | [], key, value => [(key, value)]
  | (k, v) :: rest, key, value =>
    if k = key then (k, value) :: rest else (k, v) :: insert rest key value

/-- The entries with others laid over them, key by key. -/
def merge (base overlay : Entries κ α) : Entries κ α :=
  overlay.foldl (fun entries e => entries.insert e.1 e.2) base

/-- The entries whose keys are not among the given ones. -/
def without (entries : Entries κ α) (dropped : List κ) : Entries κ α :=
  entries.filter fun e => e.1 ∉ dropped

/-- Replaces the value under a key that is present. -/
def modify (entries : Entries κ α) (key : κ) (f : α → α) : Entries κ α :=
  entries.map fun e => if e.1 = key then (e.1, f e.2) else e

end Entries

end Phrasing
