/-
  Phrasing/Corpus/Session.lean
  ============================
  **A session on a corpus.**

  A session answers requests one after the other.  What it carries from one
  request to the next is where its providers stand and the events it collected;
  the corpus and the cap stay as they are, so every expansion is made anew.
-/
import Phrasing.Corpus.Basic

namespace Phrasing

/-! ### Sessions -/

/-- A corpus with the state of its providers and the events collected so far. -/
structure Session where
  corpus : Corpus
  cap : Option Cap
  providers : Entries Text Provider
  events : List Event

namespace Session

def start (corpus : Corpus) (cap : Option Cap) : Session where
  corpus
  cap
  providers := corpus.entities.mapValues fun _ entity => Provider.ofEntity entity
  events := []

/-- A session on the corpus of a tree.  A bound on variants has to be positive. -/
def open? (useSynonyms : Bool) (maxVariants : Option Int) (tree : Json) : Option Session :=
  let corpus := Corpus.ofJson useSynonyms tree
  match maxVariants with
  | none => some (start corpus none)
  | some n => (Cap.ofInt? n).map fun cap => start corpus (some cap)

end Session

/-! ### Requests and replies -/

/-- What may be asked of a session. -/
inductive Request where
  | entityNames
  | synonymNames
  /-- The intents before their expansion. -/
  | intents
  | synonyms (entity : Text)
  /-- The intents after their expansion, as they are stored. -/
  | storedIntents
  /-- The intents after their expansion. -/
  | expandedIntents
  /-- The variants of each intent, read out. -/
  | texts
  /-- The rows of the expanded intents. -/
  | rows
  /-- The rows of the expanded intents, as a table that can be saved. -/
  | table
  | values (entity : Text) (variant : Option Text)
  | next (entity : Text) (variant : Option Text)
  | props (entity : Text)
  | variantNames (entity : Text)
  | size (entity : Text)
  /-- The number of variants of each sentence, without an expansion. -/
  | counts
  | events
  | eventCount (kind : Text)
deriving DecidableEq

/-- Why a request fails. -/
inductive RequestError where
  | lookup (error : LookupError)
  | expansion (error : ExpansionError)
  /-- A table cannot hold a row. -/
  | unencodableRow

/-- The answer to a request. -/
inductive Reply where
  | names (names : List Text)
  | value (v : Text)
  | number (n : Nat)
  | fields (fields : Entries Text Json)
  | intents (intents : Intents)
  | texts (texts : Entries Text (List Text))
  | rows (rows : List TrainingRow)
  | table (rows : List TrainingRow)
  | counts (counts : Entries Text (List Nat))
  | events (events : List Event)
  | failed (error : RequestError)

namespace Session

/-- An entity by name. -/
def provider (s : Session) (name : Text) : Except LookupError Provider :=
  match s.providers.get? name with
  | some p => .ok p
  | none => .error (.unknownEntity name)

def found {α : Type} (reply : α → Reply) : Except LookupError α → Reply
  | .ok a => reply a
  | .error e => .failed (.lookup e)

/-- Expands the intents, collects the events, and replies with what came out. -/
def expanding (s : Session) (reply : Intents → Reply) : Reply × Session :=
  let x := s.corpus.expand s.cap
  (match x.result with
    | .ok intents => reply intents
    | .error e => .failed (.expansion e),
    { s with events := s.events ++ x.events })

/-- The reply with a table, unless a row has no place in one. -/
def tableReply (rows : List TrainingRow) : Reply :=
  if ∀ r ∈ rows, r.IsScalar then .table rows else .failed .unencodableRow

/-- Answers a request. -/
def perform (s : Session) : Request → Reply × Session
  | .entityNames => (.names s.providers.keys, s)
  | .synonymNames => (.names s.corpus.synonyms.keys, s)
  | .intents => (.intents s.corpus.intents, s)
  | .synonyms entity => (.names (s.corpus.synonyms.values entity), s)
  | .storedIntents => s.expanding fun intents => .fields intents.toFields
  | .expandedIntents => s.expanding .intents
  | .texts => s.expanding fun intents =>
      .texts (intents.mapValues fun _ intent => intent.sentences.map Sentence.text)
  | .rows => s.expanding fun intents => .rows intents.rows
  | .table => s.expanding fun intents => tableReply intents.rows
  | .values entity variant =>
    (found .names ((s.provider entity).bind fun p => p.entity.values variant), s)
  | .next entity variant =>
    match s.provider entity with
    | .error e => (.failed (.lookup e), s)
    | .ok p =>
      let (served, p) := p.next variant
      (found .value served, { s with providers := s.providers.insert entity p })
  | .props entity => (found (fun p => .fields p.entity.props) (s.provider entity), s)
  | .variantNames entity => (found (fun p => .names p.entity.variants.keys) (s.provider entity), s)
  | .size entity => (found (fun p => .number p.entity.defaults.length) (s.provider entity), s)
  | .counts => (.counts s.corpus.counts, s)
  | .events => (.events s.events, s)
  | .eventCount kind => (.number (Event.countKind s.events kind), s)

/-- Answers requests in order. -/
def performAll (s : Session) : List Request → List Reply × Session
  | [] => ([], s)
  | request :: rest =>
    let (reply, s) := s.perform request
    let (replies, s) := performAll s rest
    (reply :: replies, s)

end Session

end Phrasing
