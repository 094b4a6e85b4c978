/-
  Phrasing/Corpus/Journal.lean
  ============================
  **Collecting events and writing them to a journal.**

  A journal is a file of one JSON object a line, in printable ASCII, to which
  events are added at the end.  A collector keeps events in memory and may pass
  each on to a journal.
-/
import Phrasing.Expansion.Basic
import Phrasing.Storage.Document

namespace Phrasing

/-! ### Records -/

/-- A string, or null where there is none. -/
def Json.ofText? : Option Text → Json
  | some t => .str t
  | none => .null

/-- An event and what the clock shows when it is written. -/
structure Record where
  event : Event
  time : Double
deriving DecidableEq

namespace Record

/-- A record by a clock that stands at zero. -/
def untimed (e : Event) : Record := ⟨e, .finite false 0 (-1074)⟩

def toFields (r : Record) : Entries Text Json := [
  ("kind", .str r.event.kind), ("sentence", .str r.event.sentence),
  ("entity", .ofText? r.event.entity), ("intent", .ofText? r.event.intent),
  ("detail", .ofText? r.event.detail), ("timestamp", .float r.time)]

def line (r : Record) : Text := (Json.obj r.toFields).write .asciiLine ++ [lineFeed]

end Record

def asciiBytes (t : Text) : Bytes := t.map fun c => c.val.toUInt8

/-! ### Journals -/

/-- Where events are written, if anywhere. -/
structure Journal where
  path : Option Path
deriving DecidableEq

namespace Journal

/-- Opens a journal: makes the directories on the way to its file. -/
def start (path : Option Path) (d : Disk) : Written Journal :=
  match path with
  | none => ⟨d, .ok ⟨none⟩⟩
  | some p => d.afterParents p fun d => ⟨d, .ok ⟨some p⟩⟩

def bytes (records : List Record) : Bytes := records.flatMap fun r => asciiBytes r.line

/-- Writes records at the end of a journal.  Without a record there is nothing to write, and the
file is not touched. -/
def writeAll [Host] (j : Journal) (d : Disk) (records : List Record) : Written Unit :=
  match j.path with
  | none => ⟨d, .ok ()⟩
  | some p =>
    if records.isEmpty then ⟨d, .ok ()⟩
    else
      match d.append p (bytes records) with
      | .ok d => ⟨d, .ok ()⟩
      | .error error => ⟨d, .error (.disk error)⟩

def write [Host] (j : Journal) (d : Disk) (e : Event) : Written Unit := j.writeAll d [.untimed e]

end Journal

/-! ### Collectors -/

/-- The events collected so far, and where they are passed on to. -/
structure Collector where
  events : List Event
  journal : Option Journal
deriving DecidableEq

namespace Collector

def start (journal : Option Journal) : Collector := ⟨[], journal⟩

/-- Collects the events of records in order and passes the records on. -/
def recordAll [Host] (c : Collector) (d : Disk) (records : List Record) :
    Collector × Written Unit :=
  ({ c with events := c.events ++ records.map Record.event },
    match c.journal with
    | none => ⟨d, .ok ()⟩
    | some j => j.writeAll d records)

/-- Collects events in order and passes them on. -/
def collectAll [Host] (c : Collector) (d : Disk) (events : List Event) : Collector × Written Unit :=
  c.recordAll d (events.map .untimed)

def collect [Host] (c : Collector) (d : Disk) (e : Event) : Collector × Written Unit :=
  c.collectAll d [e]

/-- How many of the collected events are of a kind. -/
def count (c : Collector) (kind : Text) : Nat := Event.countKind c.events kind

end Collector

end Phrasing
