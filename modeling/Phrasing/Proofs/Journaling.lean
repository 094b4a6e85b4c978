/-
  Phrasing/Proofs/Journaling.lean
  ===============================
  **A journal tells what was collected.**

  Once the directories on the way to a journal are made, a file either stands at
  its path or may be put there, and adding to it keeps that so.  Events that are
  collected one after another therefore all reach the journal, behind what it
  held.  Each takes one line of printable ASCII, since a layout on one line writes
  no line break and escapes what is not ASCII; and the line is read as the record
  it was written for, surrogate pairs put together again.
-/
import Mathlib.Data.List.Basic
import Mathlib.Data.List.Forall2
import Phrasing.Corpus.Journal
import Phrasing.Proofs.Saving

namespace Phrasing

/-! ### A file that is added to -/

namespace Disk

/-- What the file at a path holds, be it a table's: nothing if it is not there yet. -/
def content? [Host] (d : Disk) (p : Path) : Option Bytes :=
  match d.bytes p with
  | .ok content => some content
  | .error .missing => some []
  | .error _ => none

/-- A file with such a content stands at the location to which the path leads, or a table that is
written so, or the content is empty and a file may be put there. -/
def HoldsAt [Host] (d : Disk) (p : Path) (l : Location) (content : Bytes) : Prop :=
  d.writable p = .ok l ∧
    (d.node? l = some (.file content) ∨
      (∃ rows, d.node? l = some (.table rows) ∧ Host.tableBytes rows = content) ∨
      d.node? l = none ∧ content = [])

/-- A file with such a content stands at the path, or may be put there. -/
def Holds [Host] (d : Disk) (p : Path) (content : Bytes) : Prop := ∃ l, d.HoldsAt p l content

section Holds

variable [Host] {d : Disk} {p : Path} {l : Location} {content : Bytes}

theorem content?_of_holds (h : d.Holds p content) : d.content? p = some content := by
  obtain ⟨l, hwritable, hnode⟩ := h
  obtain ⟨hresolve, -⟩ := writable_eq_ok_iff.mp hwritable
  rw [content?, bytes, openWith, hresolve]
  dsimp only [bind, Except.bind]
  rcases hnode with hfile | ⟨rows, htable, rfl⟩ | ⟨hnone, rfl⟩
  · rw [hfile]
    rfl
  · rw [htable]
  · rw [hnone]

theorem HoldsAt.insert (h : d.HoldsAt p l content) (more : Bytes) :
    HoldsAt (Entries.insert d l (.file more)) p l more := by
  obtain ⟨-, hnode⟩ := writable_eq_ok_iff.mp h.1
  exact ⟨writable_insert h.1 more,
    Or.inl (node?_insert_self d (names_ne_nil_of_node? hnode) _)⟩

/-- Bytes that are added to a file stand behind what it held. -/
theorem HoldsAt.append_eq (h : d.HoldsAt p l content) (more : Bytes) :
    d.append p more = .ok (Entries.insert d l (.file (content ++ more))) := by
  obtain ⟨hwritable, hnode⟩ := h
  rw [append, hwritable]
  dsimp only [bind, Except.bind]
  rcases hnode with hfile | ⟨rows, htable, rfl⟩ | ⟨hnone, rfl⟩
  · rw [hfile]
  · rw [htable]
  · rw [hnone]
    rfl

end Holds

/-! ### Directories on the way -/

section Directories

variable {d made : Disk} {p : Path}

theorem isDirectory_insert {l : Location} (hresolve : d.resolve p = .ok l)
    (hnode : d.node? l = none) : isDirectory (Entries.insert d l .directory) p = true := by
  have hfree : d.node? l ≠ some .directory := by
    simp [hnode]
  rw [isDirectory, resolve_insert hfree .directory hresolve]
  dsimp only
  rw [node?_insert_self d (names_ne_nil_of_node? hfree)]
  rfl

theorem isDirectory_of_ensureDirectory (h : d.ensureDirectory p = .ok made) :
    made.isDirectory p = true := by
  unfold ensureDirectory at h
  split at h
  · split at h
    · rename_i hthere
      obtain rfl := Except.ok.inj h
      exact hthere
    · cases h
  · obtain ⟨l, hresolve, hnode, rfl⟩ := makeDirectory_eq_ok_iff.mp h
    exact isDirectory_insert hresolve hnode

theorem isDirectory_of_ensureFrom {base : Base} {names : List Text}
    (h : ensureFrom base d names = (made, .ok ())) :
    made.isDirectory ⟨base, names.reverse⟩ = true := by
  cases names with
  | nil =>
    unfold ensureFrom at h
    split at h
    · rename_i hmade
      obtain ⟨rfl, -⟩ := Prod.mk.inj h
      exact isDirectory_of_ensureDirectory hmade
    · cases h
  | cons name above =>
    unfold ensureFrom at h
    split at h
    · rename_i hmade
      obtain ⟨rfl, -⟩ := Prod.mk.inj h
      exact isDirectory_of_ensureDirectory hmade
    -- whatever was made above, the directory itself is made last
    · split at h
      · cases h
      · split at h
        · rename_i hlast
          obtain ⟨rfl, -⟩ := Prod.mk.inj h
          exact isDirectory_of_ensureDirectory hlast
        · cases h
    · cases h

theorem isDirectory_of_ensureDirectories (h : d.ensureDirectories p = (made, .ok ())) :
    made.isDirectory p = true := by
  have hmade := isDirectory_of_ensureFrom h
  rwa [List.reverse_reverse] at hmade

theorem resolveFrom_of_resolve {l : Location} (h : d.resolve p = .ok l) :
    d.resolveFrom (Location.start p) p.names = .ok l := by
  unfold resolve at h
  split at h
  · cases h
  · split at h
    · cases h
    · exact h

/-- The last name of a path is followed from the directory to which the others lead. -/
theorem resolveFrom_concat {names : List Text} {start l : Location}
    (h : d.resolveFrom start names = .ok l) (hl : d.node? l = some .directory) (last : Text) :
    d.resolveFrom start (names ++ [last]) = d.resolveFrom l [last] := by
  induction names generalizing start with
  | nil =>
    obtain rfl := Except.ok.inj h
    rfl
  | cons name rest ih =>
    unfold resolveFrom at h
    split at h
    · cases h
    · rename_i hname
      have hrest : (rest ++ [last]).isEmpty = false := by simp
      rw [List.cons_append, resolveFrom, if_neg hname]
      dsimp only at h ⊢
      rw [hrest, if_neg Bool.false_ne_true]
      split at h
      · rename_i hempty
        obtain rfl := Except.ok.inj h
        rw [hl, List.isEmpty_iff.mp hempty]
        rfl
      · split at h
        · cases h
        · exact ih h
        · cases h

theorem exists_of_isDirectory (h : d.isDirectory p = true) :
    ∃ l, d.resolve p = .ok l ∧ d.node? l = some .directory := by
  rw [isDirectory] at h
  split at h
  · exact ⟨_, ‹_›, beq_iff_eq.mp h⟩
  · cases h

theorem resolveFrom_ne_missing (h : d.isDirectory p.parent = true) :
    d.resolveFrom (Location.start p) p.names ≠ .error .missing := by
  obtain ⟨l, hresolve, hl⟩ := exists_of_isDirectory h
  have habove : d.resolveFrom (Location.start p) p.parent.names = .ok l :=
    resolveFrom_of_resolve hresolve
  intro hmissing
  rcases List.eq_nil_or_concat p.names with hnil | ⟨above, last, hnames⟩
  · rw [hnil] at hmissing
    cases hmissing
  · rw [List.concat_eq_append] at hnames
    rw [Path.parent, hnames, List.dropLast_concat] at habove
    -- only a name that is too long stops the last step
    rw [hnames, resolveFrom_concat habove hl, resolveFrom] at hmissing
    split at hmissing <;> cases hmissing

theorem pathError?_ne_missing (p : Path) : pathError? p ≠ some .missing := by
  unfold pathError?
  split
  · simp
  · split <;> simp

/-- Where the directory is there, nothing is missed on the way to what stands in it. -/
theorem resolve_ne_missing (h : d.isDirectory p.parent = true) : d.resolve p ≠ .error .missing := by
  unfold resolve
  split
  · rename_i herror
    rintro ⟨rfl⟩
    exact pathError?_ne_missing p herror
  · split
    · simp
    · exact resolveFrom_ne_missing h

/-- A file with a content may be added to. -/
theorem holds_of_content? [Host] {content : Bytes} (hparent : d.isDirectory p.parent = true)
    (h : d.content? p = some content) : d.Holds p content := by
  rw [content?, bytes, openWith] at h
  cases hresolve : d.resolve p with
  | error e =>
    rw [hresolve] at h
    cases e with
    | missing => exact absurd hresolve (resolve_ne_missing hparent)
    | _ => cases h
  | ok l =>
    rw [hresolve] at h
    dsimp only [bind, Except.bind] at h
    have hwritable : d.node? l ≠ some .directory → d.writable p = .ok l :=
      fun hnode => writable_eq_ok_iff.mpr ⟨hresolve, hnode⟩
    cases hnode : d.node? l with
    | none =>
      rw [hnode] at h hwritable
      obtain rfl := Option.some.inj h
      exact ⟨l, hwritable (by simp), Or.inr (Or.inr ⟨hnode, rfl⟩)⟩
    | some node =>
      rw [hnode] at h hwritable
      cases node with
      | directory => cases h
      | table rows =>
        obtain rfl := Option.some.inj h
        exact ⟨l, hwritable (by simp), Or.inr (Or.inl ⟨rows, hnode, rfl⟩)⟩
      | file found =>
        obtain rfl := Option.some.inj h
        exact ⟨l, hwritable (by simp), Or.inl hnode⟩

end Directories

end Disk

/-! ### Lines -/

/-- Whether a file can hold every string of an event. -/
structure Event.IsScalar (e : Event) : Prop where
  kind : e.kind.IsScalar
  sentence : e.sentence.IsScalar
  entity : ∀ t ∈ e.entity, t.IsScalar
  intent : ∀ t ∈ e.intent, t.IsScalar
  detail : ∀ t ∈ e.detail, t.IsScalar

/-- A byte of printable ASCII. -/
def IsPlainByte (b : UInt8) : Prop := 0x20 ≤ b.toNat ∧ b.toNat ≤ 0x7E

theorem isPlainByte_asciiBytes {t : Text} (h : t.IsPlain) : ∀ b ∈ asciiBytes t, IsPlainByte b := by
  intro b hb
  obtain ⟨c, hc, rfl⟩ := List.mem_map.mp hb
  obtain ⟨hlow, hhigh⟩ := h c hc
  rw [IsPlainByte, Utf8.toNat_toUInt8 (by omega)]
  exact ⟨hlow, hhigh⟩

theorem decode?_asciiBytes {t : Text} (h : t.IsPlain) : Utf8.decode? (asciiBytes t) = some t := by
  have hbytes : asciiBytes t = t.flatMap Utf8.encodeCodePoint := by
    have hone : ∀ c ∈ t, Utf8.encodeCodePoint c = [c.val.toUInt8] := by
      intro c hc
      have hhigh := (h c hc).2
      rw [Utf8.encodeCodePoint, if_pos (by omega)]
    rw [asciiBytes, List.map_eq_flatMap, List.flatMap_congr hone]
  rw [hbytes]
  exact Utf8.decodeFrom_flatMap (fun c hc => (h c hc).isKept.1) []

namespace Record

/-- The line of a record, without its end. -/
def lineBytes (r : Record) : Bytes := asciiBytes ((Json.obj r.toFields).write .asciiLine)

/-- What the line of a record is read as. -/
theorem read_line {r : Record} (h : r.event.IsScalar) :
    Json.read ((Json.obj r.toFields).write .asciiLine) =
      .ok (.obj (toFields ⟨r.event, r.time.told⟩)) := by
  have hoptional : ∀ o : Option Text, (∀ t ∈ o, t.IsScalar) → (Json.ofText? o).Legible := by
    intro o ho
    cases o with
    | none => trivial
    | some t => exact ho t rfl
  have hnull : ∀ o : Option Text, (Json.ofText? o).told = Json.ofText? o := by
    intro o
    cases o <;> rfl
  have hkeys : (["kind", "sentence", "entity", "intent", "detail", "timestamp"] :
      List Text).Nodup := by decide
  have hlegible : (Json.obj r.toFields).Legible :=
    ⟨hkeys, by decide, h.kind, by decide, h.sentence, by decide, hoptional _ h.entity, by decide,
      hoptional _ h.intent, by decide, hoptional _ h.detail, by decide, trivial, trivial⟩
  have htold : (Json.obj r.toFields).told = .obj (toFields ⟨r.event, r.time.told⟩) := by
    simp only [toFields, Json.told, Json.toldFields, hnull]
  rw [← htold]
  exact Json.read_render_told .asciiLine 0 hlegible

end Record

/-! ### Events that are passed on one by one -/

theorem Journal.bytes_append (records more : List Record) :
    Journal.bytes (records ++ more) = Journal.bytes records ++ Journal.bytes more :=
  List.flatMap_append

namespace Collector

/-- Passes events to a collector one after another, each when the clock shows its time.  An event
that cannot be written stops the run. -/
def feed [Host] (c : Collector) (d : Disk) : List Record → Collector × Written Unit
  | [] => (c, ⟨d, .ok ()⟩)
  | r :: rest =>
    match c.recordAll d [r] with
    | (c, ⟨d, .ok ()⟩) => c.feed d rest
    | (c, ⟨d, .error failure⟩) => (c, ⟨d, .error failure⟩)

section Feed

variable [Host] {p : Path} {l : Location} {d : Disk} {content : Bytes}

theorem recordAll_nil (c : Collector) (d : Disk) : c.recordAll d [] = (c, ⟨d, .ok ()⟩) := by
  obtain ⟨events, journal⟩ := c
  match journal with
  | none => simp [recordAll]
  | some ⟨none⟩ => simp [recordAll, Journal.writeAll]
  | some ⟨some p⟩ => simp [recordAll, Journal.writeAll]

theorem recordAll_cons (h : d.HoldsAt p l content) (events : List Event) (r : Record)
    (rest : List Record) :
    recordAll ⟨events, some ⟨some p⟩⟩ d (r :: rest) =
      (⟨events ++ (r :: rest).map Record.event, some ⟨some p⟩⟩,
        ⟨Entries.insert d l (.file (content ++ Journal.bytes (r :: rest))), .ok ()⟩) := by
  rw [recordAll]
  dsimp only [Journal.writeAll]
  rw [List.isEmpty_cons, if_neg Bool.false_ne_true, h.append_eq]

/-- Records that a journal takes stand behind what it held. -/
theorem recordAll_of_holds (h : d.Holds p content) (events : List Event) (records : List Record) :
    ∃ after : Disk,
      recordAll ⟨events, some ⟨some p⟩⟩ d records =
        (⟨events ++ records.map Record.event, some ⟨some p⟩⟩, ⟨after, .ok ()⟩) ∧
      after.Holds p (content ++ Journal.bytes records) := by
  obtain ⟨l, hl⟩ := h
  cases records with
  | nil =>
    refine ⟨d, ?_, l, ?_⟩
    · rw [recordAll_nil, List.map_nil, List.append_nil]
    · rw [Journal.bytes, List.flatMap_nil, List.append_nil]
      exact hl
  | cons r rest => exact ⟨_, recordAll_cons hl events r rest, l, hl.insert _⟩

/-- Passing records on one by one leaves what passing them on at once leaves. -/
theorem feed_eq_recordAll (h : d.HoldsAt p l content) (events : List Event)
    (records : List Record) :
    feed ⟨events, some ⟨some p⟩⟩ d records = recordAll ⟨events, some ⟨some p⟩⟩ d records := by
  induction records generalizing d content events with
  | nil => rw [feed, recordAll_nil]
  | cons r rest ih =>
    -- the first record leaves a journal that takes the others
    have hnext := h.insert (content ++ Journal.bytes [r])
    rw [feed, recordAll_cons h events r []]
    dsimp only
    rw [ih hnext]
    cases rest with
    | nil => rw [recordAll_nil, recordAll_cons h]
    | cons next rest =>
      rw [recordAll_cons hnext, Entries.insert_insert, recordAll_cons h, List.append_assoc,
        List.append_assoc, ← Journal.bytes_append, ← List.map_append]
      rfl

end Feed

end Collector

/-! ### Journals -/

namespace Journal

/-- A journal that was opened is at its path, in a directory that is there. -/
theorem isDirectory_of_start {d opened : Disk} {p : Path} {journal : Journal}
    (h : Journal.start (some p) d = ⟨opened, .ok journal⟩) :
    journal = ⟨some p⟩ ∧ opened.isDirectory p.parent = true := by
  rw [start, Disk.afterParents] at h
  split at h
  · cases h
  · rename_i hmade
    cases h
    exact ⟨rfl, Disk.isDirectory_of_ensureDirectories hmade⟩

/-- The value that a line of a journal spells. -/
def decode? (line : Bytes) : Option Json :=
  (Utf8.decode? line).bind fun t => (Json.read t).toOption

/-- The kind of event that a line tells of. -/
def kind? (line : Bytes) : Option Text :=
  ((decode? line).bind fun v => v.field? "kind").bind Json.text?

/-- The line is printable ASCII and spells an object of what the event holds, null for what it
lacks, and a time. -/
structure Tells (line : Bytes) (e : Event) : Prop where
  plain : ∀ b ∈ line, IsPlainByte b
  object : ∃ time : Double, decode? line = some (.obj [
    ("kind", .str e.kind), ("sentence", .str e.sentence), ("entity", .ofText? e.entity),
    ("intent", .ofText? e.intent), ("detail", .ofText? e.detail), ("timestamp", .float time)])

theorem Tells.kind?_eq {line : Bytes} {e : Event} (h : Tells line e) : kind? line = some e.kind := by
  obtain ⟨time, hobject⟩ := h.object
  rw [kind?, hobject]
  rfl

theorem tells_lineBytes {r : Record} (h : r.event.IsScalar) : Tells r.lineBytes r.event where
  plain := isPlainByte_asciiBytes (Json.isPlain_write_asciiLine _)
  object := by
    refine ⟨r.time.told, ?_⟩
    rw [decode?, Record.lineBytes, decode?_asciiBytes (Json.isPlain_write_asciiLine _),
      Option.bind_some, Record.read_line h]
    rfl

theorem bytes_eq (records : List Record) :
    bytes records = (records.map Record.lineBytes).flatMap (· ++ [0x0A]) := by
  have hline : ∀ r : Record, asciiBytes r.line = r.lineBytes ++ [0x0A] := by
    intro r
    rw [Record.line, asciiBytes, List.map_append]
    rfl
  rw [bytes, List.flatMap_map]
  exact List.flatMap_congr fun r _ => hline r

/-- Lines that tell of events are of a kind as often as the events are. -/
theorem countP_of_tells {lines : List Bytes} {events : List Event}
    (h : List.Forall₂ Tells lines events) (kind : Text) :
    Event.countKind events kind = lines.countP (kind? · = some kind) := by
  induction h with
  | nil => rfl
  | cons hline _ ih =>
    rw [Event.countKind, List.countP_cons, List.countP_cons, ← ih, hline.kind?_eq]
    simp [Event.countKind]

/-- **A journal tells what was collected.**  Events that no file refuses are passed, one after
another and whatever the clock shows, to a collector with a journal whose file can be told.  Then all
are collected, and the file holds what it held before and behind that, in order, one line for each
event.  A line tells of its event; so of each kind there are as many lines as the collector
counts. -/
theorem tells_collected [Host] {d opened : Disk} {p : Path} {journal : Journal} {before : Bytes}
    (records : List Record) (hopened : Journal.start (some p) d = ⟨opened, .ok journal⟩)
    (hbefore : opened.content? p = some before) (hscalar : ∀ r ∈ records, r.event.IsScalar) :
    ∃ (c : Collector) (after : Disk) (lines : List Bytes),
      (Collector.start (some journal)).feed opened records = (c, ⟨after, .ok ()⟩) ∧
        c.events = records.map Record.event ∧
        after.content? p = some (before ++ lines.flatMap (· ++ [0x0A])) ∧
        List.Forall₂ Tells lines c.events ∧
        ∀ kind, c.count kind = lines.countP (kind? · = some kind) := by
  obtain ⟨rfl, hparent⟩ := isDirectory_of_start hopened
  have hholds := Disk.holds_of_content? hparent hbefore
  obtain ⟨after, hrecorded, hafter⟩ := Collector.recordAll_of_holds hholds [] records
  obtain ⟨l, hl⟩ := hholds
  have hfed := (Collector.feed_eq_recordAll hl [] records).trans hrecorded
  have htells : List.Forall₂ Tells (records.map Record.lineBytes) (records.map Record.event) := by
    rw [List.forall₂_map_left_iff, List.forall₂_map_right_iff, List.forall₂_same]
    exact fun r hr => tells_lineBytes (hscalar r hr)
  refine ⟨_, after, records.map Record.lineBytes, hfed, rfl, ?_, htells, countP_of_tells htells⟩
  rw [Disk.content?_of_holds hafter, bytes_eq]

/-- Behind an old line stand two more: the first event holds a line break, quotes, a separator of
lines, a control and a character beyond the first plane, the second lacks its entity. -/
theorem tells_collected_behind_old_line :
    let old : Bytes := asciiBytes "\x7b\x7d\n"
    let d : Disk := [
      (⟨.here, 0, [.ofText "logs"]⟩, .directory),
      (⟨.here, 0, [.ofText "run.jsonl", .ofText "logs"]⟩, .file old)]
    let p := Path.ofText "logs/run.jsonl"
    let records : List Record := [
      ⟨⟨Event.emptyDomain, "\"a\"\r\n\u2028\u007f😀", some "c\\d", none, some ""⟩,
        .finite false 7130316801048576 (-22)⟩,
      ⟨⟨Event.truncated, "\u0000", none, some "é", some "kept 1 of 2 variants"⟩, .nan⟩]
    Journal.start (some p) d = ⟨d, .ok ⟨some p⟩⟩ ∧ d.content? p = some old ∧
      (∀ r ∈ records, r.event.IsScalar) ∧
      ∃ (c : Collector) (after : Disk) (lines : List Bytes),
        (Collector.start (some ⟨some p⟩)).feed d records = (c, ⟨after, .ok ()⟩) ∧
          after.content? p = some (old ++ lines.flatMap (· ++ [0x0A])) ∧ lines.length = 2 ∧
          lines.countP (kind? · = some Event.truncated) = 1 := by
  intro old d p records
  have hopened : Journal.start (some p) d = ⟨d, .ok ⟨some p⟩⟩ := rfl
  have hbefore : d.content? p = some old := rfl
  have hscalar : ∀ r ∈ records, r.event.IsScalar := by
    refine List.forall_mem_cons.mpr ⟨?_, List.forall_mem_singleton.mpr ?_⟩
    · exact ⟨by decide, by decide, by decide, by decide, by decide⟩
    · exact ⟨by decide, by decide, by decide, by decide, by decide⟩
  obtain ⟨c, after, lines, hfed, hevents, hafter, htells, hcount⟩ :=
    tells_collected records hopened hbefore hscalar
  refine ⟨hopened, hbefore, hscalar, c, after, lines, hfed, hafter, ?_, ?_⟩
  · rw [htells.length_eq, hevents]
    rfl
  · rw [← hcount, Collector.count, hevents]
    decide

end Journal

end Phrasing
