/-
  Phrasing/Proofs/Saving.lean
  ===========================
  **A saved tree is loaded again.**

  Between the text of a tree and the text that is read stand the bytes of a file
  and the unification of line endings.  No written value holds a carriage return
  or a surrogate, so neither changes the text; and a file that has just been
  written is found where it was put, since only its own location has changed.
-/
import Phrasing.Proofs.Characters
import Phrasing.Proofs.Utf8
import Phrasing.Storage.Destination
import Phrasing.Storage.Document

namespace Phrasing

/-! ### Texts that a file gives back -/

/-- A character that is read from a file as it was written. -/
def CodePoint.IsKept (c : CodePoint) : Prop := c.IsScalar ∧ c ≠ '\r'

instance (c : CodePoint) : Decidable c.IsKept := inferInstanceAs (Decidable (_ ∧ _))

theorem CodePoint.IsPlain.isKept {c : CodePoint} (h : c.IsPlain) : c.IsKept := by
  constructor
  · have hhigh := h.2
    simp only [CodePoint.IsScalar, CodePoint.isSurrogate, Bool.and_eq_false_iff,
      decide_eq_false_iff_not]
    omega
  · rintro rfl
    exact absurd h.1 (by decide)

/-- Text that is read from a file as it was written. -/
def Text.IsKept (t : Text) : Prop := ∀ c ∈ t, c.IsKept

instance (t : Text) : Decidable t.IsKept := inferInstanceAs (Decidable (∀ c ∈ t, _))

namespace Text

variable {t : Text}

theorem unifyLinesFrom_of_isKept (ht : t.IsKept) (found : Text) :
    unifyLinesFrom found t = found.reverse ++ t := by
  induction t generalizing found with
  | nil => rw [unifyLinesFrom, List.append_nil]
  | cons c rest ih =>
    have hc : c ≠ '\r' := (ht c List.mem_cons_self).2
    have hrest : Text.IsKept rest := fun d hd => ht d (List.mem_cons_of_mem c hd)
    rw [unifyLinesFrom.eq_def]
    dsimp only
    rw [if_neg hc, ih hrest, List.reverse_cons, List.append_assoc, List.singleton_append]

/-- The line endings of a kept text are unified already. -/
theorem unifyLines_of_isKept (ht : t.IsKept) : t.unifyLines = t := unifyLinesFrom_of_isKept ht []

theorem isScalar_of_isKept (ht : t.IsKept) : t.IsScalar := fun c hc => (ht c hc).1

end Text

/-- What is written of a storable value is kept: it has no surrogates, and the only controls in it
are the line breaks of the layout. -/
theorem Json.isKept_render (layout : Layout) (level : Nat) (v : Json) (h : v.Storable) :
    (v.render layout level).IsKept := by
  intro c hc
  cases writes_render level v (List.Subset.refl v.strings) c hc with
  | plain hplain => exact hplain.isKept
  | lineBreak _ hbreak => exact hbreak ▸ (by decide : CodePoint.IsKept '\n')
  | inside _ hlow ht hmem =>
    refine ⟨isScalar_of_mem_strings v (legible_of_storable v h) _ ht c hmem, ?_⟩
    rintro rfl
    exact absurd hlow (by decide)

/-! ### Storable trees -/

namespace Json

mutual

theorem hasLongInteger_of_storable : ∀ v : Json, v.Storable → v.hasLongInteger = false
  | .null, _ | .bool _, _ | .str _, _ => rfl
  | .int _, h => h
  | .arr items, h => hasLongIntegerItem_of_storable items h
  | .obj fields, h => hasLongIntegerField_of_storable fields h.2

theorem hasLongIntegerItem_of_storable :
    ∀ items : List Json, StorableItems items → hasLongIntegerItem items = false
  | [], _ => rfl
  | v :: items, h => by
    rw [hasLongIntegerItem, hasLongInteger_of_storable v h.1,
      hasLongIntegerItem_of_storable items h.2]
    rfl

theorem hasLongIntegerField_of_storable :
    ∀ fields : List (Text × Json), StorableFields fields → hasLongIntegerField fields = false
  | [], _ => rfl
  | (_, v) :: fields, h => by
    rw [hasLongIntegerField, hasLongInteger_of_storable v h.2.1,
      hasLongIntegerField_of_storable fields h.2.2]
    rfl

end

theorem storableFields_insert {fields : List (Text × Json)} {key : Text} {v : Json}
    (h : StorableFields fields) (hkey : key.IsScalar) (hv : v.Storable) :
    StorableFields (Entries.insert fields key v) := by
  induction fields with
  | nil => exact ⟨hkey, hv, trivial⟩
  | cons field rest ih =>
    obtain ⟨k, w⟩ := field
    unfold Entries.insert
    split
    · exact ⟨h.1, hv, h.2.2⟩
    · exact ⟨h.1, h.2.1, ih h.2.2⟩

end Json

/-! ### Files -/

theorem Encoding.encode_utf8 {t : Text} (h : t.IsScalar) :
    Encoding.utf8.encode t = .ok (t.flatMap Utf8.encodeCodePoint) := by
  rw [Encoding.encode, Utf8.encode?, if_pos h]

theorem Encoding.decode_encode_utf8 {t : Text} (h : t.IsScalar) :
    ∃ bytes, Encoding.utf8.encode t = .ok bytes ∧ Encoding.utf8.decode bytes = .ok t := by
  have hback := Utf8.decode?_encode h
  obtain ⟨bytes, hbytes⟩ : ∃ bytes, Utf8.encode? t = some bytes := ⟨_, if_pos h⟩
  rw [hbytes, Option.bind_some] at hback
  refine ⟨bytes, ?_, ?_⟩
  · rw [Encoding.encode, hbytes]
  · rw [Encoding.decode, hback]
    rfl

namespace Disk

theorem node?_insert_self (d : Disk) {l : Location} (hl : l.names ≠ []) (node : Node) :
    node? (Entries.insert d l node) l = some node := by
  rw [node?, if_neg (by simpa using hl), Entries.get?_insert_self]

theorem node?_insert_of_ne (d : Disk) {l other : Location} (h : l ≠ other) (node : Node) :
    node? (Entries.insert d l node) other = d.node? other := by
  rw [node?, node?, Entries.get?_insert_of_ne h]

theorem names_ne_nil_of_node? {d : Disk} {l : Location} (h : d.node? l ≠ some .directory) :
    l.names ≠ [] := by
  intro hnil
  apply h
  rw [node?, hnil]
  rfl

/-- What stands at a location without a directory is on no way to it. -/
theorem resolveFrom_insert {d : Disk} {l : Location} (hl : d.node? l ≠ some .directory)
    (node : Node) {names : List Text} {start target : Location}
    (h : d.resolveFrom start names = .ok target) :
    resolveFrom (Entries.insert d l node) start names = .ok target := by
  induction names generalizing start with
  | nil => exact h
  | cons name rest ih =>
    unfold resolveFrom at h ⊢
    split at h
    · cases h
    · rename_i hname
      dsimp only at h ⊢
      rw [if_neg hname]
      split at h
      · rename_i hlast
        rw [if_pos hlast]
        exact h
      · rename_i hlast
        rw [if_neg hlast]
        cases hnext : d.node? (start.follow name) with
        | none =>
          rw [hnext] at h
          cases h
        | some found =>
          rw [hnext] at h
          cases found with
          | directory =>
            -- a directory is passed on the way, and no directory stands at `l`
            have hne : l ≠ start.follow name := fun heq => hl (heq ▸ hnext)
            rw [node?_insert_of_ne d hne, hnext]
            exact ih h
          | file content => cases h
          | table rows => cases h

theorem resolve_insert {d : Disk} {l : Location} (hl : d.node? l ≠ some .directory) (node : Node)
    {p : Path} {target : Location} (h : d.resolve p = .ok target) :
    resolve (Entries.insert d l node) p = .ok target := by
  unfold resolve at h ⊢
  split at h
  · cases h
  · split at h
    · cases h
    · rename_i hlength
      rw [if_neg hlength]
      exact resolveFrom_insert hl node h

/-- A directory is made where nothing stands. -/
theorem makeDirectory_eq_ok_iff {d made : Disk} {p : Path} :
    d.makeDirectory p = .ok made ↔
      ∃ l, d.resolve p = .ok l ∧ d.node? l = none ∧ made = Entries.insert d l .directory := by
  rw [makeDirectory]
  cases hresolve : d.resolve p with
  | error e => simp [bind, Except.bind]
  | ok l => cases hnode : d.node? l <;> simp [bind, Except.bind, hnode, eq_comm]

section Writable

variable {d : Disk} {p : Path} {l : Location}

theorem writable_eq_ok_iff :
    d.writable p = .ok l ↔ d.resolve p = .ok l ∧ d.node? l ≠ some .directory := by
  rw [writable]
  cases hresolve : d.resolve p with
  | error e =>
    constructor
    · intro h
      cases h
    · rintro ⟨h, -⟩
      cases h
  | ok found =>
    change (if d.node? found = some .directory then Except.error DiskError.isDirectory
      else .ok found) = .ok l ↔ _
    by_cases hnode : d.node? found = some .directory
    · rw [if_pos hnode]
      constructor
      · intro h
        cases h
      · rintro ⟨⟨rfl⟩, hother⟩
        exact absurd hnode hother
    · rw [if_neg hnode]
      constructor
      · rintro ⟨rfl⟩
        exact ⟨rfl, hnode⟩
      · rintro ⟨⟨rfl⟩, -⟩
        rfl

/-- A file that was put at a path may be replaced there. -/
theorem writable_insert (h : d.writable p = .ok l) (content : Bytes) :
    writable (Entries.insert d l (.file content)) p = .ok l := by
  obtain ⟨hresolve, hnode⟩ := writable_eq_ok_iff.mp h
  refine writable_eq_ok_iff.mpr ⟨resolve_insert hnode _ hresolve, ?_⟩
  rw [node?_insert_self d (names_ne_nil_of_node? hnode)]
  exact fun heq => nomatch heq

/-- What was put at a path is opened there. -/
theorem openWith_insert {α : Type} (ofFile : Bytes → α) (ofTable : List TrainingRow → α)
    (h : d.writable p = .ok l) (node : Node) :
    openWith ofFile ofTable (Entries.insert d l node) p = match node with
      | .directory => .error .isDirectory
      | .file content => .ok (ofFile content)
      | .table rows => .ok (ofTable rows) := by
  obtain ⟨hresolve, hnode⟩ := writable_eq_ok_iff.mp h
  rw [openWith, resolve_insert hnode _ hresolve]
  dsimp only [bind, Except.bind]
  rw [node?_insert_self d (names_ne_nil_of_node? hnode)]
  cases node with
  | directory | file | table => rfl

/-- A file that was put at a path is read there. -/
theorem read_insert (h : d.writable p = .ok l) (content : Bytes) :
    read (Entries.insert d l (.file content)) p = .ok (some content) :=
  openWith_insert _ _ h (.file content)

/-- A file has its content for bytes on every host. -/
theorem bytes_of_read [Host] {content : Bytes} (h : d.read p = .ok (some content)) :
    d.bytes p = .ok content := by
  unfold read openWith at h
  unfold bytes openWith
  cases hresolve : d.resolve p with
  | error e =>
    rw [hresolve] at h
    cases h
  | ok l =>
    rw [hresolve] at h
    dsimp only [bind, Except.bind] at h ⊢
    cases hnode : d.node? l with
    | none =>
      rw [hnode] at h
      cases h
    | some node =>
      rw [hnode] at h
      cases node with
      | file found =>
        cases h
        rfl
      | directory | table => cases h

theorem put_of_writable (h : d.writable p = .ok l) (node : Node) :
    d.put p node = .ok (Entries.insert d l node) := by
  rw [put, h]
  rfl

theorem put_of_not_writable {e : DiskError} (h : d.writable p = .error e) (node : Node) :
    d.put p node = .error e := by
  rw [put, h]
  rfl

end Writable

section WriteText

variable [Host] {d : Disk} {p : Path} {encodingName : Text} {t : Text} {bytes : Bytes}
  {l : Location}

theorem writeText_of_writable (hname : Encoding.nameError? encodingName = none)
    (hencode : (Codec.ofName encodingName).bind (fun e => e.encode t) = .ok bytes)
    (h : d.writable p = .ok l) :
    d.writeText p encodingName t =
      ⟨Entries.insert (Entries.insert d l (.file [])) l (.file bytes), .ok ()⟩ := by
  rw [writeText, hname, put_of_writable h, hencode]
  dsimp only
  rw [put_of_writable (writable_insert h [])]

/-- A file that was written holds the bytes of its text. -/
theorem read_writeText (h : (d.writeText p encodingName t).result = .ok ()) :
    Encoding.nameError? encodingName = none ∧
      ∃ l bytes, d.writable p = .ok l ∧
        (Codec.ofName encodingName).bind (fun e => e.encode t) = .ok bytes ∧
        (d.writeText p encodingName t).disk.read p = .ok (some bytes) := by
  cases hname : Encoding.nameError? encodingName with
  | some e =>
    rw [writeText, hname] at h
    cases h
  | none =>
    cases hwritable : d.writable p with
    | error e =>
      rw [writeText, hname, put_of_not_writable hwritable] at h
      cases h
    | ok l =>
      cases hencode : (Codec.ofName encodingName).bind (fun e => e.encode t) with
      | error e =>
        rw [writeText, hname, put_of_writable hwritable, hencode] at h
        cases h
      | ok bytes =>
        rw [writeText_of_writable hname hencode hwritable]
        exact ⟨rfl, l, bytes, rfl, rfl, read_insert (writable_insert hwritable []) bytes⟩

end WriteText

/-! ### Trees -/

/-- Whether a file may be written at the path, once the directories on the way to it are made. -/
def AcceptsFile (d : Disk) (p : Path) : Prop :=
  ∃ made l, d.ensureDirectories p.parent = (made, .ok ()) ∧ made.writable p = .ok l

section Trees

variable {tree intents : Entries Text Json}

theorem storable_withIntents (htree : (Json.obj tree).Storable)
    (hintents : (Json.obj intents).Storable) :
    (Json.obj (withIntents tree intents)).Storable :=
  ⟨Entries.wellFormed_insert htree.1 _ _,
    Json.storableFields_insert htree.2 (by decide) hintents⟩

variable [Host]

/-- What the file of a kept text gives back. -/
theorem readText_of_isKept {d : Disk} {p : Path} {t : Text} {bytes : Bytes} (ht : t.IsKept)
    (hbytes : Encoding.utf8.encode t = .ok bytes) (hread : d.read p = .ok (some bytes)) :
    d.readText p "utf-8" = .ok t := by
  have hname : Encoding.nameError? "utf-8" = none := by decide
  obtain ⟨found, hfound, hback⟩ := Encoding.decode_encode_utf8 (Text.isScalar_of_isKept ht)
  obtain rfl : found = bytes := Except.ok.inj (hfound.symm.trans hbytes)
  have hdecode : (Codec.ofName "utf-8").bind (fun codec => codec.decode found) = .ok t := hback
  rw [readText, hname]
  dsimp only
  rw [bytes_of_read hread]
  dsimp only
  rw [hdecode]
  dsimp only
  rw [Text.unifyLines_of_isKept ht]

/-- What the file of a storable value gives back. -/
theorem readDocument_of_read {d : Disk} {p : Path} {v : Json} {bytes : Bytes} (hv : v.Storable)
    (hbytes : Encoding.utf8.encode (v.write .tree) = .ok bytes)
    (hread : d.read p = .ok (some bytes)) : d.readDocument p "utf-8" = .ok v := by
  have htext := readText_of_isKept (Json.isKept_render .tree 0 v hv) hbytes hread
  have hjson : Json.read (v.write .tree) = .ok v := Json.read_render .tree 0 hv
  rw [readDocument, htext]
  change (Json.read (v.write .tree)).mapError DocumentError.json = .ok v
  rw [hjson]
  rfl

/-- A tree that was saved stands in its file, whatever the encoding. -/
theorem read_saveTree {d : Disk} {p : Path} {encodingName : Text}
    (h : (d.saveTree tree intents p encodingName).result = .ok ()) :
    ∃ bytes,
      (Codec.ofName encodingName).bind
        (fun e => e.encode ((Json.obj (withIntents tree intents)).write .tree)) = .ok bytes ∧
      (d.saveTree tree intents p encodingName).disk.read p = .ok (some bytes) := by
  rw [saveTree, afterParents] at h ⊢
  rcases hparents : d.ensureDirectories p.parent with ⟨made, e | ⟨⟩⟩
  · rw [hparents] at h
    cases h
  rw [hparents] at h
  dsimp only at h ⊢
  split at h
  · cases h
  · rename_i hlong
    rw [if_neg hlong]
    obtain ⟨-, -, bytes, -, hbytes, hread⟩ := read_writeText h
    exact ⟨bytes, hbytes, hread⟩

theorem saveTree_eq (d : Disk) (p : Path) (encodingName : Text)
    (htree : (Json.obj tree).Storable) (hintents : (Json.obj intents).Storable) :
    d.saveTree tree intents p encodingName = d.afterParents p fun made =>
      made.writeText p encodingName ((Json.obj (withIntents tree intents)).write .tree) := by
  have hlong := Json.hasLongInteger_of_storable _ (storable_withIntents htree hintents)
  rw [saveTree, hlong]
  rfl

/-- **A saved tree is loaded again.**  A storable tree with storable intents is saved to a path if
and only if a file may be written there.  Once it is saved, the path holds the tree with these
intents: in their old place if the tree had intents, else behind everything else. -/
theorem loadTree_saveTree (d : Disk) (p : Path) (htree : (Json.obj tree).Storable)
    (hintents : (Json.obj intents).Storable) :
    ((d.saveTree tree intents p "utf-8").result = .ok () ↔ d.AcceptsFile p) ∧
      ((d.saveTree tree intents p "utf-8").result = .ok () →
        (d.saveTree tree intents p "utf-8").disk.loadTree p "utf-8" =
          .ok (if tree.has Intents.treeKey then
              tree.modify Intents.treeKey fun _ => .obj intents
            else tree ++ [(Intents.treeKey, .obj intents)])) := by
  have hpayload := storable_withIntents htree hintents
  have hname : Encoding.nameError? "utf-8" = none := by decide
  have hscalar : ((Json.obj (withIntents tree intents)).write .tree).IsScalar :=
    Text.isScalar_of_isKept (Json.isKept_render .tree 0 _ hpayload)
  obtain ⟨bytes, hbytes, -⟩ := Encoding.decode_encode_utf8 hscalar
  constructor
  · rw [saveTree_eq d p "utf-8" htree hintents, afterParents]
    rcases hparents : d.ensureDirectories p.parent with ⟨made, e | ⟨⟩⟩
    · simp [AcceptsFile, hparents]
    dsimp only
    constructor
    · intro hsaved
      obtain ⟨-, l, -, hwritable, -⟩ := read_writeText hsaved
      exact ⟨made, l, hparents, hwritable⟩
    · rintro ⟨made', l, hmade, hwritable⟩
      obtain ⟨rfl, -⟩ := Prod.mk.inj (hparents.symm.trans hmade)
      rw [writeText_of_writable hname hbytes hwritable]
  · intro hsaved
    obtain ⟨found, hfound, hread⟩ := read_saveTree hsaved
    rw [loadTree, readDocument_of_read hpayload hfound hread]
    dsimp only
    rw [withIntents, Entries.insert_eq_ite htree.1]

end Trees

/-- A tree with intents between other members is saved to a directory that is not there yet. -/
theorem loadTree_saveTree_nested :
    let tree : Entries Text Json := [
      ("\"quoted\"", .arr [.null, .arr [], .obj [], .int (-120)]),
      ("intents", .obj [("old", .null)]),
      ("a\r\nb", .obj [("\u2028", .str "\\ \u0001"), ("", .bool true)])]
    let intents : Entries Text Json := [("go", .obj [("data", .arr [.arr []])])]
    let p := Path.ofText "out/tree.json"
    (Json.obj tree).Storable ∧ (Json.obj intents).Storable ∧
      (saveTree [] tree intents p "utf-8").result = .ok () ∧
      (saveTree [] tree intents p "utf-8").disk.loadTree p "utf-8" = .ok [
        ("\"quoted\"", .arr [.null, .arr [], .obj [], .int (-120)]),
        ("intents", .obj [("go", .obj [("data", .arr [.arr []])])]),
        ("a\r\nb", .obj [("\u2028", .str "\\ \u0001"), ("", .bool true)])] := by
  intro tree intents p
  have htree : (Json.obj tree).Storable := by decide +kernel
  have hintents : (Json.obj intents).Storable := by decide
  have hp : AcceptsFile [] p := ⟨_, _, rfl, rfl⟩
  obtain ⟨hsaved, hloaded⟩ := loadTree_saveTree [] p htree hintents
  exact ⟨htree, hintents, hsaved.mpr hp, hloaded (hsaved.mpr hp)⟩

end Disk

end Phrasing
