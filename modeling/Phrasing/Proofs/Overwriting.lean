/-
  Phrasing/Proofs/Overwriting.lean
  ================================
  **What a save that failed leaves behind.**

  Saving makes the directories on the way to its file, opens the file and empties
  it, and only then looks for the encoding and puts the text into bytes.  Making
  directories changes no file.  So up to the opening a failure leaves every file
  as it was, and after it the file at the destination, and no other, is empty.
-/
import Mathlib.Control.Monad.Basic
import Phrasing.Corpus.Journal
import Phrasing.Corpus.Session
import Phrasing.Proofs.Saving

namespace Phrasing.Disk

/-! ### Files -/

/-- What stands at a location apart from a directory. -/
def file? (d : Disk) (l : Location) : Option Node :=
  (d.node? l).filter fun node => node ≠ .directory

/-- Whether the same files stand on both disks, at the same locations. -/
def SameFiles (d d' : Disk) : Prop := ∀ l, d'.file? l = d.file? l

theorem SameFiles.refl (d : Disk) : d.SameFiles d := fun _ => rfl

theorem SameFiles.trans {d d' d'' : Disk} (h : d.SameFiles d') (h' : d'.SameFiles d'') :
    d.SameFiles d'' := by
  intro l
  rw [h' l, h l]

theorem file?_insert_of_ne (d : Disk) {l other : Location} (h : other ≠ l) (node : Node) :
    file? (Entries.insert d l node) other = d.file? other := by
  rw [file?, node?_insert_of_ne d (Ne.symm h), file?]

theorem file?_insert_file {d : Disk} {l : Location} (h : d.node? l ≠ some .directory)
    (content : Bytes) : file? (Entries.insert d l (.file content)) l = some (.file content) := by
  rw [file?, node?_insert_self d (names_ne_nil_of_node? h)]
  rfl

/-! ### Making directories -/

theorem sameFiles_insert_directory {d : Disk} {l : Location} (h : d.node? l = none) :
    d.SameFiles (Entries.insert d l .directory) := by
  intro other
  by_cases hsame : other = l
  · subst hsame
    have hnames : other.names ≠ [] := by
      apply names_ne_nil_of_node? (d := d)
      rw [h]
      exact fun heq => nomatch heq
    rw [file?, node?_insert_self d hnames, file?, h]
    rfl
  · exact file?_insert_of_ne d hsame .directory

theorem sameFiles_makeDirectory {d d' : Disk} {p : Path} (h : d.makeDirectory p = .ok d') :
    d.SameFiles d' := by
  obtain ⟨l, -, hnode, rfl⟩ := makeDirectory_eq_ok_iff.mp h
  exact sameFiles_insert_directory hnode

theorem sameFiles_ensureDirectory {d d' : Disk} {p : Path} (h : d.ensureDirectory p = .ok d') :
    d.SameFiles d' := by
  unfold ensureDirectory at h
  split at h
  · split at h
    · obtain rfl := Except.ok.inj h
      exact SameFiles.refl d
    · cases h
  · exact sameFiles_makeDirectory h

/-- Whether or not all directories can be made, those that are made leave the files alone. -/
theorem sameFiles_ensureFrom (base : Base) (d : Disk) (names : List Text) :
    d.SameFiles (ensureFrom base d names).1 := by
  induction names generalizing d with
  | nil =>
    unfold ensureFrom
    split
    · rename_i hmade
      exact sameFiles_ensureDirectory hmade
    · exact SameFiles.refl d
  | cons name above ih =>
    unfold ensureFrom
    split
    · rename_i hmade
      exact sameFiles_ensureDirectory hmade
    -- The directory above is missing: it is made first, and the directory itself in what that leaves.
    · have habove := ih d
      split
      · rename_i made e hfailed
        rw [hfailed] at habove
        exact habove
      · rename_i made hmade
        rw [hmade] at habove
        split
        · rename_i hlast
          exact habove.trans (sameFiles_ensureDirectory hlast)
        · exact habove
    · exact SameFiles.refl d

theorem sameFiles_ensureDirectories {d made : Disk} {p : Path} {outcome : Except DiskError Unit}
    (h : d.ensureDirectories p = (made, outcome)) : d.SameFiles made := by
  have hmade := sameFiles_ensureFrom p.base d p.names.reverse
  rw [ensureDirectories] at h
  rw [h] at hmade
  exact hmade

/-! ### Opening the file -/

/-- Whether saving comes as far as opening the file: its directories can be made, no integer is too
long to be written, and the disk takes the names of the encoding and of the file. -/
def Opens (d : Disk) (tree intents : Entries Text Json) (p : Path) (encodingName : Text) : Prop :=
  d.AcceptsFile p ∧ (Json.obj (withIntents tree intents)).hasLongInteger = false ∧
    Encoding.nameError? encodingName = none

theorem writeText_of_unencodable [Host] {d : Disk} {p : Path} {encodingName t : Text} {l : Location}
    {e : EncodingError} (hname : Encoding.nameError? encodingName = none)
    (hencode : (Codec.ofName encodingName).bind (fun e => e.encode t) = .error e)
    (h : d.writable p = .ok l) :
    d.writeText p encodingName t =
      ⟨Entries.insert d l (.file []), .error (.encoding e)⟩ := by
  rw [writeText, hname, put_of_writable h, hencode]

section Failed

variable [Host] {d : Disk} {tree intents : Entries Text Json} {p : Path} {encodingName : Text}

/-- A file that is not opened is not changed. -/
theorem sameFiles_saveTree (h : ¬ d.Opens tree intents p encodingName) :
    d.SameFiles (d.saveTree tree intents p encodingName).disk := by
  rw [saveTree, afterParents]
  rcases hparents : d.ensureDirectories p.parent with ⟨made, e | ⟨⟩⟩
  · exact sameFiles_ensureDirectories hparents
  dsimp only
  have hmade := sameFiles_ensureDirectories hparents
  split
  · exact hmade
  · rename_i hlong
    have hshort : (Json.obj (withIntents tree intents)).hasLongInteger = false :=
      eq_false_of_ne_true hlong
    rw [writeText]
    cases hname : Encoding.nameError? encodingName with
    | some e => exact hmade
    | none =>
      cases hwritable : made.writable p with
      | error e =>
        rw [put_of_not_writable hwritable]
        exact hmade
      | ok l => exact absurd ⟨⟨made, l, hparents, hwritable⟩, hshort, hname⟩ h

theorem saveTree_eq_writeText (h : d.Opens tree intents p encodingName) :
    ∃ made l, d.SameFiles made ∧ made.writable p = .ok l ∧
      d.saveTree tree intents p encodingName =
        made.writeText p encodingName ((Json.obj (withIntents tree intents)).write .tree) := by
  obtain ⟨⟨made, l, hparents, hwritable⟩, hshort, hname⟩ := h
  refine ⟨made, l, sameFiles_ensureDirectories hparents, hwritable, ?_⟩
  rw [saveTree, afterParents, hparents]
  dsimp only
  rw [hshort]
  rfl

section Encoded

variable {e : EncodingError}

/-- A file that is opened for a text without bytes is left empty. -/
theorem saveTree_of_unencodable (h : d.Opens tree intents p encodingName)
    (hencode : (Codec.ofName encodingName).bind (fun codec =>
      codec.encode ((Json.obj (withIntents tree intents)).write .tree)) = .error e) :
    ∃ made l, d.SameFiles made ∧ made.writable p = .ok l ∧
      d.saveTree tree intents p encodingName =
        ⟨Entries.insert made l (.file []), .error (.encoding e)⟩ := by
  obtain ⟨made, l, hmade, hwritable, hsave⟩ := saveTree_eq_writeText h
  refine ⟨made, l, hmade, hwritable, ?_⟩
  rw [hsave, writeText_of_unencodable h.2.2 hencode hwritable]

/-- Once the file is open, nothing but the encoding makes saving fail. -/
theorem unencodable_of_failed (h : d.Opens tree intents p encodingName) {failure : Failure}
    (hfailed : (d.saveTree tree intents p encodingName).result = .error failure) :
    ∃ e, failure = .encoding e ∧ (Codec.ofName encodingName).bind (fun codec =>
      codec.encode ((Json.obj (withIntents tree intents)).write .tree)) = .error e := by
  cases hencode : (Codec.ofName encodingName).bind (fun codec =>
      codec.encode ((Json.obj (withIntents tree intents)).write .tree)) with
  | ok bytes =>
    obtain ⟨made, l, -, hwritable, hsave⟩ := saveTree_eq_writeText h
    rw [hsave, writeText_of_writable h.2.2 hencode hwritable] at hfailed
    cases hfailed
  | error e =>
    obtain ⟨made, l, -, -, hsave⟩ := saveTree_of_unencodable h hencode
    rw [hsave] at hfailed
    exact ⟨e, (Except.error.inj hfailed).symm, rfl⟩

end Encoded

end Failed

/-- **What a save that failed leaves behind.**  If saving fails, every file stands as it stood,
unless the file at the destination was opened and was not empty before.  A file is opened in vain only
because the encoding is unknown or the text has no bytes in it; then that file is empty, and every
other one is as it was. -/
theorem files_after_failed_save [Host] (d : Disk) (tree intents : Entries Text Json) (p : Path)
    (encodingName : Text) (failure : Failure)
    (h : (d.saveTree tree intents p encodingName).result = .error failure) :
    let after := (d.saveTree tree intents p encodingName).disk
    ((∀ l, after.file? l = d.file? l) ↔ (d.Opens tree intents p encodingName →
      ∃ l, after.resolve p = .ok l ∧ d.file? l = some (.file []))) ∧
    (d.Opens tree intents p encodingName →
      (∃ e, failure = .encoding e ∧ (Codec.ofName encodingName).bind (fun codec =>
        codec.encode ((Json.obj (withIntents tree intents)).write .tree)) = .error e) ∧
      after.read p = .ok (some []) ∧
      ∃ l, after.resolve p = .ok l ∧ ∀ other, other ≠ l → after.file? other = d.file? other) := by
  intro after
  by_cases hopens : d.Opens tree intents p encodingName
  · obtain ⟨e, hfailure, hencode⟩ := unencodable_of_failed hopens h
    obtain ⟨made, l, hmade, hwritable, hsave⟩ := saveTree_of_unencodable hopens hencode
    have hafter : after = Entries.insert made l (.file []) := congrArg Written.disk hsave
    have hresolve : after.resolve p = .ok l := by
      rw [hafter]
      exact (writable_eq_ok_iff.mp (writable_insert hwritable [])).1
    have hemptied : after.file? l = some (.file []) := by
      rw [hafter]
      exact file?_insert_file (writable_eq_ok_iff.mp hwritable).2 []
    have hothers : ∀ other, other ≠ l → after.file? other = d.file? other := by
      intro other hother
      rw [hafter, file?_insert_of_ne made hother, hmade other]
    have hread : after.read p = .ok (some []) := by
      rw [hafter]
      exact read_insert hwritable []
    refine ⟨⟨?_, ?_⟩, fun _ => ⟨⟨e, hfailure, hencode⟩, hread, l, hresolve, hothers⟩⟩
    · intro hsame _
      exact ⟨l, hresolve, by rw [← hsame l, hemptied]⟩
    -- Emptying a file shows unless it was empty before.
    · intro hempty other
      obtain ⟨l', hl', hbefore⟩ := hempty hopens
      obtain rfl : l = l' := Except.ok.inj (hresolve.symm.trans hl')
      by_cases hother : other = l
      · rw [hother, hemptied, hbefore]
      · exact hothers other hother
  · refine ⟨⟨fun _ hopened => absurd hopened hopens, fun _ => sameFiles_saveTree hopens⟩, ?_⟩
    intro hopened
    exact absurd hopened hopens

/-- An unknown encoding leaves an empty file in a new directory and the file beside it as it was. -/
theorem files_after_failed_save_unknown_encoding :
    let d : Disk := [(⟨.here, 0, [.ofText "old.json"]⟩, .file [0x7B, 0x7D])]
    let p := Path.ofText "out/tree.json"
    let after := (d.saveTree [] [] p "klingon").disk
    (d.saveTree [] [] p "klingon").result = .error (.encoding .unknown) ∧
      d.Opens [] [] p "klingon" ∧ after.read p = .ok (some []) ∧
      after.file? ⟨.here, 0, [.ofText "old.json"]⟩ = some (.file [0x7B, 0x7D]) := by
  intro d p after
  have hfailed : (d.saveTree [] [] p "klingon").result = .error (.encoding .unknown) := rfl
  have hopens : d.Opens [] [] p "klingon" := ⟨⟨_, _, rfl, rfl⟩, rfl, rfl⟩
  obtain ⟨-, hread, l, hl, hothers⟩ :=
    (files_after_failed_save d [] [] p "klingon" _ hfailed).2 hopens
  have hplace : after.resolve p = .ok ⟨.here, 0, [.ofText "tree.json", .ofText "out"]⟩ := rfl
  have hold : (⟨.here, 0, [.ofText "old.json"]⟩ : Location) ≠ l := by
    rw [Except.ok.inj (hl.symm.trans hplace)]
    decide
  exact ⟨hfailed, hopens, hread, (hothers _ hold).trans rfl⟩

/-- A tree that was read in ASCII holds a letter that ASCII does not have, spelled by an escape.
Saving it over the file that it came from fails and leaves that file empty. -/
theorem failed_save_empties_source :
    let tree : Entries Text Json := [("intents", .obj [("a", .obj [("note", .str "é")])])]
    let source : Text := (Json.obj tree).write .asciiLine
    let intents : Entries Text Json := [("a", .obj [("note", .str "é"), ("data", .arr [])])]
    let p := Path.ofText "in.json"
    let d : Disk := [(⟨.here, 0, [.ofText "in.json"]⟩, .file (asciiBytes source))]
    d.loadTree p "ascii" = .ok tree ∧
      ((Session.start (Corpus.ofJson false (.obj tree)) none).perform .storedIntents).1 =
        .fields intents ∧
      (d.saveTree tree intents p "ascii").result = .error (.encoding .unencodable) ∧
      d.read p = .ok (some (asciiBytes source)) ∧ asciiBytes source ≠ [] ∧
      (d.saveTree tree intents p "ascii").disk.read p = .ok (some []) := by
  intro tree source intents p d
  have htext : d.readText p "ascii" = .ok source := by decide +kernel
  have htree : (Json.obj tree).Storable := by decide
  have hjson : Json.read source = .ok (.obj tree) := Json.read_render .asciiLine 0 htree
  have hload : d.loadTree p "ascii" = .ok tree := by
    rw [loadTree, readDocument, htext]
    dsimp only
    rw [hjson]
    rfl
  have hopens : d.Opens tree intents p "ascii" := ⟨⟨_, _, rfl, rfl⟩, rfl, rfl⟩
  have hencode : (Codec.ofName "ascii").bind (fun codec =>
      codec.encode ((Json.obj (withIntents tree intents)).write .tree)) =
        .error .unencodable := by decide +kernel
  obtain ⟨made, l, -, hwritable, hsave⟩ := saveTree_of_unencodable hopens hencode
  refine ⟨hload, rfl, by rw [hsave], rfl, by decide, ?_⟩
  rw [hsave]
  exact read_insert hwritable []

end Phrasing.Disk
