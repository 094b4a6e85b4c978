/-
  Phrasing/Proofs/Reading.lean
  ============================
  **Which documents are read or told about.**

  A document that is not there, and one that is no JSON text, are reported.  What
  cannot be opened, has no text in the encoding, or holds an integer too long to
  be read is not reported, and ends the command that reads it where it stands.
  An integer is too long only if its digits stand in the text, one behind the
  other.  Which encodings there are is up to the host; in one in which every
  content is text, nothing fails for its bytes.
-/
import Phrasing.Console.Run
import Phrasing.Proofs.Reader
import Phrasing.Proofs.Saving

namespace Phrasing

/-! ### Documents -/

namespace Disk

/-- A file of a text, in the directory where paths start. -/
def textFile (name t : Text) : Location × Node :=
  (⟨.here, 0, [.ofText name]⟩, .file (t.flatMap Utf8.encodeCodePoint))

variable [Host]

/-- Whether a path holds no file, or one that can be opened and that the codec of the name decodes,
in whose text no integer too long to be read is come to. -/
def Legible (d : Disk) (p : Path) (encodingName : Text) : Prop :=
  Encoding.nameError? encodingName = none ∧
    (d.bytes p = .error .missing ∨ ∃ bytes codec t,
      d.bytes p = .ok bytes ∧ Codec.ofName encodingName = .ok codec ∧
        codec.decode bytes = .ok t ∧
        ∀ digits, Json.read t.unifyLines ≠ .error (.longInteger digits))

/-- A file of a kept text gives the text back. -/
theorem readText_of_file {d : Disk} {p : Path} {t : Text} (ht : t.IsKept)
    (hread : d.read p = .ok (some (t.flatMap Utf8.encodeCodePoint))) :
    d.readText p "utf-8" = .ok t :=
  readText_of_isKept ht (Encoding.encode_utf8 (Text.isScalar_of_isKept ht)) hread

/-- A file in which a storable value is written gives the value back. -/
theorem readDocument_of_file {d : Disk} {p : Path} {v : Json} (hv : v.Storable)
    (hread : d.read p = .ok (some ((v.write .tree).flatMap Utf8.encodeCodePoint))) :
    d.readDocument p "utf-8" = .ok v :=
  readDocument_of_read hv (Encoding.encode_utf8
    (Text.isScalar_of_isKept (Json.isKept_render .tree 0 v hv))) hread

variable (d : Disk) (p : Path) (encodingName : Text)

theorem readText_shape : (∃ t, d.readText p encodingName = .ok t) ∨
    (∃ e, d.readText p encodingName = .error (.disk e)) ∨
    ∃ e, d.readText p encodingName = .error (.encoding e) := by
  unfold readText
  split
  · exact Or.inr (Or.inr ⟨_, rfl⟩)
  split
  · exact Or.inr (Or.inl ⟨_, rfl⟩)
  split
  · exact Or.inr (Or.inr ⟨_, rfl⟩)
  · exact Or.inl ⟨_, rfl⟩

theorem readText_eq_missing_iff : d.readText p encodingName = .error (.disk .missing) ↔
    Encoding.nameError? encodingName = none ∧ d.bytes p = .error .missing := by
  unfold readText
  cases Encoding.nameError? encodingName with
  | some e => simp
  | none =>
    cases d.bytes p with
    | error e => simp
    | ok bytes =>
      dsimp only
      -- once the file is open, nothing is wrong with the disk
      simp only [true_and, reduceCtorEq, iff_false]
      intro h
      split at h
      · cases h
      · cases h

theorem readText_eq_ok_iff {t : Text} : d.readText p encodingName = .ok t ↔
    Encoding.nameError? encodingName = none ∧ ∃ bytes codec s,
      d.bytes p = .ok bytes ∧ Codec.ofName encodingName = .ok codec ∧
        codec.decode bytes = .ok s ∧ s.unifyLines = t := by
  unfold readText
  constructor
  · intro h
    split at h
    · cases h
    split at h
    · cases h
    split at h
    · cases h
    · rename_i hname _ bytes hbytes _ s hdecoded
      obtain rfl := Except.ok.inj h
      cases hcodec : Codec.ofName encodingName with
      | error e =>
        rw [hcodec] at hdecoded
        cases hdecoded
      | ok codec =>
        rw [hcodec] at hdecoded
        exact ⟨hname, bytes, codec, s, hbytes, rfl, hdecoded, rfl⟩
  · rintro ⟨hname, bytes, codec, s, hbytes, hcodec, hdecode, rfl⟩
    rw [hname, hbytes, hcodec]
    dsimp only [Except.bind]
    rw [hdecode]

theorem legible_iff : d.Legible p encodingName ↔
    d.readText p encodingName = .error (.disk .missing) ∨ ∃ t,
      d.readText p encodingName = .ok t ∧ ∀ digits, Json.read t ≠ .error (.longInteger digits) := by
  constructor
  · rintro ⟨hname, hmissing | ⟨bytes, codec, s, hbytes, hcodec, hdecode, hshort⟩⟩
    · exact Or.inl ((d.readText_eq_missing_iff p encodingName).mpr ⟨hname, hmissing⟩)
    · refine Or.inr ⟨s.unifyLines, ?_, hshort⟩
      exact (d.readText_eq_ok_iff p encodingName).mpr
        ⟨hname, bytes, codec, s, hbytes, hcodec, hdecode, rfl⟩
  · rintro (hmissing | ⟨t, htext, hshort⟩)
    · obtain ⟨hname, hbytes⟩ := (d.readText_eq_missing_iff p encodingName).mp hmissing
      exact ⟨hname, Or.inl hbytes⟩
    · obtain ⟨hname, bytes, codec, s, hbytes, hcodec, hdecode, rfl⟩ :=
        (d.readText_eq_ok_iff p encodingName).mp htext
      exact ⟨hname, Or.inr ⟨bytes, codec, s, hbytes, hcodec, hdecode, hshort⟩⟩

/-- What comes of a document, and when. -/
theorem readDocument_cases :
    (d.Legible p encodingName ∧
      ((∃ v, d.readDocument p encodingName = .ok v) ∨
        d.readDocument p encodingName = .error (.disk .missing) ∨
        ∃ what place, d.readDocument p encodingName = .error (.json (.malformed what place)))) ∨
    (¬ d.Legible p encodingName ∧
      ((∃ e, e ≠ .missing ∧ d.readDocument p encodingName = .error (.disk e)) ∨
        (∃ e, d.readDocument p encodingName = .error (.encoding e)) ∨
        ∃ digits, d.readDocument p encodingName = .error (.json (.longInteger digits)))) := by
  rw [legible_iff, readDocument]
  rcases d.readText_shape p encodingName with ⟨t, htext⟩ | ⟨e, he⟩ | ⟨e, he⟩
  · rw [htext]
    dsimp only
    cases hjson : Json.read t with
    | ok v =>
      refine Or.inl ⟨Or.inr ⟨t, rfl, fun digits h => ?_⟩, Or.inl ⟨v, rfl⟩⟩
      rw [hjson] at h
      cases h
    | error e =>
      cases e with
      | malformed what place =>
        refine Or.inl ⟨Or.inr ⟨t, rfl, fun digits h => ?_⟩, Or.inr (Or.inr ⟨what, place, rfl⟩)⟩
        rw [hjson] at h
        cases h
      | longInteger digits =>
        refine Or.inr ⟨?_, Or.inr (Or.inr ⟨digits, rfl⟩)⟩
        rintro (h | ⟨s, hs, hshort⟩)
        · cases h
        · obtain rfl := Except.ok.inj hs
          exact hshort digits hjson
  · rw [he]
    by_cases hmissing : e = .missing
    · subst hmissing
      exact Or.inl ⟨Or.inl rfl, Or.inr (Or.inl rfl)⟩
    · refine Or.inr ⟨?_, Or.inl ⟨e, hmissing, rfl⟩⟩
      rintro (h | ⟨t, ht, -⟩)
      · cases h
        exact hmissing rfl
      · cases ht
  · rw [he]
    refine Or.inr ⟨?_, Or.inr (Or.inl ⟨e, rfl⟩)⟩
    rintro (h | ⟨t, ht, -⟩)
    · cases h
    · cases ht

theorem wellFormed_of_readDocument {d : Disk} {p : Path} {encodingName : Text} {v : Json}
    (h : d.readDocument p encodingName = .ok v) : v.WellFormed := by
  unfold readDocument at h
  split at h
  · cases h
  · rename_i t _
    cases hjson : Json.read t with
    | error e =>
      rw [hjson] at h
      cases h
    | ok w =>
      rw [hjson] at h
      cases h
      exact Json.wellFormed_of_read hjson

/-- What comes of an input file, and when. -/
theorem loadTree_cases :
    (d.Legible p encodingName ∧ ((∃ tree, d.loadTree p encodingName = .ok tree) ∨
      ∃ problem, d.loadTree p encodingName = .error (.input p problem))) ∨
    (¬ d.Legible p encodingName ∧
      ∃ failure, d.loadTree p encodingName = .error failure ∧ failure.report? = none) := by
  unfold loadTree
  rcases d.readDocument_cases p encodingName with
    ⟨hlegible, ⟨v, hv⟩ | hmissing | ⟨what, place, hmalformed⟩⟩ |
    ⟨hillegible, ⟨e, hother, he⟩ | ⟨e, he⟩ | ⟨digits, hlong⟩⟩
  · rw [hv]
    refine Or.inl ⟨hlegible, ?_⟩
    cases v with
    | obj fields => exact Or.inl ⟨fields, rfl⟩
    | null | bool | int | float | str | arr => exact Or.inr ⟨.notObject, rfl⟩
  · rw [hmissing]
    exact Or.inl ⟨hlegible, Or.inr ⟨.missing, rfl⟩⟩
  · rw [hmalformed]
    exact Or.inl ⟨hlegible, Or.inr ⟨.malformed what place, rfl⟩⟩
  · rw [he]
    refine Or.inr ⟨hillegible, .disk e, ?_, rfl⟩
    cases e with
    | missing => exact absurd rfl hother
    | _ => rfl
  · rw [he]
    exact Or.inr ⟨hillegible, .encoding e, rfl, rfl⟩
  · rw [hlong]
    exact Or.inr ⟨hillegible, .longInteger (some digits), rfl, rfl⟩

end Disk

theorem Disk.loadTree_eq_ok_iff [Host] {d : Disk} {p : Path} {encodingName : Text}
    {tree : Entries Text Json} :
    d.loadTree p encodingName = .ok tree ↔ d.readDocument p encodingName = .ok (.obj tree) := by
  unfold loadTree
  constructor
  · intro h
    split at h
    · rename_i fields hread
      obtain rfl := Except.ok.inj h
      exact hread
    all_goals cases h
  · intro h
    rw [h]

/-- The problem of settings that a problem with an input file is. -/
def InputProblem.ofSettings : InputProblem → SettingsProblem
  | missing => .missing
  | malformed what place => .malformed what place
  | notObject => .notObject

/-- A settings file is read as an input file is, and told about in words of its own. -/
theorem Settings.readRoot_eq [Host] (d : Disk) (p : Path) :
    readRoot d p = match d.loadTree p defaultEncoding with
      | .ok root => .ok root
      | .error (.input _ problem) => .error (.settings p problem.ofSettings)
      | .error failure => .error failure := by
  unfold readRoot Disk.loadTree
  cases d.readDocument p defaultEncoding with
  | ok v =>
    cases v with
    | _ => rfl
  | error e =>
    cases e with
    | disk e =>
      cases e with
      | _ => rfl
    | encoding e => rfl
    | json e =>
      cases e with
      | _ => rfl

theorem Settings.readRoot_eq_ok_iff [Host] {d : Disk} {p : Path} {root : Entries Text Json} :
    readRoot d p = .ok root ↔ d.readDocument p defaultEncoding = .ok (.obj root) := by
  rw [← Disk.loadTree_eq_ok_iff, readRoot_eq]
  constructor
  · intro h
    split at h
    · rename_i found hread
      obtain rfl := Except.ok.inj h
      exact hread
    all_goals cases h
  · intro h
    rw [h]

theorem Settings.loadDocument_of_readDocument [Host] {d : Disk} {p : Path}
    {root : Entries Text Json} (h : d.readDocument p defaultEncoding = .ok (.obj root))
    (profile : Option Text) (overrides : Overrides) :
    loadDocument d p profile overrides = documentOf p profile overrides root := by
  rw [loadDocument, readRoot_eq_ok_iff.mpr h]
  rfl

theorem Settings.loadDocument_eq_ok_iff [Host] {d : Disk} {p : Path} {profile : Option Text}
    {overrides : Overrides} {document : SettingsDocument} :
    loadDocument d p profile overrides = .ok document ↔
      ∃ root, d.readDocument p defaultEncoding = .ok (.obj root) ∧
        documentOf p profile overrides root = .ok document := by
  constructor
  · intro h
    rw [loadDocument] at h
    cases hroot : readRoot d p with
    | error e =>
      rw [hroot] at h
      cases h
    | ok root =>
      rw [hroot] at h
      exact ⟨root, readRoot_eq_ok_iff.mp hroot, h⟩
  · rintro ⟨root, hroot, h⟩
    rw [loadDocument_of_readDocument hroot, h]

/-- A file of more digits in a row than may be read fails for them. -/
theorem Disk.loadTree_digitRow [Host] {d : Disk} {p : Path} {digit : Nat} {tail : List Nat}
    (hdigits : ∀ e ∈ digit :: tail, e < 10) (hdigit : digit ≠ 0)
    (hlong : digitLimit < (digit :: tail).length)
    (hread : d.read p = .ok (some
      (((digit :: tail).map digitCodePoint).flatMap Utf8.encodeCodePoint))) :
    d.loadTree p "utf-8" = .error (.longInteger (some (digit :: tail).length)) := by
  have hkept : Text.IsKept ((digit :: tail).map digitCodePoint) :=
    fun c hc => (Text.isPlain_digits hdigits c hc).isKept
  rw [loadTree, readDocument, readText_of_file hkept hread]
  dsimp only
  rw [Json.read_digitRow hdigits hdigit hlong]
  rfl

/-! ### Outcomes that are told -/

/-- Whether an outcome is a result or a failure that is reported under the code. -/
def Told {α : Type} (code : ErrorCode) (outcome : Except Failure α) : Prop :=
  ∀ failure, outcome = .error failure →
    ∃ report, failure.report? = some report ∧ report.code = code

namespace Told

variable {α : Type} {code : ErrorCode} {failure : Failure}

theorem of_ok (a : α) : Told code (.ok a) := by
  intro failure h
  cases h

theorem of_report {report : Report} (h : failure.report? = some report)
    (hcode : report.code = code) : Told code (.error failure : Except Failure α) := by
  rintro _ ⟨⟩
  exact ⟨report, h, hcode⟩

theorem not_of_unreported (h : failure.report? = none) :
    ¬ Told code (.error failure : Except Failure α) := by
  intro htold
  obtain ⟨report, hreport, -⟩ := htold failure rfl
  rw [h] at hreport
  cases hreport

end Told

theorem Disk.told_loadTree_iff [Host] (d : Disk) (p : Path) (encodingName : Text) :
    Told .io (d.loadTree p encodingName) ↔ d.Legible p encodingName := by
  rcases d.loadTree_cases p encodingName with
    ⟨hlegible, ⟨tree, htree⟩ | ⟨problem, hproblem⟩⟩ | ⟨hillegible, failure, hfailure, hreport⟩
  · rw [htree]
    exact ⟨fun _ => hlegible, fun _ => .of_ok tree⟩
  · rw [hproblem]
    exact ⟨fun _ => hlegible, fun _ => .of_report rfl rfl⟩
  · rw [hfailure]
    constructor
    · exact fun h => absurd h (Told.not_of_unreported hreport)
    · exact fun h => absurd h hillegible

theorem Encoding.decode_latin1 (bytes : Bytes) : ∃ t, Encoding.latin1.decode bytes = .ok t := by
  have hdecode : ∃ t, SingleByte.decode? (SingleByte.direct 0x100) bytes = some t := by
    induction bytes with
    | nil => exact ⟨[], rfl⟩
    | cons b rest ih =>
      obtain ⟨t, ht⟩ := ih
      have hb : b.toNat < 0x100 := b.toNat_lt
      have hpoint : SingleByte.direct 0x100 b = some ⟨b.toNat, by omega⟩ := by
        rw [SingleByte.direct, if_pos hb, CodePoint.ofNat?, dif_pos]
      refine ⟨⟨b.toNat, by omega⟩ :: t, ?_⟩
      rw [SingleByte.decode?, List.mapM_cons, hpoint]
      change (SingleByte.decode? (SingleByte.direct 0x100) rest).bind _ = _
      rw [ht]
      rfl
  obtain ⟨t, ht⟩ := hdecode
  refine ⟨t, ?_⟩
  rw [Encoding.decode, ht]
  rfl

/-- In Latin-1 every content is text, be it a table's.  So an input is told about unless its path
cannot be opened or an integer in it is too long. -/
theorem Disk.told_loadTree_latin1 [Host] (d : Disk) (p : Path) :
    Told .io (d.loadTree p "latin-1") ↔
      (∀ e, d.bytes p = .error e → e = .missing) ∧
        ∀ digits, d.loadTree p "latin-1" ≠ .error (.longInteger (some digits)) := by
  have hname : Encoding.nameError? "latin-1" = none := by decide
  have hcodec : Codec.ofName "latin-1" = .ok Encoding.latin1.codec := rfl
  constructor
  · intro htold
    obtain ⟨-, hread⟩ := (d.told_loadTree_iff p _).mp htold
    refine ⟨fun e he => ?_, fun digits hlong => ?_⟩
    · rw [he] at hread
      rcases hread with ⟨⟨⟩⟩ | ⟨bytes, _, _, hbytes, -⟩
      · rfl
      · cases hbytes
    · rw [hlong] at htold
      exact Told.not_of_unreported rfl htold
  · rintro ⟨hopened, hshort⟩
    rw [told_loadTree_iff, legible_iff]
    cases hbytes : d.bytes p with
    | error e =>
      obtain rfl := hopened e hbytes
      exact Or.inl ((d.readText_eq_missing_iff p _).mpr ⟨hname, hbytes⟩)
    | ok bytes =>
      obtain ⟨s, hs⟩ := Encoding.decode_latin1 bytes
      have htext : d.readText p "latin-1" = .ok s.unifyLines :=
        (d.readText_eq_ok_iff p _).mpr ⟨hname, bytes, _, s, hbytes, hcodec, hs, rfl⟩
      refine Or.inr ⟨s.unifyLines, htext, fun digits hjson => hshort digits ?_⟩
      rw [loadTree, readDocument, htext]
      dsimp only
      rw [hjson]
      rfl

/-- A file that fails for a long integer holds its digits. -/
theorem Disk.hasDigits_of_loadTree [Host] {d : Disk} {p : Path} {encodingName : Text} {digits : Nat}
    (h : d.loadTree p encodingName = .error (.longInteger (some digits))) :
    digitLimit < digits ∧
      ∃ t, d.readText p encodingName = .ok t ∧ Json.HasDigits t digits := by
  unfold loadTree readDocument at h
  rcases d.readText_shape p encodingName with ⟨t, htext⟩ | ⟨e, he⟩ | ⟨e, he⟩
  · rw [htext] at h ⊢
    dsimp only at h
    cases hjson : Json.read t with
    | ok v =>
      rw [hjson] at h
      cases v with
      | _ => cases h
    | error e =>
      rw [hjson] at h
      cases e with
      | malformed what place => cases h
      | longInteger found =>
        cases h
        obtain ⟨hlong, hdigits⟩ := Json.hasDigits_of_read hjson
        exact ⟨hlong, t, rfl, hdigits⟩
  · rw [he] at h
    cases e with
    | _ => cases h
  · rw [he] at h
    cases h

/-! ### Commands -/

theorem InputProblem.text_report (source : Path) (problem : InputProblem) :
    Report.text ⟨.io, problem.describe source, []⟩ = "[IO_ERROR] " ++ problem.describe source := by
  cases problem with
  | missing | notObject | malformed => rfl

namespace Console

theorem Command.exit_of_unread [Host] {c : Command} {d : Disk} {settings : Settings}
    {failure : Failure} (hsettings : c.settings d = .ok settings)
    (h : d.loadTree c.inputFile settings.global.encoding = .error failure) :
    (c.run d).exit = .ofFailure failure := by
  have hload : c.load d = .error failure := by
    rw [Command.load, hsettings]
    change (d.loadTree c.inputFile settings.global.encoding >>= fun tree =>
      pure (settings, tree)) = .error failure
    rw [h]
    rfl
  rw [Command.run, hload]
  rfl

end Console

/-- **Which input files are read or told about.**  Reading an input file yields an object or a
reported failure exactly if the path is legible.  If it is not because an integer is too long, then
more digits stand in the text in a row than may be read.  A command whose settings are sound ends
with the text of the report if its input is legible and no object; if it is not legible, the command
ends where it stands.  Values may be nested to any depth here.  A bound on the stack of the reader is
left out: where there is one, a text with too many open brackets, a thousand say, is not told about
either. -/
theorem told_loadTree [Host] (d : Disk) (p : Path) (encodingName : Text) :
    (Told .io (d.loadTree p encodingName) ↔ d.Legible p encodingName) ∧
    (∀ digits, d.loadTree p encodingName = .error (.longInteger (some digits)) →
      digitLimit < digits ∧ ∃ t, d.readText p encodingName = .ok t ∧ Json.HasDigits t digits) ∧
    ∀ (c : Console.Command) (settings : Settings) (failure : Failure),
      c.settings d = .ok settings → c.inputFile = p → settings.global.encoding = encodingName →
      d.loadTree p encodingName = .error failure →
      (d.Legible p encodingName → ∃ problem : InputProblem,
        (c.run d).exit = .reported ("[IO_ERROR] " ++ problem.describe p)) ∧
      (¬ d.Legible p encodingName →
        failure.report? = none ∧ (c.run d).exit = .failed failure) := by
  refine ⟨d.told_loadTree_iff p encodingName, fun digits h => Disk.hasDigits_of_loadTree h, ?_⟩
  rintro c settings failure hsettings rfl rfl hfailed
  rw [Console.Command.exit_of_unread hsettings hfailed]
  rcases d.loadTree_cases c.inputFile settings.global.encoding with
    ⟨hlegible, ⟨tree, htree⟩ | ⟨problem, hproblem⟩⟩ | ⟨hillegible, found, hfound, hreport⟩
  · rw [htree] at hfailed
    cases hfailed
  · rw [hproblem] at hfailed
    cases hfailed
    refine ⟨fun _ => ⟨problem, ?_⟩, fun hillegible => absurd hlegible hillegible⟩
    exact congrArg Console.Exit.reported (problem.text_report c.inputFile)
  · rw [hfound] at hfailed
    cases hfailed
    refine ⟨fun hlegible => absurd hlegible hillegible, fun _ => ⟨hreport, ?_⟩⟩
    rw [Console.Exit.ofFailure, hreport]

/-- Of two input files one breaks off behind a bracket and one is a row of too many digits. -/
theorem told_loadTree_broken_off_and_long :
    let settings : Entries Text Json := [
      ("version", .int 1), ("global", .obj []),
      ("profiles", .obj [("default", .obj [
        ("description", .str "d"), ("use_synonyms_in_entity_value_provider", .bool false)])])]
    let d : Disk := [Disk.textFile "c.json" ((Json.obj settings).write .tree),
      Disk.textFile "broken.json" "[",
      Disk.textFile "long.json" ((1 :: List.replicate 4300 0).map digitCodePoint)]
    let stats (input : Text) : Console.Command :=
      ⟨.stats, [some input], [(Console.configOption.name, some "c.json")]⟩
    (∃ problem : InputProblem, ((stats "broken.json").run d).exit =
        .reported ("[IO_ERROR] " ++ problem.describe (.ofText "broken.json"))) ∧
      ¬ d.Legible (.ofText "long.json") "utf-8" ∧
      ((stats "long.json").run d).exit = .failed (.longInteger (some 4301)) := by
  intro settings d stats
  have hroot : d.readDocument (.ofText "c.json") "utf-8" = .ok (.obj settings) :=
    Disk.readDocument_of_file (by decide +kernel) rfl
  have hsettings : ∀ input, (stats input).settings d =
      .ok ⟨⟨"utf-8", .tree⟩, ⟨"d", false, none⟩⟩ := by
    intro input
    change Settings.load d (.ofText "c.json") (some "default") ⟨[], []⟩ = _
    rw [Settings.load, Settings.loadDocument_of_readDocument hroot]
    rfl
  have hbroken : d.loadTree (.ofText "broken.json") "utf-8" =
      .error (.input (.ofText "broken.json") (.malformed .expectingValue ⟨1, 2, 1⟩)) := by
    have htext : d.readText (.ofText "broken.json") "utf-8" = .ok "[" :=
      Disk.readText_of_file (by decide) rfl
    rw [Disk.loadTree, Disk.readDocument, htext]
    rfl
  have hlong : d.loadTree (.ofText "long.json") "utf-8" = .error (.longInteger (some 4301)) := by
    have hdigits : ∀ e ∈ 1 :: List.replicate 4300 0, e < 10 := by
      rw [List.forall_mem_cons]
      refine ⟨by decide, fun e he => ?_⟩
      rw [List.eq_of_mem_replicate he]
      decide
    have hmany : (1 :: List.replicate 4300 0).length = 4301 := by
      rw [List.length_cons, List.length_replicate]
    have hfailed := Disk.loadTree_digitRow (d := d) (p := .ofText "long.json") hdigits
      (by decide) (by rw [hmany]; decide) rfl
    rw [hmany] at hfailed
    exact hfailed
  obtain ⟨hlegible, -, hends⟩ := told_loadTree d (.ofText "broken.json") "utf-8"
  obtain ⟨hillegible, -, hstands⟩ := told_loadTree d (.ofText "long.json") "utf-8"
  rw [hbroken] at hlegible
  rw [hlong] at hillegible
  have hillegible := mt hillegible.mpr (Told.not_of_unreported rfl)
  have hbroken := hends (stats "broken.json") _ _ (hsettings _) rfl rfl hbroken
  have hlong := hstands (stats "long.json") _ _ (hsettings _) rfl rfl hlong
  exact ⟨hbroken.1 (hlegible.mp (.of_report rfl rfl)), hillegible, (hlong.2 hillegible).2⟩

/-- A host has a further encoding, in which eight bytes mean what they do not mean in Latin-1. -/
example :
    let changed : List (UInt8 × CodePoint) := [(0xA4, '€'), (0xA6, 'Š'), (0xA8, 'š'), (0xB4, 'Ž'),
      (0xB8, 'ž'), (0xBC, 'Œ'), (0xBD, 'œ'), (0xBE, 'Ÿ')]
    let meaning (b : UInt8) := (changed.lookup b).or (SingleByte.direct 0x100 b)
    let byte (c : CodePoint) :=
      ((List.range 0x100).map Nat.toUInt8).find? fun b => meaning b = some c
    let latin9 : Codec := {
      decode := fun bytes => Encoding.decoded (SingleByte.decode? meaning bytes)
      encode := fun t => (SingleByte.encode? byte t).elim (.error .unencodable) .ok }
    let host : Host := { programHost with
      codec? := fun name => if name = "iso-8859-15" then some latin9 else none }
    let d : Disk := [(⟨.here, 0, [.ofText "in.json"]⟩,
      .file (asciiBytes "\x7b\"" ++ [0xA4] ++ asciiBytes "\":0\x7d"))]
    @Disk.loadTree host d (.ofText "in.json") "iso-8859-15" = .ok [("€", .int 0)] :=
  rfl

/-- A file of one byte that is no text is not told about. -/
theorem loadTree_undecodable_untold :
    let d : Disk := [(⟨.here, 0, [.ofText "in.json"]⟩, .file [0xFF])]
    d.loadTree (.ofText "in.json") "utf-8" = .error (.encoding .undecodable) ∧
      ¬ Told .io (d.loadTree (.ofText "in.json") "utf-8") :=
  ⟨rfl, Told.not_of_unreported rfl⟩

end Phrasing
