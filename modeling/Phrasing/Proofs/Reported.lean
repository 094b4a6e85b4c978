/-
  Phrasing/Proofs/Reported.lean
  =============================
  **A reported failure leaves the disk alone.**

  Failures that are reported come from settings, from the input file and from
  looking something up, and all of these come before the first directory is made.
  Whatever writes to the disk, and whatever comes after that, fails in other ways:
  every stage has a lemma that says so.  The commands that only list write nothing
  at all.
-/
import Phrasing.Console.Run
import Phrasing.Proofs.Counts

namespace Phrasing

/-! ### Failures that are not reported -/

/-- Whether what was done to the disk either succeeded or failed in a way that is not reported. -/
def Written.Unreported {α : Type} (w : Written α) : Prop :=
  ∀ failure, w.result = .error failure → failure.report? = none

namespace Written

variable {α : Type}

theorem unreported_ok (d : Disk) (a : α) : Unreported ⟨d, .ok a⟩ := by
  intro failure h
  cases h

theorem unreported_error (d : Disk) {failure : Failure} (h : failure.report? = none) :
    Unreported (⟨d, .error failure⟩ : Written α) := by
  rintro _ ⟨⟩
  exact h

end Written

namespace Disk

open Written

theorem unreported_afterParents {α : Type} {next : Disk → Written α}
    (h : ∀ d, (next d).Unreported) (d : Disk) (p : Path) : (d.afterParents p next).Unreported := by
  unfold afterParents
  split
  · exact unreported_error _ rfl
  · exact h _

theorem unreported_writeText [Host] (d : Disk) (p : Path) (encodingName t : Text) :
    (d.writeText p encodingName t).Unreported := by
  unfold writeText
  split
  · exact unreported_error _ rfl
  · split
    · exact unreported_error _ rfl
    · split
      · exact unreported_error _ rfl
      · split
        · exact unreported_error _ rfl
        · exact unreported_ok _ _

theorem unreported_saveTree [Host] (d : Disk) (tree intents : Entries Text Json) (p : Path)
    (encodingName : Text) : (d.saveTree tree intents p encodingName).Unreported := by
  apply unreported_afterParents
  intro made
  split
  · exact unreported_error _ rfl
  · exact unreported_writeText made p encodingName _

theorem unreported_saveTable [Host] (d : Disk) (rows : List TrainingRow) (p : Path) :
    (d.saveTable rows p).Unreported := by
  unfold saveTable
  split
  · apply unreported_afterParents
    intro made
    split
    · exact unreported_error _ rfl
    · exact unreported_ok _ _
  · exact unreported_error _ rfl

end Disk

open Written in
theorem Journal.unreported_start (path : Option Path) (d : Disk) :
    (Journal.start path d).Unreported := by
  cases path with
  | none => exact unreported_ok d _
  | some p => exact Disk.unreported_afterParents (fun made => unreported_ok made _) d p

open Written in
theorem Journal.unreported_writeAll [Host] (j : Journal) (d : Disk) (records : List Record) :
    (j.writeAll d records).Unreported := by
  unfold Journal.writeAll
  split
  · exact unreported_ok _ _
  · split
    · exact unreported_ok _ _
    · split
      · exact unreported_ok _ _
      · exact unreported_error _ rfl

theorem Collector.unreported_collectAll [Host] (c : Collector) (d : Disk) (events : List Event) :
    (c.collectAll d events).2.Unreported := by
  unfold Collector.collectAll Collector.recordAll
  cases c.journal with
  | none => exact Written.unreported_ok d _
  | some j => exact j.unreported_writeAll d _

namespace Console

theorem exit_fail_of_unreported {failure : Failure} (h : failure.report? = none) (d : Disk)
    (printed text : Text) : (Result.fail d printed failure).exit ≠ .reported text := by
  intro hexit
  simp only [Result.fail, Exit.ofFailure, h] at hexit
  cases hexit

namespace Command

/-! ### Commands that write -/

theorem unreported_writeExpanded [Host] (settings : Settings) (tree : Entries Text Json)
    (intents : Intents) (output : Path) (d : Disk) :
    (writeExpanded settings tree intents output d).Unreported := by
  unfold writeExpanded
  cases settings.global.format with
  | table =>
    have hsave := d.unreported_saveTable intents.rows output
    dsimp only
    split
    · rename_i after failure hfailed
      rw [hfailed] at hsave
      exact Written.unreported_error after (hsave failure rfl)
    · exact Written.unreported_ok _ _
  | tree =>
    have hsave := d.unreported_saveTree tree intents.toFields output settings.global.encoding
    dsimp only
    split
    · rename_i after failure hfailed
      rw [hfailed] at hsave
      exact Written.unreported_error after (hsave failure rfl)
    · exact Written.unreported_ok _ _

theorem unreported_openSession {settings : Settings} {tree : Entries Text Json}
    {failure : Failure} (h : openSession settings tree = .error failure) :
    failure.report? = none := by
  unfold openSession at h
  split at h
  · cases h
  · obtain rfl := Except.error.inj h
    rfl

/-- Once settings and input are there, expanding a corpus fails in no way that is reported. -/
theorem exit_expandTree [Host] (c : Command) (settings : Settings) (tree : Entries Text Json)
    (d : Disk) (text : Text) : (c.expandTree settings tree d).exit ≠ .reported text := by
  have hstart := Journal.unreported_start c.journalFile? d
  unfold expandTree
  split
  · rename_i made failure hfailed
    rw [hfailed] at hstart
    exact exit_fail_of_unreported (hstart failure rfl) made [] text
  · rename_i made journal hstarted
    cases hsession : openSession settings tree with
    | error failure =>
      exact exit_fail_of_unreported (unreported_openSession hsession) made [] text
    | ok session =>
      dsimp only
      cases c.output? with
      | none => exact exit_fail_of_unreported rfl made _ text
      | some output =>
        have hcollect := (Collector.start (some journal)).unreported_collectAll made
          (session.corpus.expand session.cap).events
        dsimp only
        split
        · rename_i collector after failure hfailed
          rw [hfailed] at hcollect
          exact exit_fail_of_unreported (hcollect failure rfl) after _ text
        · rename_i collector after hcollected
          cases (session.corpus.expand session.cap).result with
          | error e => exact exit_fail_of_unreported rfl after _ text
          | ok intents =>
            have hwrite := unreported_writeExpanded settings tree intents output after
            dsimp only
            split
            · rename_i last failure hfailed
              rw [hfailed] at hwrite
              exact exit_fail_of_unreported (hwrite failure rfl) last _ text
            · exact fun h => nomatch h

/-! ### Commands that list -/

theorem disk_printCounts (cap : Option Int) (session : Session) (d : Disk) (printed : Text)
    (intents : Intents) : (printCounts cap session d printed intents).disk = d := by
  induction intents generalizing printed with
  | nil => rfl
  | cons e rest ih =>
    obtain ⟨name, intent⟩ := e
    rw [printCounts_cons]
    dsimp only
    split
    · rfl
    · exact ih _

theorem disk_run_of_lists [Host] {c : Command} (h : c.action ≠ .augment) (d : Disk) :
    (c.run d).disk = d := by
  unfold run
  split
  · rfl
  · split
    · rename_i haugment
      exact absurd haugment h
    · split
      · rfl
      · split
        · exact disk_printCounts _ _ d _ _
        · split
          · rfl
          · rfl
        · split
          · rfl
          · rfl

end Command

/-- **A reported failure leaves the disk alone.**  If a command line ends with a failure that is
reported, whatever command it names and whatever went wrong, then the disk is as it was. -/
theorem disk_of_reported [Host] (arguments : List Text) (d : Disk) (text : Text)
    (h : (run arguments d).exit = .reported text) : (run arguments d).disk = d := by
  unfold run at h ⊢
  cases hinvocation : readArguments arguments with
  | help lines => rfl
  | usage program helpLines error => rfl
  | command c =>
    rw [hinvocation] at h
    dsimp only at h ⊢
    -- What a command reads it reads first, and only one command goes on to write.
    by_cases haction : c.action = .augment
    · cases hload : c.load d with
      | error failure => simp only [Command.run, hload, Result.fail]
      | ok loaded =>
        obtain ⟨settings, tree⟩ := loaded
        simp only [Command.run, hload, haction] at h
        exact absurd h (c.exit_expandTree settings tree d text)
    · exact Command.disk_run_of_lists haction d

instance (e : Exit) (text : Text) : Decidable (e = .reported text) :=
  match e with
  | .success => isFalse Exit.noConfusion
  | .usage => isFalse Exit.noConfusion
  | .reported t => decidable_of_iff (t = text) (Exit.reported.injEq t text).symm.to_iff
  | .failed _ => isFalse Exit.noConfusion

/-- The file to expand holds a list.  Neither directory is made. -/
theorem disk_of_reported_list :
    let config : Json := .obj [
      (Settings.versionKey, .int 1),
      (Settings.globalKey, .obj []),
      (Settings.profilesKey, .obj [("default", Settings.shippedProfile "d" false .null)])]
    let d : Disk := [
      (⟨.here, 0, [.ofText "c.json"]⟩, .file (asciiBytes (config.write .line))),
      (⟨.here, 0, [.ofText "in.json"]⟩, .file (asciiBytes "[]"))]
    let arguments : List Text := ["augment", "in.json", "--config", "c.json", "--output",
      "out/in.json", "--diagnostics-log", "log/in.jsonl"]
    let text : Text := "[IO_ERROR] Input file 'in.json' must contain a JSON object"
    (run arguments d).exit = .reported text ∧ (run arguments d).disk = d := by
  intro config d arguments text
  have hreported : (run arguments d).exit = .reported text := by decide +kernel
  exact ⟨hreported, disk_of_reported arguments d text hreported⟩

end Console

end Phrasing
