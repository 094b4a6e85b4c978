/-
  Phrasing/Proofs/Counts.lean
  ===========================
  **What is counted is what is written.**

  One command counts the variants of each intent without making them; another
  makes them and writes them to a file.  Both read the same settings and the same
  tree, so both start from one session.  A sentence that is expanded yields as
  many variants as were counted for it, and from there the numbers agree for an
  intent, for the whole corpus and for the rows of a table.
-/
import Mathlib.Algebra.BigOperators.Ring.Finset
import Phrasing.Console.Run
import Phrasing.Proofs.Losses
import Phrasing.Proofs.Rows
import Phrasing.Proofs.Saving

namespace Phrasing

/-! ### Counts of intents -/

/-- What is told about an intent: its sentences, and the variants that they have under a cap. -/
structure IntentCount where
  name : Text
  sentences : Nat
  variants : Nat

namespace IntentCount

def line (c : IntentCount) : Text :=
  Console.line ("[stats] " ++ c.name ++ " sentences=" ++ Text.ofNat c.sentences ++ " variants="
    ++ Text.ofNat c.variants)

end IntentCount

def Intent.count (table : SynonymTable) (cap : Option Cap) (name : Text) (intent : Intent) :
    IntentCount where
  name
  sentences := intent.sentences.length
  variants := (intent.sentences.map fun s => Cap.kept cap (s.countVariants table)).sum

def Session.intentCounts (session : Session) : List IntentCount :=
  session.corpus.intents.map fun e => e.2.count session.corpus.synonyms session.cap e.1

/-! ### Counting without an expansion -/

theorem Text.ofInt_natCast (n : Nat) : Text.ofInt n = Text.ofNat n := by
  rw [Text.ofInt, if_neg (by omega), Int.natAbs_natCast]

/-- How many variants are counted under a bound. -/
def countedUnder (maxVariants : Option Int) (count : Int) : Int :=
  match maxVariants with
  | some n => min count n
  | none => count

/-- A bound that opens a session is the size of its cap. -/
theorem countedUnder_of_open? {useSynonyms : Bool} {maxVariants : Option Int} {tree : Json}
    {session : Session} (h : Session.open? useSynonyms maxVariants tree = some session)
    (count : Nat) : countedUnder maxVariants count = (Cap.kept session.cap count : Int) := by
  obtain ⟨cap, rfl, rfl⟩ := Session.open?_eq_some_iff.mp h
  cases cap with
  | none => rfl
  | some m =>
    simp only [Session.start, Cap.kept, countedUnder, Option.map_some]
    omega

theorem Session.corpus_of_open? {useSynonyms : Bool} {maxVariants : Option Int} {tree : Json}
    {session : Session} (h : Session.open? useSynonyms maxVariants tree = some session) :
    session.corpus = Corpus.ofJson useSynonyms tree := by
  obtain ⟨cap, -, rfl⟩ := Session.open?_eq_some_iff.mp h
  rfl

namespace Console.Command

theorem exit_fail (d : Disk) (printed : Text) (failure : Failure) :
    (Result.fail d printed failure).exit ≠ .success := by
  intro h
  unfold Result.fail Exit.ofFailure at h
  dsimp only at h
  split at h
  · cases h
  · cases h

section PrintCounts

variable {useSynonyms : Bool} {maxVariants : Option Int} {tree : Json} {session : Session}

theorem sum_countedUnder (hopen : Session.open? useSynonyms maxVariants tree = some session)
    (name : Text) (intent : Intent) :
    (intent.sentences.map fun s =>
        countedUnder maxVariants (s.countVariants session.corpus.synonyms)).sum =
      ((intent.count session.corpus.synonyms session.cap name).variants : Int) := by
  rw [Intent.count, Nat.cast_list_sum, List.map_map]
  exact congrArg List.sum (List.map_congr_left fun s _ => countedUnder_of_open? hopen _)

theorem printCounts_cons (d : Disk) (printed name : Text) (intent : Intent) (rest : Intents) :
    printCounts maxVariants session d printed ((name, intent) :: rest) =
      let total := (intent.sentences.map fun s =>
        countedUnder maxVariants (s.countVariants session.corpus.synonyms)).sum
      if isLongInteger total then .fail d printed (.longInteger none)
      else
        printCounts maxVariants session d (printed ++ line ("[stats] " ++ name ++ " sentences="
          ++ Text.ofNat intent.sentences.length ++ " variants=" ++ Text.ofInt total)) rest := rfl

theorem printCounts_of_success (hopen : Session.open? useSynonyms maxVariants tree = some session)
    {d : Disk} {printed : Text} {intents : Intents}
    (h : (printCounts maxVariants session d printed intents).exit = .success) :
    printCounts maxVariants session d printed intents =
      .success d (printed ++ intents.flatMap fun e =>
        (e.2.count session.corpus.synonyms session.cap e.1).line) := by
  induction intents generalizing printed with
  | nil =>
    rw [List.flatMap_nil, List.append_nil]
    rfl
  | cons e rest ih =>
    obtain ⟨name, intent⟩ := e
    rw [printCounts_cons] at h ⊢
    dsimp only at h ⊢
    rw [sum_countedUnder hopen name intent] at h ⊢
    split at h
    · exact absurd h (exit_fail _ _ _)
    · rename_i hlong
      rw [if_neg hlong, ih h, List.flatMap_cons, Text.ofInt_natCast, List.append_assoc]
      rfl

end PrintCounts

end Console.Command

/-! ### Counts and sentences -/

section Expanded

variable {table : SynonymTable} {cap : Option Cap}

theorem Sentence.length_of_expand {s : Sentence} {intent : Option Text} {vs : List Sentence}
    (h : (s.expand table cap intent).result = .ok vs) :
    vs.length = Cap.kept cap (s.countVariants table) := by
  rw [countVariants_eq_total]
  exact (events_expand h).2

/-- An intent that is expanded has as many sentences as were counted. -/
theorem Intent.length_of_expand {intent expanded : Intent}
    (h : (intent.expand table cap).result = .ok expanded) (name : Text) :
    (intent.count table cap name).variants = expanded.sentences.length := by
  obtain ⟨variants, hsteps, rfl, -⟩ := Intent.expand_eq_ok h
  rw [List.length_flatten]
  exact congrArg List.sum
    (map_eq_map_of_forall₂ hsteps fun s vs hstep => (Sentence.length_of_expand hstep).symm)

/-- Stored intents stand in the order in which they were counted and have as many sentences. -/
theorem Intents.counts_of_expand {intents expanded : Intents} (hdescribable : expanded.Describable)
    (h : (intents.expand table cap).result = .ok expanded) :
    (intents.map fun e => e.2.count table cap e.1).map (fun c => (c.name, c.variants)) =
      expanded.toFields.map fun e => (e.1, (Intent.storedSentences e.2).length) := by
  have hcounted : intents.map (fun e => (e.1, (e.2.count table cap e.1).variants)) =
      expanded.map fun f => (f.1, f.2.sentences.length) := by
    refine map_eq_map_of_forall₂ (Intents.expand_eq_ok h).1 fun e f hstep => ?_
    rw [hstep.1, Intent.length_of_expand hstep.2]
  rw [List.map_map, toFields, Entries.mapValues, List.map_map]
  refine Eq.trans hcounted (List.map_congr_left fun f hf => ?_)
  rw [Function.comp_apply, Intent.storedSentences_toJson (hdescribable f hf).2, List.length_map]

end Expanded

/-! ### Expanding a tree -/

namespace Console.Command

theorem openSession_eq_ok {settings : Settings} {tree : Entries Text Json} {session : Session}
    (h : openSession settings tree = .ok session) :
    Session.open? settings.profile.useSynonyms settings.profile.maxVariants (.obj tree) =
      some session := by
  unfold openSession at h
  split at h
  · rename_i hopen
    rw [hopen, Except.ok.inj h]
  · cases h

/-- An expansion that succeeds has gone through every step. -/
theorem expandTree_of_success [Host] {c : Command} {settings : Settings} {tree : Entries Text Json}
    {d : Disk} (h : (c.expandTree settings tree d).exit = .success) :
    ∃ session out expanded before after written warned,
      openSession settings tree = .ok session ∧ c.output? = some out ∧
      (session.corpus.expand session.cap).result = .ok expanded ∧
      writeExpanded settings tree expanded out before = ⟨after, .ok written⟩ ∧
      c.expandTree settings tree d =
        .success after (c.openingLine settings session ++ written ++ warned) := by
  unfold expandTree at h ⊢
  split at h
  · exact absurd h (exit_fail _ _ _)
  · rename_i journaled journal hjournal
    cases hsession : openSession settings tree with
    | error e =>
      rw [hsession] at h
      exact absurd h (exit_fail _ _ _)
    | ok session =>
      rw [hsession] at h
      dsimp only at h ⊢
      cases hout : c.output? with
      | none =>
        rw [hout] at h
        exact absurd h (exit_fail _ _ _)
      | some out =>
        rw [hout] at h
        dsimp only at h ⊢
        split at h
        · exact absurd h (exit_fail _ _ _)
        · rename_i collector before hcollected
          cases hexpanded : (session.corpus.expand session.cap).result with
          | error e =>
            rw [hexpanded] at h
            exact absurd h (exit_fail _ _ _)
          | ok expanded =>
            rw [hexpanded] at h
            dsimp only at h ⊢
            split at h
            · exact absurd h (exit_fail _ _ _)
            · rename_i after written hwritten
              exact ⟨session, out, expanded, before, after, written, warnings collector, rfl, rfl,
                hexpanded, hwritten, rfl⟩

/-- The line that tells how much was written. -/
def wroteLine (format : OutputFormat) (intents sentences : Nat) (out : Path) : Text :=
  match format with
  | .tree => line ("[augment] Wrote " ++ Text.ofNat intents ++ " intent(s), "
      ++ Text.ofNat sentences ++ " sentence(s) to " ++ out.text)
  | .table => line ("[augment] Wrote " ++ Text.ofNat sentences ++ " sentence(s) to " ++ out.text)

theorem writeExpanded_eq_ok [Host] {settings : Settings} {tree : Entries Text Json}
    {expanded : Intents} {out : Path} {before after : Disk} {written : Text}
    (h : writeExpanded settings tree expanded out before = ⟨after, .ok written⟩) :
    written = wroteLine settings.global.format expanded.length expanded.rows.length out ∧
      match settings.global.format with
      | .tree =>
        before.saveTree tree expanded.toFields out settings.global.encoding = ⟨after, .ok ()⟩
      | .table => before.saveTable expanded.rows out = ⟨after, .ok expanded.rows.length⟩ := by
  have hrows : expanded.rows.length = (expanded.flatMap fun e => e.2.sentences).length := by
    rw [Intents.rows, List.length_flatMap, List.length_flatMap]
    exact congrArg List.sum (List.map_congr_left fun e _ => List.length_mapIdx)
  unfold writeExpanded at h
  cases hformat : settings.global.format with
  | tree =>
    rw [hformat] at h
    dsimp only at h
    split at h
    · cases h
    · rename_i saved hsaved
      cases h
      rw [hrows]
      exact ⟨rfl, hsaved⟩
  | table =>
    rw [hformat] at h
    dsimp only at h
    split at h
    · cases h
    · rename_i saved rows hsaved
      have hresult : (before.saveTable expanded.rows out).result = .ok rows := by rw [hsaved]
      obtain ⟨rfl, -⟩ := (before.saveTable_eq_ok_iff expanded.rows out rows).mp hresult
      cases h
      exact ⟨rfl, hsaved⟩

/-! ### Two commands on one corpus -/

/-- Whether two commands read the same settings and the same tree. -/
structure ReadsAs (c c' : Command) : Prop where
  settingsFile : c.settingsFile = c'.settingsFile
  inputFile : c.inputFile = c'.inputFile
  profile : c.profile? = c'.profile?
  overrides : c.overrides = c'.overrides

theorem load_of_readsAs [Host] {c c' : Command} (h : c.ReadsAs c') (d : Disk) :
    c.load d = c'.load d := by
  unfold load settings
  rw [h.settingsFile, h.inputFile, h.profile, h.overrides]

section Runs

variable [Host] {c : Command} {d : Disk} {settings : Settings} {tree : Entries Text Json}

theorem exists_load_of_success (h : (c.run d).exit = .success) :
    ∃ settings tree, c.load d = .ok (settings, tree) := by
  cases hload : c.load d with
  | error e =>
    rw [run, hload] at h
    exact absurd h (exit_fail _ _ _)
  | ok loaded => exact ⟨loaded.1, loaded.2, rfl⟩

theorem run_augment (haction : c.action = .augment) (hload : c.load d = .ok (settings, tree)) :
    c.run d = c.expandTree settings tree d := by
  rw [run, hload, haction]

theorem run_stats (haction : c.action = .stats) (hload : c.load d = .ok (settings, tree))
    {session : Session} (hsession : openSession settings tree = .ok session) :
    c.run d = printCounts settings.profile.maxVariants session d [] session.corpus.intents := by
  rw [run, hload, haction]
  dsimp only
  rw [hsession]

end Runs

end Console.Command

namespace Console

/-- How the counts of a session agree with what its expansion wrote. -/
structure CountsAgree [Host] (d : Disk) (session : Session) (settings : Settings)
    (tree stored : Entries Text Json) (out : Path) (opening : Text) (counted expanded : Result) :
    Prop where
  /-- The counts are printed, one line an intent, and nothing else is done. -/
  printed : counted = .success d (session.intentCounts.flatMap IntentCount.line)
  /-- Each count is the number of sentences that are stored under the same intent. -/
  per_intent : session.intentCounts.map (fun c => (c.name, c.variants)) =
    stored.map fun e => (e.1, (Intent.storedSentences e.2).length)
  /-- The total that is told is the sum of the counts. -/
  told : ∃ warned, expanded.stdout = opening ++
    Command.wroteLine settings.global.format stored.length
      (session.intentCounts.map IntentCount.variants).sum out ++ warned
  /-- What was written: the tree with the stored intents, or as many rows as were counted. -/
  written : match settings.global.format with
    | .tree => ∃ bytes,
      (Codec.ofName settings.global.encoding).bind (fun codec =>
        codec.encode ((Json.obj (Disk.withIntents tree stored)).write .tree)) = .ok bytes ∧
      expanded.disk.read out = .ok (some bytes)
    | .table => ∃ (before : Disk) (rows : List TrainingRow),
      Intents.storedRows? stored = some rows ∧
      rows.length = (session.intentCounts.map IntentCount.variants).sum ∧
      before.saveTable rows out = ⟨expanded.disk, .ok rows.length⟩

/-- The numbers agree once both commands have opened the session. -/
theorem countsAgree_of_success [Host] {settings : Settings} {tree : Entries Text Json}
    {session : Session} {augment : Command} {d : Disk}
    (hsession : Command.openSession settings tree = .ok session)
    (hcounted : (Command.printCounts settings.profile.maxVariants session d []
      session.corpus.intents).exit = .success)
    (hexpanded : (augment.expandTree settings tree d).exit = .success) :
    ∃ out stored, augment.output? = some out ∧
      (session.perform .storedIntents).1 = .fields stored ∧
      CountsAgree d session settings tree stored out (augment.openingLine settings session)
        (Command.printCounts settings.profile.maxVariants session d [] session.corpus.intents)
        (augment.expandTree settings tree d) := by
  have hopen := Command.openSession_eq_ok hsession
  obtain ⟨found, out, expanded, before, after, written, warned, hfound, hout, hresult, hwritten,
    hsuccess⟩ := Command.expandTree_of_success hexpanded
  obtain rfl : session = found := Except.ok.inj (hsession.symm.trans hfound)
  obtain ⟨hline, hfile⟩ := Command.writeExpanded_eq_ok hwritten
  have hdescribable := Session.describable_of_expand (Session.corpus_of_open? hopen) hresult
  have hcounts : session.intentCounts.map (fun c => (c.name, c.variants)) =
      expanded.toFields.map fun e => (e.1, (Intent.storedSentences e.2).length) :=
    Intents.counts_of_expand hdescribable hresult
  have htotal : (session.intentCounts.map IntentCount.variants).sum = expanded.rows.length := by
    have hsizes := congrArg (List.map Prod.snd) hcounts
    rw [List.map_map, List.map_map] at hsizes
    rw [← Intents.storedSize_toFields hdescribable, Intents.storedSize]
    exact congrArg List.sum hsizes
  refine ⟨out, expanded.toFields, hout, ?_, ?_⟩
  · simp only [Session.perform, Session.expanding, hresult]
  rw [hsuccess]
  refine ⟨?_, hcounts, ⟨warned, ?_⟩, ?_⟩
  · rw [Command.printCounts_of_success hopen hcounted, Session.intentCounts, List.flatMap_map]
    rfl
  · have hlength : expanded.toFields.length = expanded.length := List.length_map _
    rw [htotal, hlength, ← hline]
    rfl
  · rw [htotal]
    cases hformat : settings.global.format with
    | tree =>
      rw [hformat] at hfile
      have hsaved : (before.saveTree tree expanded.toFields out settings.global.encoding).result =
          .ok () := by rw [hfile]
      obtain ⟨bytes, hbytes, hread⟩ := Disk.read_saveTree hsaved
      rw [hfile] at hread
      exact ⟨bytes, hbytes, hread⟩
    | table =>
      rw [hformat] at hfile
      exact ⟨before, expanded.rows, Intents.storedRows?_toFields hdescribable, rfl, hfile⟩

/-- **What is counted is what is written.**  An expansion that finishes yields as many variants as
are counted for the sentence, or as many as the cap allows.  If the command that counts and the
command that expands both succeed on one disk, with the same settings and the same tree, then their
numbers agree: for each intent, in total, and in the file that is written. -/
theorem counts_agree [Host] :
    (∀ (table : SynonymTable) (cap : Option Cap) (intent : Option Text) (s : Sentence)
      (variants : List Sentence), (s.expand table cap intent).result = .ok variants →
        variants.length = match cap with
          | none => s.countVariants table
          | some m => min (s.countVariants table) m.size) ∧
    ∀ (statsLine augmentLine : List Text) (stats augment : Command) (d : Disk),
      readArguments statsLine = .command stats → stats.action = .stats →
      readArguments augmentLine = .command augment → augment.action = .augment →
      stats.ReadsAs augment →
      (run statsLine d).exit = .success → (run augmentLine d).exit = .success →
      ∃ settings tree session out stored,
        augment.load d = .ok (settings, tree) ∧
        Command.openSession settings tree = .ok session ∧
        augment.output? = some out ∧
        (session.perform .storedIntents).1 = .fields stored ∧
        CountsAgree d session settings tree stored out (augment.openingLine settings session)
          (run statsLine d) (run augmentLine d) := by
  refine ⟨?_, ?_⟩
  · intro table cap intent s variants h
    rw [Sentence.length_of_expand h]
    cases cap with
    | none => rfl
    | some m => exact Nat.min_comm _ _
  intro statsLine augmentLine stats augment d hstats hcounts haugment hexpands hsame
  have hstatsRun : run statsLine d = stats.run d := by rw [run, hstats]
  have haugmentRun : run augmentLine d = augment.run d := by rw [run, haugment]
  rw [hstatsRun, haugmentRun]
  intro hcounted hexpanded
  obtain ⟨settings, tree, hload⟩ := Command.exists_load_of_success hexpanded
  rw [Command.run_augment hexpands hload] at hexpanded ⊢
  obtain ⟨session, -, -, -, -, -, -, hsession, -⟩ := Command.expandTree_of_success hexpanded
  have hloaded := (Command.load_of_readsAs hsame d).trans hload
  rw [Command.run_stats hcounts hloaded hsession] at hcounted ⊢
  obtain ⟨out, stored, hout, hstored, hagree⟩ :=
    countsAgree_of_success hsession hcounted hexpanded
  exact ⟨settings, tree, session, out, stored, hload, hsession, hout, hstored, hagree⟩

instance (e : Exit) : Decidable (e = .success) :=
  match e with
  | .success => isTrue rfl
  | .usage => isFalse Exit.noConfusion
  | .reported _ => isFalse Exit.noConfusion
  | .failed _ => isFalse Exit.noConfusion

/-- A sentence that is cut by the cap, and one that is dropped. -/
theorem counts_agree_cut_and_dropped :
    let config : Json := .obj [
      (Settings.versionKey, .int 1),
      (Settings.globalKey, .obj []),
      (Settings.profilesKey, .obj [("default", Settings.shippedProfile "d" false (.int 3))])]
    let placeholder (entity : Text) (optional : Bool) : Json := .obj [
      ("type", .str "synonym"), ("value", .str entity), ("optional", .bool optional)]
    let tree : Json := .obj [
      ("intents", .obj [
        ("go", .obj [("data", .arr [.arr [placeholder "x" false],
          .arr [placeholder "x" true, placeholder "x" false]])]),
        ("stop", .obj [("data", .arr [.arr [placeholder "y" false]])])]),
      ("synonyms", .obj [("x", .obj [("data", .arr [.obj [("value", .str "A")],
        .obj [("value", .str "B")]])])])]
    let d : Disk := [
      (⟨.here, 0, [.ofText "c.json"]⟩, .file (asciiBytes (config.write .line))),
      (⟨.here, 0, [.ofText "in.json"]⟩, .file (asciiBytes (tree.write .line)))]
    let statsLine : List Text := ["stats", "in.json", "--config", "c.json"]
    let augmentLine : List Text := ["augment", "in.json", "--config", "c.json"]
    let outcome := (Sentence.expand [("x", ["A", "B"])] (some ⟨3, by decide⟩) none
      [.synonym "x" true, .synonym "x" false]).result
    (run statsLine d).exit = .success ∧ (run augmentLine d).exit = .success ∧
      (run statsLine d).stdout =
        "[stats] go sentences=2 variants=5\n[stats] stop sentences=1 variants=0\n" ∧
      (∃ variants, outcome = .ok variants ∧ variants.length = min 6 3) ∧
      ∃ (augment : Command) (settings : Settings) (tree stored : Entries Text Json)
        (session : Session) (out : Path),
        readArguments augmentLine = .command augment ∧
        augment.load d = .ok (settings, tree) ∧
        CountsAgree d session settings tree stored out (augment.openingLine settings session)
          (run statsLine d) (run augmentLine d) := by
  intro config placeholder tree d statsLine augmentLine outcome
  have hstats : readArguments statsLine =
      .command ⟨.stats, [some "in.json"], [("--config", some "c.json")]⟩ := by decide +kernel
  have haugment : readArguments augmentLine =
      .command ⟨.augment, [some "in.json"], [("--config", some "c.json")]⟩ := by decide +kernel
  have hcounted : (run statsLine d).exit = .success ∧ (run statsLine d).stdout =
      "[stats] go sentences=2 variants=5\n[stats] stop sentences=1 variants=0\n" := by
    decide +kernel
  have hexpanded : (run augmentLine d).exit = .success := by decide +kernel
  obtain ⟨settings, tree, session, out, stored, hload, -, -, -, hagree⟩ :=
    counts_agree.2 statsLine augmentLine _ _ d hstats rfl haugment rfl ⟨rfl, rfl, rfl, rfl⟩
      hcounted.1 hexpanded
  have hfinishes : outcome.isOk = true := by decide +kernel
  obtain ⟨variants, hrun⟩ : ∃ variants, outcome = .ok variants := by
    cases houtcome : outcome with
    | ok variants => exact ⟨variants, rfl⟩
    | error e =>
      rw [houtcome] at hfinishes
      cases hfinishes
  have hvariants := counts_agree.1 _ _ _ _ variants hrun
  exact ⟨hcounted.1, hexpanded, hcounted.2, ⟨variants, hrun, hvariants⟩, _, settings, tree, stored,
    session, out, haugment, hload, hagree⟩

end Console

end Phrasing
