/-
  Phrasing/Proofs/Loading.lean
  ============================
  **Which settings are loaded, and what may be relied on once they are.**

  A settings file is read as an input file is, and what is wrong with it is told
  as a problem of settings.  What the checks find wrong is told too.  Three things
  are not: that the file is no legible text, that a number is infinite where an
  integer is asked for, and that no profile is named.  Settings that are loaded
  have passed every check, and a session can be opened with them on any tree.
-/
import Phrasing.Proofs.Checks
import Phrasing.Proofs.Losses
import Phrasing.Proofs.Reading

namespace Phrasing

namespace Settings

/-- The profile that is asked for is one of those in the file. -/
def Named (profile : Option Text) (root : Entries Text Json) : Prop :=
  ∃ name profiles, profile = some name ∧ root.get? profilesKey = some (.obj profiles) ∧
    name ∈ Entries.keys profiles

section Load

variable {profile : Option Text} {overrides : Overrides} {root : Entries Text Json}

theorem choose_of_named {document : SettingsDocument} (hdocument : ReadFrom root document)
    (h : Named profile root) : ∃ settings, choose document profile = .ok settings := by
  obtain ⟨name, profiles, rfl, hprofiles, hname⟩ := h
  obtain ⟨found, hfound, hkeys⟩ := hdocument.keys
  cases hprofiles.symm.trans hfound
  rw [← hkeys, ← Entries.exists_get?_iff_mem_keys] at hname
  obtain ⟨chosen, hchosen⟩ := hname
  refine ⟨⟨document.global, chosen⟩, ?_⟩
  rw [choose, Option.bind_some, hchosen]

theorem choose_of_not_named {document : SettingsDocument} (hdocument : ReadFrom root document)
    (h : ¬ Named profile root) : choose document profile = .error .noProfile := by
  have hnone : profile.bind document.profiles.get? = none := by
    rw [Option.bind_eq_none_iff]
    intro name hname
    rw [Option.eq_none_iff_forall_ne_some]
    intro chosen hchosen
    obtain ⟨profiles, hprofiles, hkeys⟩ := hdocument.keys
    refine h ⟨name, profiles, hname, hprofiles, ?_⟩
    rw [← hkeys]
    exact Entries.exists_get?_iff_mem_keys.mp ⟨chosen, hchosen⟩
  rw [choose, hnone]

theorem named_of_sound {name : Text} (hgiven : givenName profile = some name)
    (hsound : Sound (some name) overrides root) : Named profile root := by
  obtain ⟨hprofile, -⟩ := Option.filter_eq_some_iff.mp hgiven
  obtain ⟨profiles, hprofiles, -, -, hchosen⟩ := hsound.profiles
  exact ⟨name, profiles, hprofile, hprofiles, hchosen name rfl⟩

variable [Host] {d : Disk} {p : Path}

/-- What becomes of a file that holds an object. -/
theorem load_cases (hroot : d.readDocument p defaultEncoding = .ok (.obj root)) :
    (Sound (givenName profile) overrides root ∧ ¬ Overflows (givenName profile) overrides root ∧
      ((Named profile root ∧ ∃ settings, load d p profile overrides = .ok settings) ∨
        (¬ Named profile root ∧ load d p profile overrides = .error .noProfile))) ∨
    (¬ Sound (givenName profile) overrides root ∧
      ((¬ Overflows (givenName profile) overrides root ∧
          ∃ problem, load d p profile overrides = .error (.settings p problem)) ∨
        (Overflows (givenName profile) overrides root ∧
          load d p profile overrides = .error .infiniteSetting))) := by
  rw [load, loadDocument_of_readDocument hroot]
  cases checked_documentOf p overrides root profile with
  | accepted document hdocument h sound finite =>
    rw [h]
    change _ ∧ _ ∧ ((_ ∧ ∃ settings, choose document profile = .ok settings) ∨
      (_ ∧ choose document profile = .error .noProfile)) ∨ _
    apply Or.inl
    refine ⟨sound, finite, ?_⟩
    by_cases hnamed : Named profile root
    · exact Or.inl ⟨hnamed, choose_of_named hdocument hnamed⟩
    · exact Or.inr ⟨hnamed, choose_of_not_named hdocument hnamed⟩
  | rejected problem h unsound finite =>
    rw [h]
    exact Or.inr ⟨unsound, Or.inl ⟨finite, problem, rfl⟩⟩
  | overflowed h unsound infinite =>
    rw [h]
    exact Or.inr ⟨unsound, Or.inr ⟨infinite, rfl⟩⟩

/-- What becomes of a file that does not hold an object. -/
theorem load_of_unread (hroot : ∀ root, d.readDocument p defaultEncoding ≠ .ok (.obj root)) :
    (d.Legible p defaultEncoding ∧
      ∃ problem, load d p profile overrides = .error (.settings p problem)) ∨
    (¬ d.Legible p defaultEncoding ∧
      ∃ failure, load d p profile overrides = .error failure ∧ failure.report? = none) := by
  rw [load, loadDocument, readRoot_eq]
  rcases d.loadTree_cases p defaultEncoding with
    ⟨hlegible, ⟨tree, htree⟩ | ⟨problem, hproblem⟩⟩ | ⟨hillegible, failure, hfailure, hreport⟩
  · exact absurd (Disk.loadTree_eq_ok_iff.mp htree) (hroot tree)
  · rw [hproblem]
    exact Or.inl ⟨hlegible, problem.ofSettings, rfl⟩
  · rw [hfailure]
    refine Or.inr ⟨hillegible, failure, ?_, hreport⟩
    cases failure with
    | input => cases hreport
    | _ => rfl

theorem legible_of_readDocument (h : d.readDocument p defaultEncoding = .ok (.obj root)) :
    d.Legible p defaultEncoding := by
  rw [← d.told_loadTree_iff p defaultEncoding, Disk.loadTree_eq_ok_iff.mpr h]
  exact Told.of_ok root

theorem exists_load_iff (hroot : d.readDocument p defaultEncoding = .ok (.obj root)) :
    (∃ settings, load d p profile overrides = .ok settings) ↔
      Sound (givenName profile) overrides root ∧ Named profile root := by
  rcases load_cases hroot with ⟨hsound, -, ⟨hnamed, settings, hload⟩ | ⟨hunnamed, hload⟩⟩ |
    ⟨hunsound, ⟨-, problem, hload⟩ | ⟨-, hload⟩⟩
  · exact iff_of_true ⟨settings, hload⟩ ⟨hsound, hnamed⟩
  all_goals
    rw [hload]
    constructor
    · rintro ⟨settings, ⟨⟩⟩
  · exact fun h => absurd h.2 hunnamed
  · exact fun h => absurd h.1 hunsound
  · exact fun h => absurd h.1 hunsound

/-- Of the ways to fail, an infinite number and an empty name that no profile has are not told. -/
theorem told_load_iff (hroot : d.readDocument p defaultEncoding = .ok (.obj root)) :
    Told .config (load d p profile overrides) ↔
      ¬ Overflows (givenName profile) overrides root ∧
        (givenName profile = none → Sound none overrides root → Named profile root) := by
  rcases load_cases hroot with ⟨hsound, hfinite, ⟨hnamed, settings, hload⟩ | ⟨hunnamed, hload⟩⟩ |
    ⟨hunsound, ⟨hfinite, problem, hload⟩ | ⟨hinfinite, hload⟩⟩
  · rw [hload]
    exact iff_of_true (.of_ok settings) ⟨hfinite, fun _ _ => hnamed⟩
  · rw [hload]
    refine iff_of_false (Told.not_of_unreported rfl) ?_
    rintro ⟨-, hempty⟩
    -- a name that counts as given was looked for by the checks
    cases hgiven : givenName profile with
    | none =>
      rw [hgiven] at hsound
      exact hunnamed (hempty hgiven hsound)
    | some name =>
      rw [hgiven] at hsound
      exact hunnamed (named_of_sound hgiven hsound)
  · rw [hload]
    refine iff_of_true (.of_report rfl rfl) ⟨hfinite, ?_⟩
    intro hgiven hsound
    rw [hgiven] at hunsound
    exact absurd hsound hunsound
  · rw [hload]
    exact iff_of_false (Told.not_of_unreported rfl) fun h => h.1 hinfinite

theorem load_of_overflows (hroot : d.readDocument p defaultEncoding = .ok (.obj root))
    (h : Overflows (givenName profile) overrides root) :
    load d p profile overrides = .error .infiniteSetting := by
  rcases load_cases hroot with ⟨-, hfinite, -⟩ | ⟨-, ⟨hfinite, -⟩ | ⟨-, hload⟩⟩
  · exact absurd h hfinite
  · exact absurd h hfinite
  · exact hload

end Load

/-- **Which settings are loaded or told about.**  Loading yields settings exactly if the file holds
an object that passes every check and has the profile that is asked for.  It yields settings or a
reported failure exactly if the path is legible, the checks of an object in the file come to no
infinite number, and, if the empty name is asked for, an object that passes them has a profile of
that name.  As in `told_loadTree`, values are nested to any depth, and a bound on the stack of the
reader is left out. -/
theorem told_load [Host] (d : Disk) (p : Path) (profile : Option Text) (overrides : Overrides) :
    ((∃ settings, load d p profile overrides = .ok settings) ↔
      ∃ root, d.readDocument p defaultEncoding = .ok (.obj root) ∧
        Sound (givenName profile) overrides root ∧ Named profile root) ∧
    (Told .config (load d p profile overrides) ↔
      d.Legible p defaultEncoding ∧ ∀ root, d.readDocument p defaultEncoding = .ok (.obj root) →
        ¬ Overflows (givenName profile) overrides root ∧
          (givenName profile = none → Sound none overrides root → Named profile root)) := by
  by_cases hread : ∃ root, d.readDocument p defaultEncoding = .ok (.obj root)
  · obtain ⟨root, hroot⟩ := hread
    have hlegible := legible_of_readDocument hroot
    rw [exists_load_iff hroot, told_load_iff hroot]
    simp only [hroot, Except.ok.injEq, Json.obj.injEq, exists_eq_left', forall_eq', hlegible,
      true_and, and_self]
  · rw [not_exists] at hread
    have hnowhere : ¬ ∃ root, d.readDocument p defaultEncoding = .ok (.obj root) ∧
        Sound (givenName profile) overrides root ∧ Named profile root := by
      rintro ⟨root, hroot, -⟩
      exact hread root hroot
    rcases load_of_unread hread with
      ⟨hlegible, problem, hload⟩ | ⟨hillegible, failure, hload, hreport⟩
    · rw [hload]
      refine ⟨iff_of_false ?_ hnowhere, iff_of_true (.of_report rfl rfl) ⟨hlegible, ?_⟩⟩
      · rintro ⟨settings, ⟨⟩⟩
      · intro root hroot
        exact absurd hroot (hread root)
    · rw [hload]
      refine ⟨iff_of_false ?_ hnowhere, iff_of_false (Told.not_of_unreported hreport) ?_⟩
      · rintro ⟨settings, ⟨⟩⟩
      · exact fun h => hillegible h.1

/-- A version beyond all numbers counts as infinite, and no integer can be cut from it. -/
theorem load_infinite_version_untold :
    let d : Disk := [Disk.textFile "c.json" "\x7b\"version\": 1e999\x7d"]
    let loaded := load d (.ofText "c.json") (some "default") ⟨[], []⟩
    loaded = .error .infiniteSetting ∧ ¬ Told .config loaded := by
  intro d loaded
  have hfound : ((readRoot d (.ofText "c.json")).toOption.any fun root =>
      decide (valueOf root versionKey).IsInfinite) = true := by decide +kernel
  rw [Option.any_eq_true] at hfound
  obtain ⟨root, hread, hinfinite⟩ := hfound
  have hroot : readRoot d (.ofText "c.json") = .ok root := by
    cases houtcome : readRoot d (.ofText "c.json") with
    | error e =>
      rw [houtcome] at hread
      cases hread
    | ok found =>
      rw [houtcome] at hread
      exact congrArg Except.ok (Option.some.inj hread)
  have hloaded : loaded = .error .infiniteSetting :=
    load_of_overflows (readRoot_eq_ok_iff.mp hroot) (.version (of_decide_eq_true hinfinite))
  rw [hloaded]
  exact ⟨rfl, Told.not_of_unreported rfl⟩

end Settings

/-! ### What loaded settings can be relied on for -/

theorem Sentence.length_le_of_expand {s : Sentence} {table : SynonymTable} {m : Cap}
    {intent : Option Text} {vs : List Sentence}
    (h : (s.expand table (some m) intent).result = .ok vs) : vs.length ≤ m.size := by
  rw [(events_expand h).2]
  exact Nat.min_le_left m.size (s.total table)

/-- A session can be opened on every tree if the bound on variants is positive, and keeps to it. -/
theorem Session.exists_open? {maxVariants : Option Int} (h : ∀ n, maxVariants = some n → 1 ≤ n)
    (useSynonyms : Bool) (tree : Json) :
    ∃ session, Session.open? useSynonyms maxVariants tree = some session ∧
      session.cap.map (fun m => (m.size : Int)) = maxVariants := by
  have hcap : ∃ cap : Option Cap, cap.map (fun m => (m.size : Int)) = maxVariants := by
    cases maxVariants with
    | none => exact ⟨none, rfl⟩
    | some n =>
      have hn := h n rfl
      refine ⟨some ⟨n.toNat, by omega⟩, ?_⟩
      rw [Option.map_some, Int.toNat_of_nonneg (by omega)]
  obtain ⟨cap, hcap⟩ := hcap
  exact ⟨start (Corpus.ofJson useSynonyms tree) cap,
    Session.open?_eq_some_iff.mpr ⟨cap, hcap, rfl⟩, hcap⟩

namespace Settings

theorem loadDocument_of_load [Host] {d : Disk} {p : Path} {profile : Option Text}
    {overrides : Overrides} {settings : Settings} (h : load d p profile overrides = .ok settings) :
    ∃ document name, loadDocument d p profile overrides = .ok document ∧ profile = some name ∧
      document.profiles.get? name = some settings.profile ∧ document.global = settings.global ∧
      ∃ root, d.readDocument p defaultEncoding = .ok (.obj root) ∧
        Sound (givenName profile) overrides root ∧ ReadFrom root document := by
  rw [load] at h
  cases hdocument : loadDocument d p profile overrides with
  | error e =>
    rw [hdocument] at h
    cases h
  | ok document =>
    rw [hdocument] at h
    change choose document profile = .ok settings at h
    obtain ⟨root, hroot, hread⟩ := loadDocument_eq_ok_iff.mp hdocument
    have hgood := (checked_documentOf p overrides root profile).good_of_eq_ok hread
    unfold choose at h
    split at h
    · rename_i chosen hchosen
      obtain rfl := Except.ok.inj h
      obtain ⟨name, hname, hget⟩ := Option.bind_eq_some_iff.mp hchosen
      exact ⟨document, name, rfl, hname, hget, rfl, root, hroot, hgood⟩
    · cases h

/-- **Loaded settings are usable.**  The encoding and the description are trimmed and not empty, and
a cap is at least one.  The profile is one of the document's, and all of these are as usable; the
file that the document was read from passes every check.  With the settings a session can be opened
on every tree, and in it no sentence is expanded to more variants than the cap. -/
theorem usable_of_load [Host] {d : Disk} {p : Path} {profile : Option Text}
    {overrides : Overrides} {settings : Settings} (h : load d p profile overrides = .ok settings) :
    settings.global.Usable ∧ settings.profile.Usable ∧
    (∃ document name, loadDocument d p profile overrides = .ok document ∧ profile = some name ∧
      document.profiles.get? name = some settings.profile ∧ document.global = settings.global ∧
      ∃ root, d.readDocument p defaultEncoding = .ok (.obj root) ∧
        Sound (givenName profile) overrides root ∧ ReadFrom root document) ∧
    ∀ tree, ∃ session,
      Session.open? settings.profile.useSynonyms settings.profile.maxVariants tree = some session ∧
      ∀ n, settings.profile.maxVariants = some n → ∀ table intent (s : Sentence) vs,
        (s.expand table session.cap intent).result = .ok vs → (vs.length : Int) ≤ n := by
  obtain ⟨document, name, hdocument, hname, hget, hglobal, root, hroot, hsound, hread⟩ :=
    loadDocument_of_load h
  have hprofile : settings.profile.Usable := hread.profiles _ (Entries.mem_of_get? hget)
  refine ⟨hglobal ▸ hread.global, hprofile,
    ⟨document, name, hdocument, hname, hget, hglobal, root, hroot, hsound, hread⟩, ?_⟩
  intro tree
  obtain ⟨session, hopen, hcap⟩ :=
    Session.exists_open? hprofile.one_le_maxVariants settings.profile.useSynonyms tree
  refine ⟨session, hopen, ?_⟩
  intro n hn table intent s vs hvs
  rw [hn, Option.map_eq_some_iff] at hcap
  obtain ⟨m, hm, rfl⟩ := hcap
  rw [hm] at hvs
  exact_mod_cast Sentence.length_le_of_expand hvs

/-- A cap of twelve is spelled with blanks, a sign and an underscore, and laid over one that would
not be accepted. -/
theorem usable_of_load_spelled_cap :
    let root : Entries Text Json := [
      ("version", .bool true), ("global", .obj [("encoding", .str " ascii\t")]),
      ("profiles", .obj [
        ("long", .obj [("description", .str "l"),
          ("use_synonyms_in_entity_value_provider", .bool false)]),
        ("short", .obj [("description", .str "s"),
          ("use_synonyms_in_entity_value_provider", .bool true),
          ("max_variants_per_sentence", .int 0)])])]
    let d : Disk := [Disk.textFile "c.json" ((Json.obj root).write .tree)]
    let overrides : Overrides :=
      ⟨[("output_format", .str "Parquet ")], [("max_variants_per_sentence", .str " +1_2 ")]⟩
    let settings : Settings := ⟨⟨"ascii", .table⟩, ⟨"s", true, some 12⟩⟩
    load d (.ofText "c.json") (some "short") overrides = .ok settings ∧
      settings.global.Usable ∧ settings.profile.Usable ∧
      ∀ tree, ∃ session, Session.open? true (some 12) tree = some session ∧
        ∀ table intent (s : Sentence) vs,
          (s.expand table session.cap intent).result = .ok vs → (vs.length : Int) ≤ 12 := by
  intro root d overrides settings
  have hroot : d.readDocument (.ofText "c.json") "utf-8" = .ok (.obj root) :=
    Disk.readDocument_of_file (by decide +kernel) rfl
  have hload : load d (.ofText "c.json") (some "short") overrides = .ok settings := by
    rw [load, loadDocument_of_readDocument hroot]
    rfl
  obtain ⟨hglobal, hprofile, -, hsession⟩ := usable_of_load hload
  refine ⟨hload, hglobal, hprofile, ?_⟩
  intro tree
  obtain ⟨session, hopen, hbound⟩ := hsession tree
  exact ⟨session, hopen, hbound 12 rfl⟩

end Settings

end Phrasing
