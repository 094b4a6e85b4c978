/-
  Phrasing/Proofs/Overlaying.lean
  ===============================
  **Overriding settings is editing their file.**

  Entries that are laid over others replace values in their places and stand
  behind everything else if their keys are new.  A document in which the global
  section and the chosen profile are edited in this way passes the same checks as
  the document with overrides, and fails at the same one.  Profiles that were not
  chosen come out as they would without the overrides.
-/
import Phrasing.Proofs.Checks
import Phrasing.Proofs.Reading

namespace Phrasing

/-! ### Entries laid over others -/

namespace Entries

variable {κ : Type} {α : Type} [DecidableEq κ]

/-- Each entry with the value that the overlay has for its key, then what is new in the overlay. -/
def overlaid (base overlay : Entries κ α) : Entries κ α :=
  base.map (fun e => (e.1, (overlay.get? e.1).getD e.2)) ++ overlay.without base.keys

/-- A value replaced in the base is one that the overlay has. -/
theorem overlaid_modify {base rest : Entries κ α} {key : κ} (hold : key ∈ base.keys)
    (hkey : key ∉ keys rest) (v : α) :
    overlaid (base.modify key fun _ => v) rest = overlaid base ((key, v) :: rest) := by
  rw [overlaid, overlaid, keys_modify, without_cons_of_mem hold, modify, List.map_map]
  congr 1
  apply List.map_congr_left
  intro e _
  dsimp only [Function.comp_apply]
  by_cases he : e.1 = key
  · rw [if_pos he, he, get?_eq_none_of_not_mem hkey, get?, if_pos rfl]
    rfl
  · rw [if_neg he, get?_cons_of_ne (Ne.symm he)]

/-- An entry put behind the base is one that the overlay has. -/
theorem overlaid_append {base rest : Entries κ α} {key : κ} (hnew : key ∉ base.keys)
    (hkey : key ∉ keys rest) (v : α) :
    overlaid (base ++ [(key, v)]) rest = overlaid base ((key, v) :: rest) := by
  have hkeys : keys (base ++ [(key, v)]) = base.keys ++ [key] := by
    rw [keys, List.map_append]
    rfl
  have hothers : rest.without (base.keys ++ [key]) = rest.without base.keys := by
    apply List.filter_congr
    intro e he
    have hne : e.1 ≠ key := fun heq => hkey (heq ▸ mem_keys_of_mem he)
    simp [hne]
  rw [overlaid, overlaid, without_cons_of_not_mem hnew, hkeys, hothers, List.map_append,
    List.map_singleton, get?_eq_none_of_not_mem hkey, List.append_assoc]
  congr 1
  apply List.map_congr_left
  intro e he
  have hne : key ≠ e.1 := fun heq => hnew (heq ▸ mem_keys_of_mem he)
  rw [get?_cons_of_ne hne]

/-- **What merging comes to.** -/
theorem merge_eq_overlaid {base overlay : Entries κ α} (hbase : base.WellFormed)
    (hoverlay : overlay.WellFormed) : merge base overlay = overlaid base overlay := by
  induction overlay generalizing base with
  | nil => simp [merge, overlaid, without, get?]
  | cons e rest ih =>
    obtain ⟨key, v⟩ := e
    obtain ⟨hkey, hrest⟩ := List.nodup_cons.mp hoverlay
    have hstep : merge base ((key, v) :: rest) = merge (base.insert key v) rest := rfl
    rw [hstep, ih (wellFormed_insert hbase key v) hrest, insert_eq_ite hbase]
    split
    · rename_i hhas
      exact overlaid_modify (has_iff_mem_keys.mp hhas) hkey v
    · rename_i hhas
      exact overlaid_append (fun hold => hhas (has_iff_mem_keys.mpr hold)) hkey v

end Entries

/-! ### Edited documents -/

/-- An object with its members edited; any other value as it is. -/
def Json.editFields (f : Entries Text Json → Entries Text Json) : Json → Json
  | .obj fields => .obj (f fields)
  | v => v

namespace Settings

/-- The document with the overrides written into its global section and into one profile. -/
def edited (name : Text) (overrides : Overrides) (root : Entries Text Json) : Entries Text Json :=
  (root.modify globalKey (Json.editFields (·.overlaid overrides.global))).modify profilesKey
    (Json.editFields (·.modify name (Json.editFields (·.overlaid overrides.profile))))

section Edited

variable {source : Path} {name : Text} {overrides : Overrides} {root : Entries Text Json}

theorem profilesOf_edited {overlay profiles : Entries Text Json} (hoverlay : overlay.WellFormed)
    (hprofiles : ∀ e ∈ profiles, e.2.WellFormed) :
    profilesOf source (some name) overlay profiles =
      profilesOf source (some name) []
        (profiles.modify name (Json.editFields (·.overlaid overlay))) := by
  induction profiles with
  | nil => rfl
  | cons e rest ih =>
    obtain ⟨key, v⟩ := e
    rw [List.forall_mem_cons] at hprofiles
    obtain ⟨hv, hrest⟩ := hprofiles
    have hstep : Entries.modify ((key, v) :: rest) name (Json.editFields (·.overlaid overlay)) =
        (if key = name then (key, Json.editFields (·.overlaid overlay) v) else (key, v)) ::
          Entries.modify rest name (Json.editFields (·.overlaid overlay)) := rfl
    rw [hstep]
    by_cases hkey : key = name
    · rw [if_pos hkey]
      cases v with
      | obj fields =>
        have hmerge := Entries.merge_eq_overlaid hv.1 hoverlay
        have hchosen : some name = some key := congrArg some hkey.symm
        rw [Json.editFields, profilesOf, profilesOf, if_pos hchosen, if_pos hchosen, hmerge,
          ih hrest]
        -- what is left is that nothing is laid over the edited fields
        rfl
      | null | bool | int | float | str | arr => rfl
    · rw [if_neg hkey]
      cases v with
      | obj fields =>
        have hother : ¬ some name = some key := fun heq => hkey (Option.some.inj heq).symm
        rw [profilesOf, profilesOf, if_neg hother, if_neg hother, ih hrest]
      | null | bool | int | float | str | arr => rfl

theorem get?_edited (key : Text) : (edited name overrides root).get? key =
    if key = globalKey then
      (root.get? globalKey).map (Json.editFields (·.overlaid overrides.global))
    else if key = profilesKey then (root.get? profilesKey).map
      (Json.editFields (·.modify name (Json.editFields (·.overlaid overrides.profile))))
    else root.get? key := by
  have hdifferent : globalKey ≠ profilesKey := by decide
  rw [edited, Entries.get?_modify, Entries.get?_modify]
  by_cases hglobal : key = globalKey
  · subst hglobal
    rw [if_neg hdifferent, if_pos rfl, if_pos rfl]
  · rw [if_neg hglobal, if_neg hglobal]
    split
    · rename_i hprofiles
      rw [hprofiles]
    · rfl

theorem withProfiles_edited {overlay : Entries Text Json} (hoverlay : overlay.WellFormed)
    (version : Int) (global : GlobalSettings) {given : Option Json}
    (hgiven : ∀ v, given = some v → v.WellFormed) :
    withProfiles source (some name) overlay version global given =
      withProfiles source (some name) [] version global
        (given.map (Json.editFields (·.modify name (Json.editFields (·.overlaid overlay))))) := by
  cases given with
  | none => rfl
  | some v =>
    have hv := hgiven v rfl
    cases v with
    | obj profiles =>
      have hrow : profilesOf source (some name) overlay profiles = profilesOf source (some name) []
          (Entries.modify profiles name (Json.editFields (·.overlaid overlay))) :=
        profilesOf_edited hoverlay (Json.wellFormed_of_mem_fields hv.2)
      -- a section without profiles is refused, edited or not
      cases profiles with
      | nil => rfl
      | cons first rest =>
        rw [withProfiles, hrow]
        rfl
    | null | bool | int | float | str | arr => rfl

theorem givenName_of_ne_nil (hname : name ≠ []) : givenName (some name) = some name := by
  rw [givenName, Option.filter_some, if_pos (by simpa using hname)]

/-- The edited document is checked as the document with overrides is. -/
theorem documentOf_edited (hname : name ≠ []) (hglobal : overrides.global.WellFormed)
    (hprofile : overrides.profile.WellFormed) (hroot : (Json.obj root).WellFormed) :
    documentOf source (some name) overrides root =
      documentOf source (some name) ⟨[], []⟩ (edited name overrides root) := by
  have hinside : ∀ key v, root.get? key = some v → v.WellFormed := by
    intro key v hget
    exact Json.wellFormed_of_mem_fields hroot.2 _ (Entries.mem_of_get? hget)
  have hversion : valueOf (edited name overrides root) versionKey = valueOf root versionKey := by
    rw [valueOf, get?_edited, if_neg (by decide), if_neg (by decide), valueOf]
  rw [documentOf_eq, documentOf_eq, hversion, givenName_of_ne_nil hname, get?_edited, if_pos rfl,
    get?_edited, if_neg (by decide), if_pos rfl]
  apply congrArg
  funext version
  cases hget : root.get? globalKey with
  | none => rfl
  | some v =>
    cases v with
    | obj entries =>
      have hmerge := Entries.merge_eq_overlaid (hinside _ _ hget).1 hglobal
      have hnothing : Entries.merge (Entries.overlaid entries overrides.global) [] =
          Entries.overlaid entries overrides.global := rfl
      dsimp only [Option.map_some, Json.editFields]
      rw [hmerge, hnothing]
      apply congrArg
      funext global
      exact withProfiles_edited hprofile version global (hinside profilesKey)
    | null | bool | int | float | str | arr => rfl

end Edited

/-! ### Profiles that were not chosen -/

theorem exists_of_bind_eq_ok {α β : Type} {x : Except Failure α} {f : α → Except Failure β} {b : β}
    (h : x >>= f = .ok b) : ∃ a, x = .ok a ∧ f a = .ok b := by
  cases x with
  | error e => cases h
  | ok a => exact ⟨a, rfl, h⟩

section Others

variable {source : Path} {name : Text} {root : Entries Text Json}

/-- Both rows end well, so each profile was checked in both; only one had other fields. -/
theorem without_profilesOf {overlay overlay' profiles : Entries Text Json}
    {found found' : Entries Text Profile}
    (h : profilesOf source (some name) overlay profiles = .ok found)
    (h' : profilesOf source (some name) overlay' profiles = .ok found') :
    found.without [name] = found'.without [name] := by
  induction profiles generalizing found found' with
  | nil =>
    cases h
    cases h'
    rfl
  | cons e rest ih =>
    obtain ⟨key, v⟩ := e
    cases v with
    | obj fields =>
      obtain ⟨profile, hprofile, h⟩ := exists_of_bind_eq_ok h
      obtain ⟨others, hothers, h⟩ := exists_of_bind_eq_ok h
      obtain ⟨profile', hprofile', h'⟩ := exists_of_bind_eq_ok h'
      obtain ⟨others', hothers', h'⟩ := exists_of_bind_eq_ok h'
      have hrest := ih hothers hothers'
      cases h
      cases h'
      by_cases hkey : key = name
      · have hmem : key ∈ [name] := List.mem_singleton.mpr hkey
        rw [Entries.without_cons_of_mem hmem, Entries.without_cons_of_mem hmem, hrest]
      · have hnot : key ∉ [name] := mt List.mem_singleton.mp hkey
        have hother : ¬ some name = some key := fun heq => hkey (Option.some.inj heq).symm
        rw [if_neg hother] at hprofile hprofile'
        obtain rfl := Except.ok.inj (hprofile.symm.trans hprofile')
        rw [Entries.without_cons_of_not_mem hnot, Entries.without_cons_of_not_mem hnot, hrest]
    | null | bool | int | float | str | arr => cases h

/-- What a document that was read is made of. -/
theorem parts_of_documentOf {profile : Option Text} {overrides : Overrides}
    {document : SettingsDocument} (h : documentOf source profile overrides root = .ok document) :
    requirePositive source versionKey (valueOf root versionKey) = .ok document.version ∧
    ∃ entries profiles, root.get? globalKey = some (.obj entries) ∧
      globalOf source (Entries.merge entries overrides.global) = .ok document.global ∧
      root.get? profilesKey = some (.obj profiles) ∧
      profilesOf source (givenName profile) overrides.profile profiles = .ok document.profiles := by
  rw [documentOf_eq] at h
  obtain ⟨version, hversion, h⟩ := exists_of_bind_eq_ok h
  split at h
  · rename_i entries hentries
    obtain ⟨global, hglobal, h⟩ := exists_of_bind_eq_ok h
    unfold withProfiles at h
    split at h
    · rename_i first rest hprofiles
      obtain ⟨profiles, hrow, h⟩ := exists_of_bind_eq_ok h
      have hdocument : document = ⟨source, version, global, profiles⟩ := by
        split at h
        · split at h
          · exact (Except.ok.inj h).symm
          · cases h
        · exact (Except.ok.inj h).symm
      rw [hdocument]
      exact ⟨hversion, entries, first :: rest, hentries, hglobal, hprofiles, hrow⟩
    · cases h
  · cases h

/-- What overrides of the chosen profile do not touch. -/
theorem untouched_of_documentOf {global overlay overlay' : Entries Text Json}
    {document document' : SettingsDocument} (hname : name ≠ [])
    (h : documentOf source (some name) ⟨global, overlay⟩ root = .ok document)
    (h' : documentOf source (some name) ⟨global, overlay'⟩ root = .ok document') :
    document.global = document'.global ∧
      document.profiles.without [name] = document'.profiles.without [name] := by
  obtain ⟨-, entries, profiles, hentries, hglobal, hprofiles, hrow⟩ := parts_of_documentOf h
  obtain ⟨-, entries', profiles', hentries', hglobal', hprofiles', hrow'⟩ := parts_of_documentOf h'
  cases hentries.symm.trans hentries'
  cases hprofiles.symm.trans hprofiles'
  rw [givenName_of_ne_nil hname] at hrow hrow'
  exact ⟨Except.ok.inj (hglobal.symm.trans hglobal'), without_profilesOf hrow hrow'⟩

end Others

/-- **Overriding is editing.**  Settings loaded from a file with overrides are those loaded without
any from the file in which the overrides are written into the global section and into the named
profile; and if the one fails, the other fails alike.  Overriding a profile changes neither the
global settings nor another profile. -/
theorem load_edited [Host] {name : Text} (hname : name ≠ []) {overrides : Overrides}
    (hglobal : overrides.global.WellFormed) (hprofile : overrides.profile.WellFormed) (p : Path) :
    (∀ (d d' : Disk) (root : Entries Text Json),
      d.readDocument p defaultEncoding = .ok (.obj root) →
      d'.readDocument p defaultEncoding = .ok (.obj (edited name overrides root)) →
      loadDocument d p (some name) overrides = loadDocument d' p (some name) ⟨[], []⟩ ∧
        load d p (some name) overrides = load d' p (some name) ⟨[], []⟩) ∧
    ∀ (d : Disk) (document document' : SettingsDocument),
      loadDocument d p (some name) overrides = .ok document →
      loadDocument d p (some name) ⟨overrides.global, []⟩ = .ok document' →
      document.global = document'.global ∧
        document.profiles.without [name] = document'.profiles.without [name] := by
  constructor
  · intro d d' root hroot hedited
    have hdocument : loadDocument d p (some name) overrides =
        loadDocument d' p (some name) ⟨[], []⟩ := by
      rw [loadDocument_of_readDocument hroot, loadDocument_of_readDocument hedited]
      exact documentOf_edited hname hglobal hprofile (Disk.wellFormed_of_readDocument hroot)
    refine ⟨hdocument, ?_⟩
    rw [load, load, hdocument]
  · intro d document document' h h'
    obtain ⟨root, hroot, h⟩ := loadDocument_eq_ok_iff.mp h
    obtain ⟨root', hroot', h'⟩ := loadDocument_eq_ok_iff.mp h'
    cases hroot.symm.trans hroot'
    exact untouched_of_documentOf hname h h'

/-- The encoding is replaced and the format added; the cap of one of two profiles is replaced. -/
theorem load_edited_two_profiles :
    let profile (cap : Json) : Json := .obj [
      ("description", .str "d"), ("max_variants_per_sentence", cap),
      ("use_synonyms_in_entity_value_provider", .bool false)]
    let root : Entries Text Json := [
      ("profiles", .obj [("a", profile .null), ("b", profile (.int 5))]),
      ("global", .obj [("encoding", .str "ascii"), ("note", .null)]), ("version", .int 2)]
    let overrides : Overrides := ⟨[("output_format", .str "parquet"), ("encoding", .str "latin1")],
      [("max_variants_per_sentence", .int 3)]⟩
    let d : Disk := [Disk.textFile "c.json" ((Json.obj root).write .tree)]
    let d' : Disk := [Disk.textFile "c.json" ((Json.obj [
      ("profiles", .obj [("a", profile .null), ("b", profile (.int 3))]),
      ("global", .obj [("encoding", .str "latin1"), ("note", .null),
        ("output_format", .str "parquet")]), ("version", .int 2)]).write .tree)]
    let p := Path.ofText "c.json"
    load d p (some "b") overrides = load d' p (some "b") ⟨[], []⟩ ∧
      load d' p (some "b") ⟨[], []⟩ = .ok ⟨⟨"latin1", .table⟩, ⟨"d", false, some 3⟩⟩ ∧
      ∃ document document',
        loadDocument d p (some "b") overrides = .ok document ∧
        loadDocument d p (some "b") ⟨overrides.global, []⟩ = .ok document' ∧
        document.profiles ≠ document'.profiles ∧
        document.profiles.without ["b"] = document'.profiles.without ["b"] := by
  intro profile root overrides d d' p
  have hroot : d.readDocument p "utf-8" = .ok (.obj root) :=
    Disk.readDocument_of_file (by decide +kernel) rfl
  have hedited : d'.readDocument p "utf-8" = .ok (.obj (edited "b" overrides root)) :=
    Disk.readDocument_of_file (by decide +kernel) rfl
  obtain ⟨hsame, hothers⟩ := @load_edited _ "b" (by decide) overrides (by decide) (by decide) p
  have hloaded : load d' p (some "b") ⟨[], []⟩ =
      .ok ⟨⟨"latin1", .table⟩, ⟨"d", false, some 3⟩⟩ := by
    rw [load, loadDocument_of_readDocument hedited]
    rfl
  have hwith : loadDocument d p (some "b") overrides = .ok ⟨p, 2, ⟨"latin1", .table⟩,
      [("a", ⟨"d", false, none⟩), ("b", ⟨"d", false, some 3⟩)]⟩ := by
    rw [loadDocument_of_readDocument hroot]
    rfl
  have hwithout : loadDocument d p (some "b") ⟨overrides.global, []⟩ = .ok ⟨p, 2,
      ⟨"latin1", .table⟩, [("a", ⟨"d", false, none⟩), ("b", ⟨"d", false, some 5⟩)]⟩ := by
    rw [loadDocument_of_readDocument hroot]
    rfl
  exact ⟨(hsame d d' root hroot hedited).2, hloaded, _, _, hwith, hwithout, by decide,
    (hothers d _ _ hwith hwithout).2⟩

end Settings

end Phrasing
