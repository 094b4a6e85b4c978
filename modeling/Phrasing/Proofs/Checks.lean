/-
  Phrasing/Proofs/Checks.lean
  ===========================
  **What the checks of settings come to.**

  A check ends in one of three ways.  It accepts what it was given, it rejects it
  with a problem that is reported, or it comes to an infinite number, from which
  no integer can be cut.  Which of the three it is hangs on the values alone, and
  it is said here without the checks.  Checks in a row accept if all of them do,
  and the first that does not decides how the row ends.
-/
import Phrasing.Proofs.Entries
import Phrasing.Proofs.Trim
import Phrasing.Settings.Load

namespace Phrasing

/-! ### Ways to end -/

/-- How a check ends: what it accepts is good, and nothing but an infinite number makes it fail
without a problem that is reported. -/
inductive Checked {α : Type} (source : Path) (accepts overflows : Prop) (good : α → Prop)
    (outcome : Except Failure α) : Prop where
  | accepted (a : α) (ha : good a) (h : outcome = .ok a) (yes : accepts) (finite : ¬ overflows)
  | rejected (problem : SettingsProblem) (h : outcome = .error (.settings source problem))
      (no : ¬ accepts) (finite : ¬ overflows)
  | overflowed (h : outcome = .error .infiniteSetting) (no : ¬ accepts) (infinite : overflows)

namespace Checked

variable {α β : Type} {source : Path} {accepts overflows accepts' overflows' : Prop}
  {good : α → Prop} {good' : β → Prop} {outcome : Except Failure α}

theorem good_of_eq_ok (h : Checked source accepts overflows good outcome) {a : α}
    (ha : outcome = .ok a) : accepts ∧ good a := by
  cases h with
  | accepted b hb h yes _ =>
    obtain rfl : a = b := Except.ok.inj (ha.symm.trans h)
    exact ⟨yes, hb⟩
  | rejected problem h _ _ =>
    rw [h] at ha
    cases ha
  | overflowed h _ _ =>
    rw [h] at ha
    cases ha

theorem finite_of_eq_ok (h : Checked source accepts overflows good outcome) {a : α}
    (ha : outcome = .ok a) : ¬ overflows := by
  cases h with
  | accepted _ _ _ _ finite => exact finite
  | rejected _ _ _ finite => exact finite
  | overflowed h _ _ =>
    rw [h] at ha
    cases ha

/-- The same check, with its conditions said in other words. -/
theorem reword (h : Checked source accepts overflows good outcome) (haccepts : accepts ↔ accepts')
    (hoverflows : overflows ↔ overflows') : Checked source accepts' overflows' good outcome := by
  rw [propext haccepts, propext hoverflows] at h
  exact h

theorem pure {a : α} (ha : good a) : Checked source True False good (Except.ok a) :=
  .accepted a ha rfl trivial id

/-- A check and another one behind it. -/
theorem bind {f : α → Except Failure β} (h : Checked source accepts overflows good outcome)
    (hf : ∀ a, good a → Checked source accepts' overflows' good' (f a)) :
    Checked source (accepts ∧ accepts') (overflows ∨ accepts ∧ overflows') good'
      (outcome >>= f) := by
  cases h with
  | rejected problem h no finite =>
    subst h
    refine .rejected problem rfl (fun yes => no yes.1) ?_
    rintro (infinite | ⟨yes, -⟩)
    · exact finite infinite
    · exact no yes
  | overflowed h no infinite =>
    subst h
    exact .overflowed rfl (fun yes => no yes.1) (Or.inl infinite)
  | accepted a ha h yes finite =>
    subst h
    cases hf a ha with
    | accepted b hb h' yes' finite' =>
      refine .accepted b hb h' ⟨yes, yes'⟩ ?_
      rintro (infinite | ⟨-, infinite⟩)
      · exact finite infinite
      · exact finite' infinite
    | rejected problem h' no' finite' =>
      refine .rejected problem h' (fun both => no' both.2) ?_
      rintro (infinite | ⟨-, infinite⟩)
      · exact finite infinite
      · exact finite' infinite
    | overflowed h' no' infinite' =>
      exact .overflowed h' (fun both => no' both.2) (Or.inr ⟨yes, infinite'⟩)

end Checked

/-! ### Values -/

namespace Json

/-- The integer that a value stands for, once a fraction is cut off. -/
def integer? : Json → Option Int
  | .bool b => some (if b then 1 else 0)
  | .int n => some n
  | .float x => x.truncate?
  | .str t => t.toInt?
  | _ => none

/-- A string that is not blank. -/
def IsWords (v : Json) : Prop := ∃ t, v = .str t ∧ t.isBlank = false

def IsFlag (v : Json) : Prop := ∃ b, v = .bool b

/-- The name of a format, in letters of either case and with blanks around it. -/
def IsFormat (v : Json) : Prop :=
  ∃ t f, v = .str t ∧ t.isBlank = false ∧ t.trim.toLower = OutputFormat.name f

def IsInfinite (v : Json) : Prop := ∃ negative, v = .float (.infinite negative)

instance (v : Json) : Decidable v.IsInfinite :=
  match v with
  | .float (.infinite negative) => isTrue ⟨negative, rfl⟩
  | .float (.finite _ _ _) | .float .nan => isFalse fun ⟨_, h⟩ => nomatch h
  | .null | .bool _ | .int _ | .str _ | .arr _ | .obj _ => isFalse fun ⟨_, h⟩ => nomatch h

def IsPositive (v : Json) : Prop := ∃ n, v.integer? = some n ∧ 0 < n

/-- No cap at all, or one that is above zero; true and false are no caps. -/
def IsCap (v : Json) : Prop := v = .null ∨ (¬ v.IsFlag ∧ v.IsPositive)

theorem not_isPositive_of_isInfinite {v : Json} (h : v.IsInfinite) : ¬ v.IsPositive := by
  obtain ⟨negative, rfl⟩ := h
  rintro ⟨n, hn, -⟩
  cases hn

end Json

theorem Text.trim_eq_nil_iff (t : Text) : t.trim = [] ↔ t.isBlank = true := by
  rw [trim, trimEnd_eq_nil_iff, isBlank_trimStart]

theorem Text.trim_ne_nil {t : Text} (h : t.isBlank = false) : t.trim ≠ [] := by
  rw [Ne, trim_eq_nil_iff, h]
  exact Bool.false_ne_true

/-- A trimmed text has nothing left to trim. -/
theorem Text.trim_trim (t : Text) : t.trim.trim = t.trim := by
  by_cases hblank : t.trim = []
  · rw [hblank]
    rfl
  have hstart : t.trim.startsBlank = false := by
    rw [startsBlank, trim, head?_trimEnd hblank]
    exact startsBlank_trimStart t
  have hend : t.trim.endsBlank = false := endsBlank_trimEnd t.trimStart
  rw [trim, (trimStart_eq_self_iff _).mpr hstart, (trimEnd_eq_self_iff _).mpr hend]

theorem OutputFormat.ofName?_eq_some_iff {t : Text} {f : OutputFormat} :
    ofName? t = some f ↔ f.name = t := by
  constructor
  · intro h
    have hfound := List.find?_some h
    exact of_decide_eq_true hfound
  · rintro rfl
    cases f with
    | tree => rfl
    | table => rfl

namespace Settings

/-! ### Fields -/

section Fields

variable (source : Path) (field : Text) (v : Json)

theorem checked_requireText : Checked source v.IsWords False
    (fun t => ∃ s : Text, v = .str s ∧ s.isBlank = false ∧ t = s.trim)
    (requireText source field v) := by
  cases v with
  | str t =>
    by_cases hblank : t.isBlank = true
    · refine .rejected (.blank field) ?_ ?_ id
      · rw [requireText, (Text.trim_eq_nil_iff t).mpr hblank]
        rfl
      · rintro ⟨s, ⟨⟩, hs⟩
        rw [hblank] at hs
        cases hs
    · have hwords := Bool.eq_false_iff.mpr hblank
      have htrim := Text.trim_ne_nil hwords
      refine .accepted t.trim ⟨t, rfl, hwords, rfl⟩ ?_ ⟨t, rfl, hwords⟩ id
      rw [requireText, if_neg (by simpa using htrim)]
  | null | bool | int | float | arr | obj =>
    refine .rejected (.notString field) rfl ?_ id
    rintro ⟨t, ht, -⟩
    cases ht

theorem checked_requireFlag : Checked source v.IsFlag False (fun _ => True)
    (requireFlag source field v) := by
  cases v with
  | bool b => exact .accepted b trivial rfl ⟨b, rfl⟩ id
  | null | int | float | str | arr | obj =>
    refine .rejected (.notFlag field) rfl ?_ id
    rintro ⟨b, hb⟩
    cases hb

theorem toInteger_of_integer? {n : Int} (h : v.integer? = some n) :
    toInteger source field v = .ok n := by
  cases v with
  | bool b =>
    obtain rfl := Option.some.inj h
    rfl
  | int m =>
    obtain rfl := Option.some.inj h
    rfl
  | float x =>
    cases x with
    | finite negative mantissa exponent =>
      obtain rfl := Option.some.inj h
      rfl
    | infinite | nan => cases h
  | str t =>
    have ht : t.toInt? = some n := h
    rw [toInteger, ht]
  | null | arr | obj => cases h

theorem toInteger_of_integer?_eq_none (h : v.integer? = none) (hfinite : ¬ v.IsInfinite) :
    toInteger source field v = .error (.settings source (.notInteger field)) := by
  cases v with
  | bool | int => cases h
  | float x =>
    cases x with
    | finite => cases h
    | infinite negative => exact absurd ⟨negative, rfl⟩ hfinite
    | nan => rfl
  | str t =>
    have ht : t.toInt? = none := h
    rw [toInteger, ht]
  | null | arr | obj => rfl

theorem checked_requirePositive : Checked source v.IsPositive v.IsInfinite
    (fun n => v.integer? = some n ∧ 0 < n) (requirePositive source field v) := by
  by_cases hinfinite : v.IsInfinite
  · refine .overflowed ?_ (Json.not_isPositive_of_isInfinite hinfinite) hinfinite
    obtain ⟨negative, rfl⟩ := hinfinite
    rfl
  cases hn : v.integer? with
  | none =>
    refine .rejected (.notInteger field) ?_ ?_ hinfinite
    · rw [requirePositive, toInteger_of_integer?_eq_none source field v hn hinfinite]
      rfl
    · rintro ⟨n, hsome, -⟩
      rw [hn] at hsome
      cases hsome
  | some n =>
    have hinteger := toInteger_of_integer? source field v hn
    by_cases hpositive : 0 < n
    · refine .accepted n ⟨rfl, hpositive⟩ ?_ ⟨n, hn, hpositive⟩ hinfinite
      rw [requirePositive, hinteger]
      exact if_pos hpositive
    · refine .rejected (.notPositive field) ?_ ?_ hinfinite
      · rw [requirePositive, hinteger]
        exact if_neg hpositive
      · rintro ⟨m, hm, hpos⟩
        obtain rfl : n = m := Option.some.inj (hn.symm.trans hm)
        exact hpositive hpos

theorem checked_optionalPositive : Checked source v.IsCap v.IsInfinite
    (fun cap => ∀ n, cap = some n → v.integer? = some n ∧ 0 < n)
    (optionalPositive source field v) := by
  by_cases hnull : v = .null
  · subst hnull
    refine .accepted none (fun n hn => nomatch hn) rfl (Or.inl rfl) ?_
    rintro ⟨negative, h⟩
    cases h
  by_cases hflag : v.IsFlag
  · obtain ⟨b, rfl⟩ := hflag
    refine .rejected (.notInteger field) rfl ?_ ?_
    · rintro (h | ⟨hno, -⟩)
      · cases h
      · exact hno ⟨b, rfl⟩
    · rintro ⟨negative, h⟩
      cases h
  have hrequired : optionalPositive source field v = (requirePositive source field v).map some := by
    cases v with
    | null => exact absurd rfl hnull
    | bool b => exact absurd ⟨b, rfl⟩ hflag
    | int | float | str | arr | obj => rfl
  have hcap : v.IsCap ↔ v.IsPositive := by
    constructor
    · rintro (h | ⟨-, h⟩)
      · exact absurd h hnull
      · exact h
    · exact fun h => Or.inr ⟨hflag, h⟩
  have hmap : (requirePositive source field v).map some =
      (requirePositive source field v >>= fun n => .ok (some n)) := by
    cases requirePositive source field v with
    | error | ok => rfl
  rw [hrequired, hmap]
  refine ((checked_requirePositive source field v).bind fun n hn => .pure ?_).reword ?_ ?_
  · rintro m ⟨⟩
    exact hn
  · rw [and_true, hcap]
  · rw [and_false, or_false]

end Fields

/-! ### Sections -/

/-- The value of a setting; one that is not given counts as null. -/
def valueOf (entries : Entries Text Json) (key : Text) : Json := (entries.get? key).getD .null

structure GlobalSound (entries : Entries Text Json) : Prop where
  encoding : ((entries.get? encodingKey).getD (.str defaultEncoding)).IsWords
  format : ((entries.get? formatKey).getD (.str OutputFormat.tree.name)).IsFormat

structure ProfileSound (fields : Entries Text Json) : Prop where
  description : (valueOf fields descriptionKey).IsWords
  useSynonyms : (valueOf fields useSynonymsKey).IsFlag
  maxVariants : (valueOf fields maxVariantsKey).IsCap

/-- A profile with an infinite cap in which everything before the cap is sound. -/
structure ProfileOverflows (fields : Entries Text Json) : Prop where
  description : (valueOf fields descriptionKey).IsWords
  useSynonyms : (valueOf fields useSynonymsKey).IsFlag
  maxVariants : (valueOf fields maxVariantsKey).IsInfinite

/-- The fields of a profile once the overrides are laid over those of the chosen one. -/
def laidOver (chosen : Option Text) (overrides : Entries Text Json) (name : Text)
    (fields : Entries Text Json) : Entries Text Json :=
  if chosen = some name then Entries.merge fields overrides else fields

def ProfilesSound (chosen : Option Text) (overrides : Entries Text Json)
    (profiles : Entries Text Json) : Prop :=
  ∀ e ∈ profiles, ∃ fields, e.2 = .obj fields ∧
    ProfileSound (laidOver chosen overrides e.1 fields)

/-- Of the profiles, a sound row at the start is followed by one with an infinite cap. -/
def ProfilesOverflow (chosen : Option Text) (overrides : Entries Text Json)
    (profiles : Entries Text Json) : Prop :=
  ∃ before name fields after, profiles = before ++ (name, .obj fields) :: after ∧
    ProfilesSound chosen overrides before ∧
    ProfileOverflows (laidOver chosen overrides name fields)

end Settings

structure GlobalSettings.Usable (g : GlobalSettings) : Prop where
  encoding_ne_nil : g.encoding ≠ []
  trim_encoding : g.encoding.trim = g.encoding
  format_name : g.format.name = "json" ∨ g.format.name = "parquet"

structure Profile.Usable (p : Profile) : Prop where
  description_ne_nil : p.description ≠ []
  trim_description : p.description.trim = p.description
  one_le_maxVariants : ∀ n, p.maxVariants = some n → 1 ≤ n

namespace Settings

section Sections

variable (source : Path)

theorem usable_global {v : Json} {encoding : Text}
    (h : ∃ s : Text, v = .str s ∧ s.isBlank = false ∧ encoding = s.trim) (f : OutputFormat) :
    GlobalSettings.Usable ⟨encoding, f⟩ := by
  obtain ⟨s, -, hs, rfl⟩ := h
  refine ⟨Text.trim_ne_nil hs, Text.trim_trim s, ?_⟩
  cases f with
  | tree => exact Or.inl rfl
  | table => exact Or.inr rfl

theorem checked_globalOf (entries : Entries Text Json) :
    Checked source (GlobalSound entries) False GlobalSettings.Usable
      (globalOf source entries) := by
  have hencoding := checked_requireText source (fieldName [globalKey, encodingKey])
    ((entries.get? encodingKey).getD (.str defaultEncoding))
  have hformat := checked_requireText source (fieldName [globalKey, formatKey])
    ((entries.get? formatKey).getD (.str OutputFormat.tree.name))
  refine (hencoding.bind fun encoding hwords => hformat.bind fun format hgiven =>
    (show Checked source ((entries.get? formatKey).getD (.str OutputFormat.tree.name)).IsFormat
      False GlobalSettings.Usable _ from ?_)).reword ?_ ?_
  · obtain ⟨t, ht, hblank, rfl⟩ := hgiven
    cases hname : OutputFormat.ofName? t.trim.toLower with
    | some f =>
      refine .accepted ⟨encoding, f⟩ (usable_global hwords f) rfl ⟨t, f, ht, hblank, ?_⟩ id
      exact (OutputFormat.ofName?_eq_some_iff.mp hname).symm
    | none =>
      refine .rejected (.unknownFormat t.trim.toLower) rfl ?_ id
      rintro ⟨s, f, hs, -, hf⟩
      obtain rfl : t = s := Json.str.inj (ht.symm.trans hs)
      rw [OutputFormat.ofName?_eq_some_iff.mpr hf.symm] at hname
      cases hname
  · constructor
    · rintro ⟨hencoding, -, hformat⟩
      exact ⟨hencoding, hformat⟩
    · rintro ⟨hencoding, t, f, ht, hblank, hf⟩
      exact ⟨hencoding, ⟨t, ht, hblank⟩, t, f, ht, hblank, hf⟩
  · simp only [and_false, or_false]

/-- A required field that is missing counts as null, which no check accepts. -/
theorem not_required_of_missing {fields : Entries Text Json}
    (h : (requiredFields.filter fun key => !fields.has key) ≠ []) :
    ¬ ((valueOf fields descriptionKey).IsWords ∧ (valueOf fields useSynonymsKey).IsFlag) := by
  rintro ⟨⟨t, ht, -⟩, b, hb⟩
  apply h
  have hnull : ∀ key, fields.has key = false → valueOf fields key = .null := by
    intro key hkey
    rw [Entries.has, Option.isSome_eq_false_iff, Option.isNone_iff_eq_none] at hkey
    rw [valueOf, hkey]
    rfl
  rw [List.filter_eq_nil_iff]
  intro key hkey hmissing
  have hvalue := hnull key (by simpa using hmissing)
  have hcases : key = descriptionKey ∨ key = useSynonymsKey := by simpa [requiredFields] using hkey
  rcases hcases with rfl | rfl
  · rw [hvalue] at ht
    cases ht
  · rw [hvalue] at hb
    cases hb

theorem checked_profileOf (name : Text) (fields : Entries Text Json) :
    Checked source (ProfileSound fields) (ProfileOverflows fields) Profile.Usable
      (profileOf source name fields) := by
  unfold profileOf
  dsimp only
  split
  · rename_i hmissing
    have hrequired := not_required_of_missing (by simpa using hmissing)
    refine .rejected _ rfl ?_ ?_
    · intro hsound
      exact hrequired ⟨hsound.description, hsound.useSynonyms⟩
    · intro hoverflows
      exact hrequired ⟨hoverflows.description, hoverflows.useSynonyms⟩
  · have hdescription := checked_requireText source (fieldName [profilesKey, name, descriptionKey])
      (valueOf fields descriptionKey)
    have hflag := checked_requireFlag source (fieldName [profilesKey, name, useSynonymsKey])
      (valueOf fields useSynonymsKey)
    have hcap := checked_optionalPositive source (fieldName [profilesKey, name, maxVariantsKey])
      (valueOf fields maxVariantsKey)
    refine (hdescription.bind fun description hwords => hflag.bind fun useSynonyms _ =>
      hcap.bind fun maxVariants hpositive => .pure ?_).reword ?_ ?_
    · obtain ⟨t, -, ht, rfl⟩ := hwords
      refine ⟨Text.trim_ne_nil ht, Text.trim_trim t, ?_⟩
      intro n hn
      have hn := (hpositive n hn).2
      omega
    · constructor
      · rintro ⟨hdescription, hflag, hcap, -⟩
        exact ⟨hdescription, hflag, hcap⟩
      · intro h
        exact ⟨h.description, h.useSynonyms, h.maxVariants, trivial⟩
    · constructor
      · rintro (⟨⟨⟩⟩ | ⟨hdescription, ⟨⟨⟩⟩ | ⟨hflag, hinfinite | ⟨-, ⟨⟩⟩⟩⟩)
        exact ⟨hdescription, hflag, hinfinite⟩
      · intro h
        exact Or.inr ⟨h.description, Or.inr ⟨h.useSynonyms, Or.inl h.maxVariants⟩⟩

section Profiles

variable (chosen : Option Text) (overrides : Entries Text Json)

theorem profilesSound_cons {name : Text} {fields : Entries Text Json}
    {rest : Entries Text Json} :
    ProfilesSound chosen overrides ((name, .obj fields) :: rest) ↔
      ProfileSound (laidOver chosen overrides name fields) ∧
        ProfilesSound chosen overrides rest := by
  rw [ProfilesSound, List.forall_mem_cons]
  constructor
  · rintro ⟨⟨found, ⟨⟩, hsound⟩, hrest⟩
    exact ⟨hsound, hrest⟩
  · rintro ⟨hsound, hrest⟩
    exact ⟨⟨fields, rfl, hsound⟩, hrest⟩

theorem profilesOverflow_cons {name : Text} {fields : Entries Text Json}
    {rest : Entries Text Json} :
    ProfilesOverflow chosen overrides ((name, .obj fields) :: rest) ↔
      ProfileOverflows (laidOver chosen overrides name fields) ∨
        ProfileSound (laidOver chosen overrides name fields) ∧
          ProfilesOverflow chosen overrides rest := by
  constructor
  · rintro ⟨before, other, found, after, hsplit, hbefore, hoverflows⟩
    cases before with
    | nil =>
      obtain ⟨hfirst, -⟩ := List.cons.inj hsplit
      cases hfirst
      exact Or.inl hoverflows
    | cons e before =>
      obtain ⟨rfl, hrest⟩ := List.cons.inj hsplit
      obtain ⟨hsound, hbefore⟩ := (profilesSound_cons chosen overrides).mp hbefore
      exact Or.inr ⟨hsound, before, other, found, after, hrest, hbefore, hoverflows⟩
  · rintro (hoverflows | ⟨hsound, before, other, found, after, rfl, hbefore, hoverflows⟩)
    · exact ⟨[], name, fields, rest, rfl, (fun e he => nomatch he), hoverflows⟩
    · refine ⟨(name, .obj fields) :: before, other, found, after, rfl, ?_, hoverflows⟩
      exact (profilesSound_cons chosen overrides).mpr ⟨hsound, hbefore⟩

theorem checked_profilesOf (profiles : Entries Text Json) :
    Checked source (ProfilesSound chosen overrides profiles)
      (ProfilesOverflow chosen overrides profiles)
      (fun found => Entries.keys found = Entries.keys profiles ∧ ∀ e ∈ found, e.2.Usable)
      (profilesOf source chosen overrides profiles) := by
  induction profiles with
  | nil =>
    refine (Checked.pure ⟨rfl, fun e he => nomatch he⟩).reword ?_ ?_
    · constructor
      · intro _ e he
        cases he
      · exact fun _ => trivial
    · constructor
      · intro h
        cases h
      · rintro ⟨before, name, fields, after, hsplit, -⟩
        exact absurd hsplit.symm (List.append_ne_nil_of_right_ne_nil _ (List.cons_ne_nil _ _))
  | cons e rest ih =>
    obtain ⟨name, v⟩ := e
    cases v with
    | obj fields =>
      refine ((checked_profileOf source name (laidOver chosen overrides name fields)).bind
        fun profile hprofile => ih.bind fun found hfound => .pure ?_).reword ?_ ?_
      · refine ⟨congrArg (name :: ·) hfound.1, ?_⟩
        rw [List.forall_mem_cons]
        exact ⟨hprofile, hfound.2⟩
      · rw [profilesSound_cons, and_true]
      · rw [profilesOverflow_cons, and_false, or_false]
    | null | bool | int | float | str | arr =>
      refine .rejected (.profileNotObject name) rfl ?_ ?_
      · intro hsound
        obtain ⟨fields, hfields, -⟩ := hsound _ List.mem_cons_self
        cases hfields
      · rintro ⟨before, other, fields, after, hsplit, hbefore, -⟩
        cases before with
        | nil => cases (List.cons.inj hsplit).1
        | cons first before =>
          obtain ⟨rfl, -⟩ := List.cons.inj hsplit
          obtain ⟨found, hfound, -⟩ := hbefore _ List.mem_cons_self
          cases hfound

end Profiles

end Sections

/-! ### Documents -/

/-- The document has a global section, and it is sound once the overrides are laid over it. -/
def HasGlobal (overrides : Overrides) (root : Entries Text Json) : Prop :=
  ∃ entries, root.get? globalKey = some (.obj entries) ∧
    GlobalSound (Entries.merge entries overrides.global)

/-- The document has profiles, all of them sound, and the chosen one is among them. -/
def HasProfiles (chosen : Option Text) (overrides : Overrides) (root : Entries Text Json) : Prop :=
  ∃ profiles, root.get? profilesKey = some (.obj profiles) ∧ profiles ≠ [] ∧
    ProfilesSound chosen overrides.profile profiles ∧
    ∀ name, chosen = some name → name ∈ Entries.keys profiles

/-- The first profile of the document that is not sound has an infinite cap. -/
def HasInfiniteCap (chosen : Option Text) (overrides : Overrides) (root : Entries Text Json) :
    Prop :=
  ∃ profiles, root.get? profilesKey = some (.obj profiles) ∧
    ProfilesOverflow chosen overrides.profile profiles

/-- A document that passes every check. -/
structure Sound (chosen : Option Text) (overrides : Overrides) (root : Entries Text Json) :
    Prop where
  version : (valueOf root versionKey).IsPositive
  global : HasGlobal overrides root
  profiles : HasProfiles chosen overrides root

/-- A document whose checks come to an infinite number before anything else is wrong. -/
inductive Overflows (chosen : Option Text) (overrides : Overrides) (root : Entries Text Json) :
    Prop where
  | version (infinite : (valueOf root versionKey).IsInfinite)
  | cap (version : (valueOf root versionKey).IsPositive) (global : HasGlobal overrides root)
      (profiles : HasInfiniteCap chosen overrides root)

/-- What is promised of a document that was read from an object. -/
structure ReadFrom (root : Entries Text Json) (document : SettingsDocument) : Prop where
  global : document.global.Usable
  profiles : ∀ e ∈ document.profiles, e.2.Usable
  keys : ∃ profiles, root.get? profilesKey = some (.obj profiles) ∧
    document.profiles.keys = Entries.keys profiles

section Documents

variable (source : Path) (overrides : Overrides) (root : Entries Text Json)

theorem exists_section_iff {root : Entries Text Json} {key : Text} {entries : Entries Text Json}
    (h : root.get? key = some (.obj entries)) {P : Entries Text Json → Prop} :
    (∃ found, root.get? key = some (.obj found) ∧ P found) ↔ P entries := by
  constructor
  · rintro ⟨found, hget, hfound⟩
    cases h.symm.trans hget
    exact hfound
  · exact fun hentries => ⟨entries, h, hentries⟩

theorem checked_chosen (chosen : Option Text) {document : SettingsDocument}
    (h : ReadFrom root document) :
    Checked source (∀ name, chosen = some name → name ∈ document.profiles.keys) False
      (ReadFrom root) (match chosen with
        | some name =>
          if document.profiles.has name then .ok document
          else .error (.settings source (.unknownProfile name))
        | none => .ok document) := by
  cases chosen with
  | none => exact .accepted document h rfl (fun name hname => nomatch hname) id
  | some name =>
    by_cases hname : name ∈ document.profiles.keys
    · refine .accepted document h (if_pos (Entries.has_iff_mem_keys.mpr hname)) ?_ id
      rintro _ ⟨⟩
      exact hname
    · refine .rejected (.unknownProfile name) ?_ (fun hall => hname (hall name rfl)) id
      exact if_neg fun hhas => hname (Entries.has_iff_mem_keys.mp hhas)

/-- The last part of a document's checks, once its version and its global settings are known. -/
def withProfiles (chosen : Option Text) (overrides : Entries Text Json) (version : Int)
    (global : GlobalSettings) : Option Json → Except Failure SettingsDocument
  | some (.obj (first :: rest)) => do
    let profiles ← profilesOf source chosen overrides (first :: rest)
    match chosen with
    | some name =>
      if profiles.has name then .ok ⟨source, version, global, profiles⟩
      else .error (.settings source (.unknownProfile name))
    | none => .ok ⟨source, version, global, profiles⟩
  | _ => .error (.settings source .noProfilesSection)

theorem documentOf_eq (profile : Option Text) :
    documentOf source profile overrides root = (do
      let version ← requirePositive source versionKey (valueOf root versionKey)
      match root.get? globalKey with
      | some (.obj entries) =>
        let global ← globalOf source (Entries.merge entries overrides.global)
        withProfiles source (givenName profile) overrides.profile version global
          (root.get? profilesKey)
      | _ => .error (.settings source .noGlobalSection)) := rfl

theorem checked_withProfiles (chosen : Option Text) (version : Int) {global : GlobalSettings}
    (hglobal : global.Usable) :
    Checked source (HasProfiles chosen overrides root) (HasInfiniteCap chosen overrides root)
      (ReadFrom root)
      (withProfiles source chosen overrides.profile version global (root.get? profilesKey)) := by
  unfold withProfiles
  split
  · rename_i first rest hprofiles
    have hrow := checked_profilesOf source chosen overrides.profile (first :: rest)
    refine (hrow.bind fun found hfound =>
      (show Checked source (∀ name, chosen = some name → name ∈ Entries.keys (first :: rest)) False
        (ReadFrom root) _ from ?_)).reword ?_ ?_
    · have hread : ReadFrom root ⟨source, version, global, found⟩ :=
        ⟨hglobal, hfound.2, first :: rest, hprofiles, hfound.1⟩
      rw [← hfound.1]
      exact checked_chosen source root chosen hread
    · rw [HasProfiles, exists_section_iff hprofiles]
      exact (and_iff_right (List.cons_ne_nil first rest)).symm
    · rw [HasInfiniteCap, exists_section_iff hprofiles, and_false, or_false]
  · rename_i hprofiles
    refine .rejected .noProfilesSection rfl ?_ ?_
    · rintro ⟨profiles, hget, hne, -⟩
      obtain ⟨first, rest, rfl⟩ := List.exists_cons_of_ne_nil hne
      exact hprofiles first rest hget
    · rintro ⟨profiles, hget, before, name, fields, after, hsplit, -⟩
      have hne : profiles ≠ [] := by
        rw [hsplit]
        exact List.append_ne_nil_of_right_ne_nil _ (List.cons_ne_nil _ _)
      obtain ⟨first, rest, rfl⟩ := List.exists_cons_of_ne_nil hne
      exact hprofiles first rest hget

theorem checked_documentOf (profile : Option Text) :
    Checked source (Sound (givenName profile) overrides root)
      (Overflows (givenName profile) overrides root) (ReadFrom root)
      (documentOf source profile overrides root) := by
  have hversion := checked_requirePositive source versionKey (valueOf root versionKey)
  rw [documentOf_eq]
  refine (hversion.bind fun version _ => (show Checked source
    (HasGlobal overrides root ∧ HasProfiles (givenName profile) overrides root)
    (HasGlobal overrides root ∧ HasInfiniteCap (givenName profile) overrides root)
    (ReadFrom root) _ from ?_)).reword ?_ ?_
  · split
    · rename_i entries hglobal
      have hsection : HasGlobal overrides root ↔
          GlobalSound (Entries.merge entries overrides.global) := exists_section_iff hglobal
      refine ((checked_globalOf source (Entries.merge entries overrides.global)).bind
        fun global husable => checked_withProfiles source overrides root (givenName profile)
          version husable).reword ?_ ?_
      · rw [hsection]
      · rw [hsection, false_or]
    · rename_i hglobal
      refine .rejected .noGlobalSection rfl ?_ ?_
      · rintro ⟨⟨entries, hget, -⟩, -⟩
        exact hglobal entries hget
      · rintro ⟨⟨entries, hget, -⟩, -⟩
        exact hglobal entries hget
  · constructor
    · rintro ⟨hversion, hglobal, hprofiles⟩
      exact ⟨hversion, hglobal, hprofiles⟩
    · rintro ⟨hversion, hglobal, hprofiles⟩
      exact ⟨hversion, hglobal, hprofiles⟩
  · constructor
    · rintro (hinfinite | ⟨hversion, hglobal, hprofiles⟩)
      · exact .version hinfinite
      · exact .cap hversion hglobal hprofiles
    · rintro (hinfinite | ⟨hversion, hglobal, hprofiles⟩)
      · exact Or.inl hinfinite
      · exact Or.inr ⟨hversion, hglobal, hprofiles⟩

end Documents

end Settings

end Phrasing
