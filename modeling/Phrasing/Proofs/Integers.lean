/-
  Phrasing/Proofs/Integers.lean
  =============================
  **Integers in settings.**

  Two settings are integers: the version of a document and the cap of a profile.
  A value denotes an integer if it is one, if it is a floating-point number
  without a fraction, or if it spells one.  The checks take more than that.  They
  cut off a fraction, they count true as the version one, and they stop without a
  report at an infinite number.  Here we say which documents are checked as if
  nothing but denoted integers were taken, and what the others come to.
-/
import Mathlib.Algebra.Order.Field.Power
import Mathlib.Algebra.Order.Floor.Ring
import Mathlib.Data.Rat.Floor
import Phrasing.Proofs.Overlaying

namespace Phrasing

/-! ### The number that a double stands for -/

namespace Double

/-- The exact number, if it is finite. -/
def value? : Double → Option ℚ
  | .finite negative mantissa exponent =>
    some ((if negative then -1 else 1) * ((mantissa : ℚ) * 2 ^ exponent))
  | _ => none

/-- Cutting a fraction off rounds towards zero. -/
def cut (q : ℚ) : Int := if 0 ≤ q then ⌊q⌋ else ⌈q⌉

theorem cut_intCast (n : Int) : cut n = n := by
  unfold cut
  split
  · exact Int.floor_intCast n
  · exact Int.ceil_intCast n

theorem cut_neg (q : ℚ) : cut (-q) = -cut q := by
  unfold cut
  rcases lt_trichotomy q 0 with h | rfl | h
  · rw [if_pos (by linarith), if_neg (by linarith), Int.floor_neg]
  · simp
  · rw [if_neg (by linarith), if_pos (by linarith), Int.ceil_neg]

/-- A number above zero is cut to the integer below it. -/
theorem cut_pos {q : ℚ} (h : 0 < cut q) : (cut q : ℚ) ≤ q ∧ q < cut q + 1 := by
  unfold cut at h ⊢
  split at h
  · rename_i hq
    rw [if_pos hq]
    exact ⟨Int.floor_le q, Int.lt_floor_add_one q⟩
  · rename_i hq
    have hceil : ⌈q⌉ ≤ 0 := Int.ceil_le.mpr (by push_cast; linarith)
    omega

theorem cut_mantissa (mantissa : Nat) (exponent : Int) :
    cut ((mantissa : ℚ) * 2 ^ exponent) =
      if 0 ≤ exponent then (mantissa * powerOfTwo exponent.toNat : Nat)
      else (mantissa / powerOfTwo (-exponent).toNat : Nat) := by
  have hpositive : (0 : ℚ) ≤ mantissa * 2 ^ exponent := by positivity
  rw [cut, if_pos hpositive]
  split
  · rename_i h
    obtain ⟨k, rfl⟩ := Int.eq_ofNat_of_zero_le h
    have hwhole : (mantissa : ℚ) * 2 ^ ((k : Nat) : Int) = ((mantissa * 2 ^ k : Nat) : ℚ) := by
      push_cast
      rfl
    rw [hwhole, Int.floor_natCast]
    rfl
  · rename_i h
    obtain ⟨k, hk⟩ := Int.eq_ofNat_of_zero_le (show 0 ≤ -exponent by omega)
    obtain rfl : exponent = -(k : Int) := by omega
    have hquotient : (mantissa : ℚ) * 2 ^ (-(k : Int)) = (mantissa : ℚ) / ((2 ^ k : Nat) : ℚ) := by
      rw [zpow_neg, zpow_natCast, div_eq_mul_inv]
      push_cast
      rfl
    rw [hquotient, Rat.floor_natCast_div_natCast]
    simp [powerOfTwo]

theorem truncate?_eq_map (x : Double) : x.truncate? = x.value?.map cut := by
  match x with
  | .infinite _ | .nan => rfl
  | .finite negative mantissa exponent =>
    have hmantissa := cut_mantissa mantissa exponent
    rw [value?, Option.map_some, truncate?]
    cases negative with
    | false =>
      rw [if_neg Bool.false_ne_true, if_neg Bool.false_ne_true, one_mul, hmantissa]
    | true =>
      rw [if_pos rfl, if_pos rfl, neg_one_mul, cut_neg, hmantissa]

end Double

/-! ### Values that denote integers -/

namespace Json

/-- The value is an integer, a floating-point number without a fraction, or the spelling of an
integer. -/
inductive Denotes : Json → Int → Prop where
  | int (n : Int) : Denotes (.int n) n
  | float {x : Double} {n : Int} (h : x.value? = some (n : ℚ)) : Denotes (.float x) n
  | text {t : Text} {n : Int} (h : t.toInt? = some n) : Denotes (.str t) n

/-- A floating-point number above one with a fraction. -/
def HasFraction (v : Json) : Prop :=
  ∃ x q, v = .float x ∧ x.value? = some q ∧ 1 < q ∧ ∀ n : Int, q ≠ n

variable {v : Json} {n : Int}

theorem integer?_of_denotes (h : v.Denotes n) : v.integer? = some n := by
  cases h with
  | int => rfl
  | float h => rw [integer?, Double.truncate?_eq_map, h, Option.map_some, Double.cut_intCast]
  | text h => exact h

theorem not_denotes_of_hasFraction (h : v.HasFraction) : ¬ v.Denotes n := by
  obtain ⟨x, q, rfl, hq, -, hfraction⟩ := h
  intro hdenotes
  cases hdenotes with
  | float hn => exact hfraction n (Option.some.inj (hq.symm.trans hn))

theorem not_denotes_bool (b : Bool) : ¬ (Json.bool b).Denotes n := by
  intro h
  cases h

/-- What the checks take for an integer above zero is denoted, or it is one of two mistakes. -/
theorem denotes_or_of_integer? (h : v.integer? = some n) (hpositive : 0 < n) :
    v.Denotes n ∨ v = .bool true ∨ v.HasFraction := by
  cases v with
  | null | arr | obj => cases h
  | bool b =>
    cases b with
    | true => exact Or.inr (Or.inl rfl)
    | false =>
      obtain rfl := Option.some.inj h
      exact absurd hpositive (lt_irrefl 0)
  | int m =>
    obtain rfl := Option.some.inj h
    exact Or.inl (.int _)
  | str t => exact Or.inl (.text h)
  | float x =>
    rw [integer?, Double.truncate?_eq_map, Option.map_eq_some_iff] at h
    obtain ⟨q, hq, rfl⟩ := h
    obtain ⟨hlow, hhigh⟩ := Double.cut_pos hpositive
    by_cases hwhole : ∃ m : Int, q = m
    · obtain ⟨m, rfl⟩ := hwhole
      rw [Double.cut_intCast]
      exact Or.inl (.float hq)
    · -- the integer that is left is at least one, so what was cut off lies above it
      have hone : (1 : ℚ) ≤ Double.cut q := by exact_mod_cast hpositive
      refine Or.inr (Or.inr ⟨x, q, rfl, hq, ?_, fun m hm => hwhole ⟨m, hm⟩⟩)
      refine lt_of_le_of_ne (hone.trans hlow) ?_
      intro heq
      exact hwhole ⟨1, by rw [← heq]; norm_num⟩

end Json

namespace Settings

/-! ### Places for integers -/

/-- Where a settings document asks for an integer. -/
inductive IntegerPlace where
  | version
  | cap (profile : Text)

/-- The value at a place, once the overrides are laid over the chosen profile. -/
def given (chosen : Option Text) (overrides : Overrides) (root : Entries Text Json) :
    IntegerPlace → Option Json
  | .version => some (valueOf root versionKey)
  | .cap name => do
    let profiles ← (root.get? profilesKey).bind Json.fields?
    let fields ← (profiles.get? name).bind Json.fields?
    return valueOf (laidOver chosen overrides.profile name fields) maxVariantsKey

end Settings

/-- The setting at a place of a document that was read; only a cap may be none. -/
def SettingsDocument.integerAt (document : SettingsDocument) :
    Settings.IntegerPlace → Option (Option Int)
  | .version => some (some document.version)
  | .cap name => (document.profiles.get? name).map Profile.maxVariants

namespace Json

open Settings (IntegerPlace)

/-- The setting is the positive integer that the value denotes, or no cap where that is null. -/
def Means (v : Json) : IntegerPlace → Option Int → Prop
  | _, some n => v.Denotes n ∧ 0 < n
  | .cap _, none => v = .null
  | .version, none => False

/-- The setting is what is left of the value once a fraction is cut off and true counts as one. -/
def ReadAs (v : Json) : IntegerPlace → Option Int → Prop
  | .version, some n => v.integer? = some n ∧ 0 < n
  | .cap _, some n => ¬ v.IsFlag ∧ v.integer? = some n ∧ 0 < n
  | .cap _, none => v = .null
  | .version, none => False

/-- The value denotes no integer and is still taken for one. -/
def IsMistaken (v : Json) : IntegerPlace → Prop
  | .version => v = .bool true ∨ v.HasFraction
  | .cap _ => v.HasFraction

variable {v : Json} {place : IntegerPlace} {setting : Option Int}

theorem fields?_eq_some_iff {fields : Entries Text Json} :
    v.fields? = some fields ↔ v = .obj fields := by
  cases v with
  | obj found => simp [fields?]
  | null | bool | int | float | str | arr => simp [fields?]

theorem not_means_of_isMistaken (h : v.IsMistaken place) : ¬ v.Means place setting := by
  have hnone : ∀ n, ¬ v.Denotes n := by
    intro n
    cases place with
    | version =>
      rcases h with rfl | h
      · exact not_denotes_bool true
      · exact not_denotes_of_hasFraction h
    | cap name => exact not_denotes_of_hasFraction h
  cases setting with
  | some n => exact fun hmeans => hnone n hmeans.1
  | none =>
    cases place with
    | version => exact id
    | cap name =>
      rintro rfl
      obtain ⟨x, q, hx, -⟩ := h
      cases hx

theorem not_means_of_isInfinite (h : v.IsInfinite) : ¬ v.Means place setting := by
  obtain ⟨negative, rfl⟩ := h
  cases setting with
  | some n =>
    rintro ⟨hdenotes, -⟩
    cases integer?_of_denotes hdenotes
  | none =>
    cases place with
    | version => exact id
    | cap name =>
      intro h
      cases h

/-- A value is misread exactly if it is mistaken for an integer. -/
theorem ReadAs.means_iff (h : v.ReadAs place setting) :
    v.Means place setting ↔ ¬ v.IsMistaken place := by
  refine ⟨fun hmeans hmistaken => not_means_of_isMistaken hmistaken hmeans, fun hno => ?_⟩
  cases place with
  | version =>
    cases setting with
    | none => exact h
    | some n =>
      refine ⟨?_, h.2⟩
      exact (denotes_or_of_integer? h.1 h.2).resolve_right hno
  | cap name =>
    cases setting with
    | none => exact h
    | some n =>
      obtain ⟨hflag, hinteger, hpositive⟩ := h
      refine ⟨?_, hpositive⟩
      rcases denotes_or_of_integer? hinteger hpositive with hdenotes | rfl | hfraction
      · exact hdenotes
      · exact absurd ⟨true, rfl⟩ hflag
      · exact absurd hfraction hno

end Json

namespace Settings

/-! ### What the checks make of a value -/

theorem map_some_ne_ok_none {ε α : Type} (x : Except ε α) : x.map some ≠ .ok none := by
  cases x with
  | error e =>
    intro h
    cases h
  | ok a =>
    intro h
    cases h

section Fields

variable {source : Path} {field : Text} {v : Json}

theorem readAs_of_requirePositive {n : Int} (h : requirePositive source field v = .ok n) :
    v.ReadAs .version (some n) :=
  ((checked_requirePositive source field v).good_of_eq_ok h).2

theorem readAs_of_optionalPositive {cap : Option Int} (name : Text)
    (h : optionalPositive source field v = .ok cap) : v.ReadAs (.cap name) cap := by
  obtain ⟨haccepts, hgood⟩ := (checked_optionalPositive source field v).good_of_eq_ok h
  rcases haccepts with rfl | ⟨hflag, hpositive⟩
  · obtain rfl := Except.ok.inj h
    rfl
  · cases cap with
    | some n => exact ⟨hflag, hgood n rfl⟩
    | none =>
      -- of the values that are accepted, only null leaves no cap
      cases v with
      | null => rfl
      | bool b => exact absurd ⟨b, rfl⟩ hflag
      | arr | obj =>
        obtain ⟨n, hn, -⟩ := hpositive
        cases hn
      | int | float | str => exact absurd h (map_some_ne_ok_none _)

end Fields

section Documents

variable {source : Path} {chosen : Option Text} {overrides : Overrides}
  {root : Entries Text Json}

theorem maxVariants_of_profileOf {name : Text} {fields : Entries Text Json} {profile : Profile}
    (h : profileOf source name fields = .ok profile) :
    optionalPositive source (fieldName [profilesKey, name, maxVariantsKey])
      (valueOf fields maxVariantsKey) = .ok profile.maxVariants := by
  unfold profileOf at h
  dsimp only at h
  split at h
  · cases h
  · obtain ⟨description, -, h⟩ := exists_of_bind_eq_ok h
    obtain ⟨useSynonyms, -, h⟩ := exists_of_bind_eq_ok h
    obtain ⟨maxVariants, hcap, h⟩ := exists_of_bind_eq_ok h
    obtain rfl := Except.ok.inj h
    exact hcap

theorem get?_profilesOf {overlay profiles : Entries Text Json} {found : Entries Text Profile}
    (h : profilesOf source chosen overlay profiles = .ok found) {name : Text}
    {fields : Entries Text Json} (hget : profiles.get? name = some (.obj fields)) :
    ∃ profile, found.get? name = some profile ∧
      profileOf source name (laidOver chosen overlay name fields) = .ok profile := by
  induction profiles generalizing found with
  | nil => cases hget
  | cons e rest ih =>
    obtain ⟨key, v⟩ := e
    cases v with
    | obj entries =>
      obtain ⟨profile, hprofile, h⟩ := exists_of_bind_eq_ok h
      obtain ⟨others, hothers, h⟩ := exists_of_bind_eq_ok h
      obtain rfl := Except.ok.inj h
      by_cases hkey : key = name
      · subst hkey
        rw [Entries.get?, if_pos rfl] at hget
        obtain rfl := Json.obj.inj (Option.some.inj hget)
        exact ⟨profile, if_pos rfl, hprofile⟩
      · rw [Entries.get?_cons_of_ne hkey] at hget
        rw [Entries.get?_cons_of_ne hkey]
        exact ih hothers hget
    | null | bool | int | float | str | arr => cases h

theorem given_cap_eq_some_iff {name : Text} {v : Json} :
    given chosen overrides root (.cap name) = some v ↔
      ∃ profiles fields, root.get? profilesKey = some (.obj profiles) ∧
        Entries.get? profiles name = some (.obj fields) ∧
        v = valueOf (laidOver chosen overrides.profile name fields) maxVariantsKey := by
  simp only [given, Option.bind_eq_bind, Option.bind_eq_some_iff, Json.fields?_eq_some_iff,
    Option.pure_def, Option.some.injEq]
  constructor
  · rintro ⟨profiles, ⟨_, hprofiles, rfl⟩, fields, ⟨_, hfields, rfl⟩, hv⟩
    exact ⟨profiles, fields, hprofiles, hfields, hv.symm⟩
  · rintro ⟨profiles, fields, hprofiles, hfields, hv⟩
    exact ⟨profiles, ⟨_, hprofiles, rfl⟩, fields, ⟨_, hfields, rfl⟩, hv.symm⟩

theorem readAs_of_documentOf {profile : Option Text} {document : SettingsDocument}
    (h : documentOf source profile overrides root = .ok document) {place : IntegerPlace} {v : Json}
    (hv : given (givenName profile) overrides root place = some v) :
    ∃ setting, document.integerAt place = some setting ∧ v.ReadAs place setting := by
  obtain ⟨hversion, entries, profiles, -, -, hprofiles, hrow⟩ := parts_of_documentOf h
  cases place with
  | version =>
    obtain rfl := Option.some.inj hv
    exact ⟨_, rfl, readAs_of_requirePositive hversion⟩
  | cap name =>
    obtain ⟨found, fields, hfound, hfields, rfl⟩ := given_cap_eq_some_iff.mp hv
    cases hprofiles.symm.trans hfound
    obtain ⟨read, hread, hprofile⟩ := get?_profilesOf hrow hfields
    have hcap := maxVariants_of_profileOf hprofile
    refine ⟨read.maxVariants, ?_, readAs_of_optionalPositive name hcap⟩
    rw [SettingsDocument.integerAt, hread, Option.map_some]

theorem exists_infinite_of_overflows (hroot : (Json.obj root).WellFormed)
    (h : Overflows chosen overrides root) :
    ∃ place v, given chosen overrides root place = some v ∧ v.IsInfinite := by
  cases h with
  | version hinfinite => exact ⟨.version, _, rfl, hinfinite⟩
  | cap _ _ hcap =>
    obtain ⟨profiles, hprofiles, before, name, fields, after, hsplit, -, hoverflows⟩ := hcap
    have hwellFormed : (Json.obj profiles).WellFormed :=
      Json.wellFormed_of_mem_fields hroot.2 _ (Entries.mem_of_get? hprofiles)
    -- no profile is named twice, so this one is found under its name
    have hfields : Entries.get? profiles name = some (.obj fields) := by
      rw [Entries.get?_eq_some_iff hwellFormed.1, hsplit]
      exact List.mem_append_right _ List.mem_cons_self
    exact ⟨.cap name, _, given_cap_eq_some_iff.mpr ⟨profiles, fields, hprofiles, hfields, rfl⟩,
      hoverflows.maxVariants⟩

end Documents

/-! ### Documents whose integers are checked exactly -/

/-- What is asked of a check of the value at a place.  The setting is the positive integer that the
value denotes, and a value that denotes none is reported as a problem of the settings. -/
structure ExactAt (outcome : Except Failure SettingsDocument) (place : IntegerPlace) (v : Json) :
    Prop where
  stored : ∀ document, outcome = .ok document →
    ∃ setting, document.integerAt place = some setting ∧ v.Means place setting
  rejected : (∀ setting, ¬ v.Means place setting) →
    ∃ failure report, outcome = .error failure ∧ failure.report? = some report ∧
      report.code = .config

/-- **Which documents have their integers checked exactly.**  Every setting of a document that is
read is the integer of the value given for it, with a fraction cut off and true counted as one.  All
integers of a document are checked as they should be exactly if the checks come to no infinite
number and, where the document passes them, no value in it is mistaken for an integer. -/
theorem integers_exact_iff [Host] {d : Disk} {p : Path} {root : Entries Text Json}
    (hroot : d.readDocument p defaultEncoding = .ok (.obj root)) (profile : Option Text)
    (overrides : Overrides) :
    (∀ document, loadDocument d p profile overrides = .ok document →
      ∀ place v, given (givenName profile) overrides root place = some v →
        ∃ setting, document.integerAt place = some setting ∧ v.ReadAs place setting) ∧
    ((∀ place v, given (givenName profile) overrides root place = some v →
        ExactAt (loadDocument d p profile overrides) place v) ↔
      ¬ Overflows (givenName profile) overrides root ∧
        (Sound (givenName profile) overrides root →
          ∀ place v, given (givenName profile) overrides root place = some v →
            ¬ v.IsMistaken place)) := by
  rw [loadDocument_of_readDocument hroot]
  have hread : ∀ document, documentOf p profile overrides root = .ok document →
      ∀ place v, given (givenName profile) overrides root place = some v →
        ∃ setting, document.integerAt place = some setting ∧ v.ReadAs place setting :=
    fun document h place v hv => readAs_of_documentOf h hv
  refine ⟨hread, ?_⟩
  cases checked_documentOf p overrides root profile with
  | accepted document _ h sound finite =>
    constructor
    · intro hexact
      refine ⟨finite, ?_⟩
      intro _ place v hv hmistaken
      obtain ⟨setting, -, hmeans⟩ := (hexact place v hv).stored document h
      exact Json.not_means_of_isMistaken hmistaken hmeans
    · rintro ⟨-, hright⟩ place v hv
      obtain ⟨setting, hsetting, hreadAs⟩ := hread document h place v hv
      have hmeans := hreadAs.means_iff.mpr (hright sound place v hv)
      refine ⟨?_, fun hnone => absurd hmeans (hnone setting)⟩
      intro other hother
      obtain rfl : document = other := Except.ok.inj (h.symm.trans hother)
      exact ⟨setting, hsetting, hmeans⟩
  | rejected problem h unsound finite =>
    rw [h]
    refine iff_of_true ?_ ⟨finite, fun sound => absurd sound unsound⟩
    intro place v _
    refine ⟨?_, fun _ => ⟨_, _, rfl, rfl, rfl⟩⟩
    intro document hdocument
    cases hdocument
  | overflowed h unsound infinite =>
    rw [h]
    refine iff_of_false ?_ fun hright => hright.1 infinite
    intro hexact
    obtain ⟨place, v, hv, hinfinite⟩ :=
      exists_infinite_of_overflows (Disk.wellFormed_of_readDocument hroot) infinite
    obtain ⟨failure, report, hfailure, hreport, -⟩ :=
      (hexact place v hv).rejected fun _ => Json.not_means_of_isInfinite hinfinite
    obtain rfl := Except.error.inj hfailure
    cases hreport

/-- The version is spelled with blanks and a sign, and the cap of one of two profiles is overridden
by a floating-point number without a fraction. -/
theorem integers_exact_spelled :
    let profile : Json := .obj [("description", .str "d"),
      ("use_synonyms_in_entity_value_provider", .bool false)]
    let root : Entries Text Json := [("version", .str " +3\t"), ("global", .obj []),
      ("profiles", .obj [("a", profile), ("b", profile)])]
    let d : Disk := [Disk.textFile "c.json" ((Json.obj root).write .tree)]
    let p := Path.ofText "c.json"
    let twelve : Json := .float (.ofDecimal false 120 (-1))
    let overrides : Overrides := ⟨[], [("max_variants_per_sentence", twelve)]⟩
    d.readDocument p defaultEncoding = .ok (.obj root) ∧
      loadDocument d p (some "b") overrides = .ok ⟨p, 3, ⟨"utf-8", .tree⟩,
        [("a", ⟨"d", false, none⟩), ("b", ⟨"d", false, some 12⟩)]⟩ ∧
      given (some "b") overrides root (.cap "b") = some twelve ∧
      twelve.Means (.cap "b") (some 12) ∧
      ∀ place v, given (some "b") overrides root place = some v →
        ExactAt (loadDocument d p (some "b") overrides) place v := by
  intro profile root d p twelve overrides
  have hroot : d.readDocument p defaultEncoding = .ok (.obj root) :=
    Disk.readDocument_of_file (by decide +kernel) rfl
  have hload : loadDocument d p (some "b") overrides = .ok ⟨p, 3, ⟨"utf-8", .tree⟩,
      [("a", ⟨"d", false, none⟩), ("b", ⟨"d", false, some 12⟩)]⟩ := by
    rw [loadDocument_of_readDocument hroot]
    rfl
  have hvalue : (Double.ofDecimal false 120 (-1)).value? = some ((12 : Int) : ℚ) := by
    have hmantissa : Double.ofDecimal false 120 (-1) = .finite false 6755399441055744 (-49) := by
      decide +kernel
    rw [hmantissa, Double.value?]
    norm_num
  have hdocument := hload
  rw [loadDocument_of_readDocument hroot] at hdocument
  refine ⟨hroot, hload, rfl, ⟨.float hvalue, by decide⟩, ?_⟩
  have hfinite := (checked_documentOf p overrides root (some "b")).finite_of_eq_ok hdocument
  refine (integers_exact_iff hroot (some "b") overrides).2.mpr ⟨hfinite, ?_⟩
  intro _ place v hv hmistaken
  cases place with
  | version =>
    obtain rfl := Option.some.inj hv
    rcases hmistaken with h | ⟨x, q, h, -⟩
    · cases h
    · cases h
  | cap name =>
    obtain ⟨profiles, fields, hprofiles, hfields, rfl⟩ := given_cap_eq_some_iff.mp hv
    obtain rfl := Json.obj.inj (Option.some.inj hprofiles)
    have hname : name = "a" ∨ name = "b" := by
      by_contra hno
      rw [not_or] at hno
      rw [Entries.get?_cons_of_ne (Ne.symm hno.1), Entries.get?_cons_of_ne (Ne.symm hno.2)]
        at hfields
      cases hfields
    rcases hname with rfl | rfl
    · obtain rfl := Json.obj.inj (Option.some.inj hfields)
      obtain ⟨x, q, h, -⟩ := hmistaken
      cases h
    · obtain rfl := Json.obj.inj (Option.some.inj hfields)
      exact Json.not_denotes_of_hasFraction hmistaken (.float hvalue)

/-- Two and a half is no integer, but as a cap it is taken for two. -/
theorem loadDocument_cuts_cap :
    let root : Entries Text Json := [("version", .int 1), ("global", .obj []),
      ("profiles", .obj [("a", .obj [("description", .str "d"),
        ("use_synonyms_in_entity_value_provider", .bool false)])])]
    let d : Disk := [Disk.textFile "c.json" ((Json.obj root).write .tree)]
    let p := Path.ofText "c.json"
    let cap : Json := .float (.ofDecimal false 25 (-1))
    let overrides : Overrides := ⟨[], [("max_variants_per_sentence", cap)]⟩
    let loaded := loadDocument d p (some "a") overrides
    given (some "a") overrides root (.cap "a") = some cap ∧
      (∀ setting, ¬ cap.Means (.cap "a") setting) ∧
      loaded = .ok ⟨p, 1, ⟨"utf-8", .tree⟩, [("a", ⟨"d", false, some 2⟩)]⟩ ∧
      ¬ ExactAt loaded (.cap "a") cap := by
  intro root d p cap overrides loaded
  have hroot : d.readDocument p defaultEncoding = .ok (.obj root) :=
    Disk.readDocument_of_file (by decide +kernel) rfl
  have hload : loaded = .ok ⟨p, 1, ⟨"utf-8", .tree⟩, [("a", ⟨"d", false, some 2⟩)]⟩ := by
    change loadDocument d p (some "a") overrides = _
    rw [loadDocument_of_readDocument hroot]
    rfl
  have hfraction : cap.HasFraction := by
    have hmantissa : Double.ofDecimal false 25 (-1) = .finite false 5629499534213120 (-51) := by
      decide +kernel
    refine ⟨_, 5 / 2, rfl, ?_, by norm_num, ?_⟩
    · rw [hmantissa, Double.value?]
      norm_num
    · intro n hn
      have htwice : (5 : ℚ) = 2 * n := by linarith
      have hodd : (5 : Int) = 2 * n := by exact_mod_cast htwice
      omega
  have hnone : ∀ setting, ¬ cap.Means (.cap "a") setting :=
    fun _ => Json.not_means_of_isMistaken hfraction
  refine ⟨rfl, hnone, hload, ?_⟩
  intro hexact
  obtain ⟨setting, -, hmeans⟩ := hexact.stored _ hload
  exact hnone setting hmeans

end Settings

end Phrasing
