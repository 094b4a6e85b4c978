/-
  Phrasing/Settings/Load.lean
  ===========================
  **Loading settings.**

  Every field is checked, in every profile, before one is chosen.  An integer may
  be spelled as a number or as a string; a fraction is cut off.  Overrides are
  laid over the global section and over the named profile and then checked like
  the rest.
-/
import Phrasing.Settings.Basic
import Phrasing.Storage.Document
import Phrasing.Text.LowerCase

namespace Phrasing.Settings

/-! ### Fields -/

/-- A string that is not blank, without the blanks at its edges. -/
def requireText (source : Path) (field : Text) (v : Json) : Except Failure Text :=
  match v with
  | .str t =>
    if t.trim.isEmpty then .error (.settings source (.blank field)) else .ok t.trim
  | _ => .error (.settings source (.notString field))

/-- True or false. -/
def requireFlag (source : Path) (field : Text) (v : Json) : Except Failure Bool :=
  match v with
  | .bool b => .ok b
  | _ => .error (.settings source (.notFlag field))

/-- The integer that a value stands for. -/
def toInteger (source : Path) (field : Text) (v : Json) : Except Failure Int :=
  match v with
  | .bool b => .ok (if b then 1 else 0)
  | .int n => .ok n
  | .float x =>
    match x with
    | .nan => .error (.settings source (.notInteger field))
    | .infinite _ => .error .infiniteSetting
    | .finite _ _ _ => .ok (x.truncate?.getD 0)
  | .str t =>
    match t.toInt? with
    | some n => .ok n
    | none => .error (.settings source (.notInteger field))
  | _ => .error (.settings source (.notInteger field))

/-- An integer above zero. -/
def requirePositive (source : Path) (field : Text) (v : Json) : Except Failure Int := do
  let n ← toInteger source field v
  if 0 < n then .ok n else .error (.settings source (.notPositive field))

/-- An integer above zero, or none; true and false are no integers here. -/
def optionalPositive (source : Path) (field : Text) (v : Json) : Except Failure (Option Int) :=
  match v with
  | .null => .ok none
  | .bool _ => .error (.settings source (.notInteger field))
  | v => (requirePositive source field v).map some

/-! ### Sections -/

/-- The field of a section. -/
def fieldName (path : List Text) : Text := Text.join "." path

def globalOf (source : Path) (entries : Entries Text Json) : Except Failure GlobalSettings := do
  let encoding ← requireText source (fieldName [globalKey, encodingKey])
    ((entries.get? encodingKey).getD (.str defaultEncoding))
  let format ← requireText source (fieldName [globalKey, formatKey])
    ((entries.get? formatKey).getD (.str OutputFormat.tree.name))
  match OutputFormat.ofName? format.toLower with
  | some f => .ok ⟨encoding, f⟩
  | none => .error (.settings source (.unknownFormat format.toLower))

/-- The fields that a profile has to have. -/
def requiredFields : List Text := [descriptionKey, useSynonymsKey]

/-- The profile of a section. -/
def profileOf (source : Path) (name : Text) (entries : Entries Text Json) :
    Except Failure Profile := do
  let missing := requiredFields.filter fun key => !entries.has key
  if !missing.isEmpty then .error (.settings source (.missingFields name missing))
  else
    let field (key : Text) : Text := fieldName [profilesKey, name, key]
    let value (key : Text) : Json := (entries.get? key).getD .null
    let description ← requireText source (field descriptionKey) (value descriptionKey)
    let useSynonyms ← requireFlag source (field useSynonymsKey) (value useSynonymsKey)
    let maxVariants ← optionalPositive source (field maxVariantsKey) (value maxVariantsKey)
    return ⟨description, useSynonyms, maxVariants⟩

/-- The profiles of a section; the overrides go to the chosen one. -/
def profilesOf (source : Path) (chosen : Option Text) (overrides : Entries Text Json) :
    Entries Text Json → Except Failure (Entries Text Profile)
  | [] => .ok []
  | (name, v) :: rest =>
    match v with
    | .obj fields => do
      let fields := if chosen = some name then Entries.merge fields overrides else fields
      let profile ← profileOf source name fields
      let rest ← profilesOf source chosen overrides rest
      return (name, profile) :: rest
    | _ => .error (.settings source (.profileNotObject name))

/-! ### Documents -/

/-- A profile name that counts as given: the empty one does not. -/
def givenName (name : Option Text) : Option Text := name.filter fun t => !t.isEmpty

/-- The settings document that an object describes. -/
def documentOf (source : Path) (profile : Option Text) (overrides : Overrides)
    (root : Entries Text Json) : Except Failure SettingsDocument := do
  let version ← requirePositive source versionKey ((root.get? versionKey).getD .null)
  match root.get? globalKey with
  | some (.obj entries) =>
    let global ← globalOf source (Entries.merge entries overrides.global)
    match root.get? profilesKey with
    | some (.obj (first :: rest)) =>
      let chosen := givenName profile
      let profiles ← profilesOf source chosen overrides.profile (first :: rest)
      match chosen with
      | some name =>
        if profiles.has name then .ok ⟨source, version, global, profiles⟩
        else .error (.settings source (.unknownProfile name))
      | none => .ok ⟨source, version, global, profiles⟩
    | _ => .error (.settings source .noProfilesSection)
  | _ => .error (.settings source .noGlobalSection)

/-- Reads the object in a settings file. -/
def readRoot [Host] (d : Disk) (p : Path) : Except Failure (Entries Text Json) :=
  match d.readDocument p defaultEncoding with
  | .ok (.obj fields) => .ok fields
  | .ok _ => .error (.settings p .notObject)
  | .error (.disk .missing) => .error (.settings p .missing)
  | .error (.json (.malformed what place)) => .error (.settings p (.malformed what place))
  | .error e => .error e.failure

def loadDocument [Host] (d : Disk) (p : Path) (profile : Option Text) (overrides : Overrides) :
    Except Failure SettingsDocument := do
  documentOf p profile overrides (← readRoot d p)

def choose (document : SettingsDocument) (profile : Option Text) : Except Failure Settings :=
  match profile.bind document.profiles.get? with
  | some p => .ok ⟨document.global, p⟩
  | none => .error .noProfile

/-- Loads the settings of a run. -/
def load [Host] (d : Disk) (p : Path) (profile : Option Text) (overrides : Overrides) :
    Except Failure Settings := do
  choose (← loadDocument d p profile overrides) profile

end Phrasing.Settings
