/-
  Phrasing/Settings/Basic.lean
  ============================
  **Settings.**

  A settings document has global settings and named profiles.  A run uses the
  global settings and one profile, which says whether providers serve synonyms
  too and how many variants a sentence may have.
-/
import Phrasing.Json.Basic
import Phrasing.Storage.Path

namespace Phrasing

/-- What an expanded corpus is written as. -/
inductive OutputFormat where
  /-- A JSON tree. -/
  | tree
  /-- A table of training rows. -/
  | table
deriving DecidableEq, Repr

namespace OutputFormat

def name : OutputFormat → Text
  | .tree => "json"
  | .table => "parquet"

def ofName? (t : Text) : Option OutputFormat :=
  [OutputFormat.tree, .table].find? fun f => f.name = t

end OutputFormat

/-- Settings that hold for every profile. -/
structure GlobalSettings where
  encoding : Text
  format : OutputFormat
deriving DecidableEq

/-- How a corpus is expanded. -/
structure Profile where
  description : Text
  /-- Whether providers serve the synonyms of a value after it. -/
  useSynonyms : Bool
  /-- The most variants of a sentence, if they are bounded. -/
  maxVariants : Option Int
deriving DecidableEq

structure SettingsDocument where
  source : Path
  version : Int
  global : GlobalSettings
  profiles : Entries Text Profile
deriving DecidableEq

/-- The settings of a run. -/
structure Settings where
  global : GlobalSettings
  profile : Profile
deriving DecidableEq

/-- Settings laid over those of a document, key by key. -/
structure Overrides where
  global : Entries Text Json
  profile : Entries Text Json

namespace Settings

/-! ### Keys and defaults -/

def versionKey : Text := "version"

def globalKey : Text := "global"

def profilesKey : Text := "profiles"

def encodingKey : Text := "encoding"

def formatKey : Text := "output_format"

def descriptionKey : Text := "description"

def useSynonymsKey : Text := "use_synonyms_in_entity_value_provider"

def maxVariantsKey : Text := "max_variants_per_sentence"

/-- The encoding of files unless the settings say otherwise. -/
def defaultEncoding : Text := "utf-8"

/-- The profile of a run unless another is named. -/
def defaultProfile : Text := "default"

/-- The settings file that is read unless another is named. -/
def defaultPath : Path := .ofText "config/defaults.json"

/-- A profile as the shipped settings file holds it. -/
def shippedProfile (description : Text) (useSynonyms : Bool) (maxVariants : Json) : Json :=
  .obj [(descriptionKey, .str description), (useSynonymsKey, .bool useSynonyms),
    (maxVariantsKey, maxVariants)]

/-- The settings file that is shipped. -/
def shipped : Json :=
  .obj [
    (versionKey, .int 1),
    (globalKey, .obj [(encodingKey, .str defaultEncoding),
      (formatKey, .str OutputFormat.tree.name)]),
    (profilesKey, .obj [
      (defaultProfile, shippedProfile
        "Expand every synonym combination; providers only see entity values" false .null),
      ("provider_synonyms", shippedProfile
        "Entity value providers also enumerate synonym values" true .null),
      ("bounded", shippedProfile
        "Keep at most 500 variants per sentence for large synonym sets" false (.int 500))])]

end Settings

end Phrasing
