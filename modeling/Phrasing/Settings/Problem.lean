/-
  Phrasing/Settings/Problem.lean
  ==============================
  **What can be wrong with settings.**

  Each problem is a cause of its own; its words name the setting and the file
  that the settings came from.
-/
import Phrasing.Json.Display
import Phrasing.Json.Reader
import Phrasing.Storage.Path

namespace Phrasing

inductive SettingsProblem where
  /-- There is no such file. -/
  | missing
  /-- The file is no JSON text. -/
  | malformed (what : Json.Defect) (place : Place)
  /-- The file holds something other than an object. -/
  | notObject
  | noGlobalSection
  | noProfilesSection
  | profileNotObject (name : Text)
  | missingFields (name : Text) (fields : List Text)
  | unknownProfile (name : Text)
  | notString (field : Text)
  | blank (field : Text)
  | notFlag (field : Text)
  | notInteger (field : Text)
  | notPositive (field : Text)
  | unknownFormat (name : Text)
deriving DecidableEq

namespace SettingsProblem

/-- A problem in words. -/
def describe (source : Path) : SettingsProblem → Text
  | missing => "Config file '" ++ source.text ++ "' not found"
  | malformed what place =>
    "Config file '" ++ source.text ++ "' is not valid JSON: " ++ Json.describeDefect what place
  | notObject => "Config file '" ++ source.text ++ "' must contain an object"
  | noGlobalSection => "'global' section missing in " ++ source.text
  | noProfilesSection => "'profiles' section missing in " ++ source.text
  | profileNotObject name => "Profile '" ++ name ++ "' must be an object in " ++ source.text
  | missingFields name fields =>
    "Profile '" ++ name ++ "' missing fields " ++ (Json.arr (fields.map .str)).display ++ " in "
      ++ source.text
  | unknownProfile name => "Profile '" ++ name ++ "' not found in " ++ source.text
  | notString field => field ++ " must be a string in " ++ source.text
  | blank field => field ++ " must be non-empty in " ++ source.text
  | notFlag field => field ++ " must be true or false in " ++ source.text
  | notInteger field => field ++ " must be an integer in " ++ source.text
  | notPositive field => field ++ " must be greater than zero in " ++ source.text
  | unknownFormat name =>
    "Unsupported output_format '" ++ name ++ "' in " ++ source.text ++ ". Allowed: json, parquet"

end SettingsProblem

end Phrasing
