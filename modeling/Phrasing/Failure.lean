/-
  Phrasing/Failure.lean
  =====================
  **Everything that can go wrong, by cause.**

  Some failures are reported: they have a code, a message and a context, and a
  command ends with their text.  The others end it where they stand.
-/
import Phrasing.Corpus.Provider
import Phrasing.Expansion.Foreign
import Phrasing.Report
import Phrasing.Settings.Problem
import Phrasing.Storage.Disk
import Phrasing.Storage.Encoding

namespace Phrasing

inductive InputProblem where
  /-- There is no such file. -/
  | missing
  /-- The file is no JSON text. -/
  | malformed (what : Json.Defect) (place : Place)
  /-- The file holds something other than an object. -/
  | notObject
deriving DecidableEq

/-- A problem with an input file in words. -/
def InputProblem.describe (source : Path) : InputProblem → Text
  | missing => "Input file '" ++ source.text ++ "' not found"
  | malformed what place =>
    "Input file '" ++ source.text ++ "' is not valid JSON: " ++ Json.describeDefect what place
  | notObject => "Input file '" ++ source.text ++ "' must contain a JSON object"

/-- Why something failed. -/
inductive Failure where
  | settings (source : Path) (problem : SettingsProblem)
  | input (source : Path) (problem : InputProblem)
  | lookup (error : LookupError)
  | expansion (error : ExpansionError)
  | row (error : RowError)
  | disk (error : DiskError)
  | encoding (error : EncodingError)
  /-- An integer has too many digits to be read, so many, or to be written. -/
  | longInteger (digits : Option Nat)
  /-- A setting that has to be an integer is infinite. -/
  | infiniteSetting
  /-- No profile was named. -/
  | noProfile
  /-- A cap is zero or negative. -/
  | nonPositiveCap
  /-- No code of a reported error has the name. -/
  | unknownCode (name : Text)
  /-- Something was to be looked up by a name that the command line dropped. -/
  | droppedName
  /-- A file was to be written to a path that the command line dropped. -/
  | droppedPath

namespace Failure

def lookupReport : LookupError → Report
  | .unknownEntity name =>
    ⟨.notFound, "Could not find an entity with the name: " ++ name, [("entity", .str name)]⟩
  | .unknownVariant name =>
    ⟨.notFound, "Entity has no variant named '" ++ name ++ "'", [("variant", .str name)]⟩
  | .noValues => ⟨.schema, "Entity has no values to provide", []⟩

def report? : Failure → Option Report
  | settings source problem => some ⟨.config, problem.describe source, []⟩
  | input source problem => some ⟨.io, problem.describe source, []⟩
  | lookup error => some (lookupReport error)
  | _ => none

/-- The words for an integer with too many digits. -/
def longIntegerText (digits : Option Nat) : Text :=
  let found : Text := match digits with
    | none => []
    | some n => ": value has " ++ Text.ofNat n ++ " digits"
  "Exceeds the limit (" ++ Text.ofNat digitLimit ++ " digits) for integer string conversion"
    ++ found ++ "; use sys.set_int_max_str_digits() to increase the limit"

/-- The words for a failure, where it has any. -/
def message? : Failure → Option Text
  | expansion .longTotal => some (longIntegerText none)
  | expansion .capTooLarge =>
    some "Stop argument for islice() must be None or an integer: 0 <= x <= sys.maxsize."
  | longInteger digits => some (longIntegerText digits)
  | row (.unsupportedPart v) => some ("Unsupported sentence part: " ++ v.displayInside)
  | nonPositiveCap => some "max_variants must be greater than zero"
  | unknownCode name => some (Text.quoted name ++ " is not a valid ErrorCode")
  | droppedName => some "unhashable type: 'list'"
  | droppedPath => some "expected str, bytes or os.PathLike object, not list"
  | disk .nullInName => some "embedded null byte"
  | encoding .nullInName => some "embedded null character"
  | failure => failure.report?.map Report.text

end Failure

end Phrasing
