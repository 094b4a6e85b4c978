/-
  Phrasing/Report.lean
  ====================
  **Reported errors.**

  An error that a user is told about has a code, a message in words, and a context
  of named values for programs that read it.  Its text puts the code in brackets
  before the message; without a message the code stands alone.
-/
import Phrasing.Json.Writer

namespace Phrasing

/-- What kind of problem a reported error is. -/
inductive ErrorCode where
  | config
  | schema
  | io
  | notFound
deriving DecidableEq, Repr

namespace ErrorCode

def name : ErrorCode → Text
  | .config => "CONFIG_ERROR"
  | .schema => "SCHEMA_ERROR"
  | .io => "IO_ERROR"
  | .notFound => "NOT_FOUND"

def ofName? (t : Text) : Option ErrorCode :=
  [ErrorCode.config, .schema, .io, .notFound].find? fun c => c.name = t

end ErrorCode

/-- A reported error. -/
structure Report where
  code : ErrorCode
  message : Text
  context : Entries Text Json

namespace Report

def text (r : Report) : Text :=
  if r.message.isEmpty then r.code.name else "[" ++ r.code.name ++ "] " ++ r.message

/-- The context of a reported error, written out. -/
def contextText (r : Report) : Text := (Json.obj r.context).write .line

end Report

end Phrasing
