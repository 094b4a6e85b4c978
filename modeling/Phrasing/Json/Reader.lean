/-
  Phrasing/Json/Reader.lean
  =========================
  **Reading JSON.**

  The tokens are consumed one by one by a machine that knows which arrays and
  objects are open and what may come next.  The first token out of place decides
  the error; a member that is given twice keeps its first place and its last
  value.  Arrays and objects may be open to any number: there is no bound on the
  stack here, where a reader that calls itself for each has one.
-/
import Phrasing.Json.Token
import Phrasing.Text.Lines

namespace Phrasing.Json

/-! ### The machine -/

/-- Why the machine stopped. -/
inductive Stop where
  | fault (fault : Fault)
  /-- An integer with so many digits, more than may be read. -/
  | longInteger (digits : Nat)
deriving DecidableEq, Repr

def Token.fault (token : Token) (what : Defect) : Stop := .fault ⟨what, token.offset⟩

/-- An array or object that is still open. -/
inductive Frame where
  /-- The items so far, last first. -/
  | array (items : List Json)
  /-- The members so far, and the key of the value that is being read. -/
  | object (fields : List (Text × Json)) (key : Text)

/-- What may come next. -/
inductive Phase where
  /-- A value. -/
  | value
  /-- The first item of an array, or its end. -/
  | firstItem
  /-- The first key of an object, or its end. -/
  | firstKey
  /-- A key, after the members so far. -/
  | key (fields : List (Text × Json))
  /-- The colon after a key. -/
  | colon (fields : List (Text × Json)) (key : Text)
  /-- Whatever may follow a value. -/
  | following (v : Json)

/-- The machine after a token: at work, or at the end with a value. -/
inductive Progress where
  | more (phase : Phase) (stack : List Frame)
  | done (v : Json)

def beginValue (stack : List Frame) (token : Token) : Except Stop Progress :=
  match token.lexeme with
  | .openArray => .ok (.more .firstItem stack)
  | .openObject => .ok (.more .firstKey stack)
  | .text t => .ok (.more (.following (.str t)) stack)
  | .scalar v => .ok (.more (.following v) stack)
  | .brokenText fault => .error (.fault fault)
  | .longInteger digits => .error (.longInteger digits)
  | _ => .error (token.fault .expectingValue)

def beginKey (fields : List (Text × Json)) (stack : List Frame) (token : Token) :
    Except Stop Progress :=
  match token.lexeme with
  | .text t => .ok (.more (.colon fields t) stack)
  | .brokenText fault => .error (.fault fault)
  | _ => .error (token.fault .expectingKey)

/-- A token after a value. -/
def continueAfter (v : Json) (stack : List Frame) (token : Token) : Except Stop Progress :=
  match stack, token.lexeme with
  | [], .finish => .ok (.done v)
  | [], _ => .error (token.fault .trailingData)
  | .array items :: stack, .comma => .ok (.more .value (.array (v :: items) :: stack))
  | .array items :: stack, .closeArray =>
    .ok (.more (.following (.arr (v :: items).reverse)) stack)
  | .object fields key :: stack, .comma => .ok (.more (.key (Entries.insert fields key v)) stack)
  | .object fields key :: stack, .closeObject =>
    .ok (.more (.following (.obj (Entries.insert fields key v))) stack)
  | _, _ => .error (token.fault .expectingComma)

def advance (phase : Phase) (stack : List Frame) (token : Token) : Except Stop Progress :=
  match phase with
  | .value => beginValue stack token
  | .firstItem =>
    match token.lexeme with
    | .closeArray => .ok (.more (.following (.arr [])) stack)
    | _ => beginValue (.array [] :: stack) token
  | .firstKey =>
    match token.lexeme with
    | .closeObject => .ok (.more (.following (.obj [])) stack)
    | _ => beginKey [] stack token
  | .key fields => beginKey fields stack token
  | .colon fields key =>
    match token.lexeme with
    | .colon => .ok (.more .value (.object fields key :: stack))
    | _ => .error (token.fault .expectingColon)
  | .following v => continueAfter v stack token

/-- Runs the machine over tokens. -/
def assemble (phase : Phase) (stack : List Frame) : List Token → Except Stop Json
  | [] => .error (.fault ⟨.expectingValue, 0⟩)
  | token :: rest =>
    match advance phase stack token with
    | .error why => .error why
    | .ok (.done v) => .ok v
    | .ok (.more phase stack) => assemble phase stack rest

/-! ### Reading a text -/

/-- Why a text is not read. -/
inductive ReadError where
  /-- A defect at a place. -/
  | malformed (what : Defect) (place : Place)
  /-- An integer with so many digits, more than may be read. -/
  | longInteger (digits : Nat)
deriving DecidableEq, Repr

/-- The value of a text whose integers have at most so many digits. -/
def readWithin (limit : Option Nat) (t : Text) : Except ReadError Json :=
  let stopped : Except Stop Json :=
    if t.head? = some ('\uFEFF' : CodePoint) then .error (.fault ⟨.byteOrderMark, 0⟩)
    else assemble .value [] (tokens limit t)
  match stopped with
  | .ok v => .ok v
  | .error (.fault fault) => .error (.malformed fault.what (.ofOffset t fault.offset))
  | .error (.longInteger digits) => .error (.longInteger digits)

/-- The value of a text. -/
def read (t : Text) : Except ReadError Json := readWithin (some digitLimit) t

/-- A defect in words. -/
def Defect.describe : Defect → Text
  | .expectingValue => "Expecting value"
  | .expectingKey => "Expecting property name enclosed in double quotes"
  | .expectingColon => "Expecting ':' delimiter"
  | .expectingComma => "Expecting ',' delimiter"
  | .unterminatedString => "Unterminated string starting at"
  | .controlCharacter => "Invalid control character at"
  | .badEscape => "Invalid \\escape"
  | .badUnicodeEscape => "Invalid \\uXXXX escape"
  | .trailingData => "Extra data"
  | .byteOrderMark => "Unexpected UTF-8 BOM (decode using utf-8-sig)"

def describeDefect (what : Defect) (place : Place) : Text :=
  what.describe ++ ": " ++ place.describe

end Phrasing.Json
