/-
  Phrasing/Console/Grammar.lean
  =============================
  **Command lines: options, operands and what does not fit.**

  An argument is classified by its own spelling before any is used: an option may
  be shortened as long as it stays unambiguous and may carry its value after an
  equals sign; two dashes alone end the options; what looks like a negative
  number or holds a space is a value.  Then the arguments are used from left to
  right, and the first that cannot be used decides the error.  Two dashes are
  dropped where they stand for a value: the option or operand is there, and
  there is none in its place.
-/
import Phrasing.Entries
import Phrasing.Number.Integer
import Phrasing.Text.Quoted

namespace Phrasing.Console

/-! ### Grammars -/

/-- What an option takes. -/
inductive OptionKind where
  /-- Nothing: it asks for help. -/
  | help
  /-- Nothing: it is set by being there. -/
  | flag
  /-- Any value. -/
  | value
  /-- One of the given values. -/
  | choice (allowed : List Text)
  /-- An integer. -/
  | integer
deriving DecidableEq

structure OptionSpec where
  /-- The spelling with two dashes. -/
  name : Text
  /-- The spelling with one dash and one letter. -/
  short : Option Text
  kind : OptionKind
deriving DecidableEq

def OptionSpec.spellings (o : OptionSpec) : List Text := o.short.toList ++ [o.name]

/-- The name of an option in an error. -/
def OptionSpec.title (o : OptionSpec) : Text := Text.join "/" o.spellings

/-- What a command takes. -/
structure Grammar where
  /-- The program and command, as errors name them. -/
  program : Text
  options : List OptionSpec
  /-- The names of the operands, all of which are needed. -/
  operands : List Text
  /-- The text that explains the command. -/
  help : Text

/-! ### Usage errors -/

/-- What is wrong with a command line. -/
inductive UsageError where
  | ambiguous (argument : Text) (candidates : List Text)
  | missingValue (option : Text)
  | unexpectedValue (option value : Text)
  | invalidInteger (option value : Text)
  | invalidChoice (argument value : Text) (allowed : List Text)
  | missingOperands (names : List Text)
  | unrecognized (arguments : List Text)
deriving DecidableEq

def UsageError.describe : UsageError → Text
  | ambiguous argument candidates =>
    "ambiguous option: " ++ argument ++ " could match " ++ Text.join ", " candidates
  | missingValue option => "argument " ++ option ++ ": expected one argument"
  | unexpectedValue option value =>
    "argument " ++ option ++ ": ignored explicit argument " ++ value.quoted
  | invalidInteger option value => "argument " ++ option ++ ": invalid int value: " ++ value.quoted
  | invalidChoice argument value allowed =>
    "argument " ++ argument ++ ": invalid choice: " ++ value.quoted ++ " (choose from "
      ++ Text.join ", " (allowed.map Text.quoted) ++ ")"
  | missingOperands names => "the following arguments are required: " ++ Text.join ", " names
  | unrecognized arguments => "unrecognized arguments: " ++ Text.join " " arguments

/-! ### Classifying arguments -/

/-- What an argument is. -/
inductive Shape where
  | operand
  /-- Two dashes that end the options. -/
  | separator
  /-- An option, and the value that is written in the same argument. -/
  | known (option : OptionSpec) (attached : Option Text)
  /-- An option that the command does not have. -/
  | unknown
deriving DecidableEq

/-- Cuts a text at its first equals sign. -/
def cutAtEquals (t : Text) : Text × Option Text :=
  match t.dropWhile (· ≠ ('=' : CodePoint)) with
  | [] => (t, none)
  | _ :: value => (t.takeWhile (· ≠ ('=' : CodePoint)), some value)

/-- The digits at the head of a text, of any script, dropped. -/
def dropDigits (t : Text) : Text := t.dropWhile fun c => c.digit?.isSome

/-- Nothing, or a line feed at the very end. -/
def isEnd (t : Text) : Bool := t.isEmpty || t == ("\n" : Text)

/-- Whether a text looks like a negative number: a dash and digits, the last of which may follow a
point. -/
def isNegativeNumber (t : Text) : Bool :=
  match t with
  | [] => false
  | dash :: body =>
    let rest := dropDigits body
    let whole := rest.length < body.length && isEnd rest
    let pointed := match rest with
      | [] => false
      | point :: fraction =>
        let tail := dropDigits fraction
        point == ('.' : CodePoint) && tail.length < fraction.length && isEnd tail
    dash == ('-' : CodePoint) && (whole || pointed)

/-- The options, in all their spellings. -/
def spelled (options : List OptionSpec) : List (Text × OptionSpec) :=
  options.flatMap fun o => o.spellings.map fun spelling => (spelling, o)

/-- The readings of an argument with dashes as a shortened option or as a letter with a value. -/
def readings (options : List OptionSpec) (argument : Text) :
    List (Text × OptionSpec × Option Text) :=
  if Text.startsWith "--" argument then
    let (head, value) := cutAtEquals argument
    ((spelled options).filter fun s => Text.startsWith head s.1).map fun s => (s.1, s.2, value)
  else
    (spelled options).filterMap fun s =>
      if s.1 = argument.take 2 then some (s.1, s.2, some (argument.drop 2))
      else if Text.startsWith argument s.1 then some (s.1, s.2, none)
      else none

/-- What an argument is, before two dashes have ended the options. -/
def classify (options : List OptionSpec) (argument : Text) : Except UsageError Shape :=
  if argument.head? ≠ some ('-' : CodePoint) then .ok .operand
  else
    match (spelled options).find? fun s => s.1 = argument with
    | some s => .ok (.known s.2 none)
    | none =>
      if argument.length = 1 then .ok .operand
      else
        let (head, value) := cutAtEquals argument
        match (spelled options).find? (fun s => s.1 = head), value with
        | some s, some v => .ok (.known s.2 (some v))
        | _, _ =>
          match readings options argument with
          | [] =>
            if isNegativeNumber argument || argument.contains (' ' : CodePoint) then .ok .operand
            else .ok .unknown
          | [r] => .ok (.known r.2.1 r.2.2)
          | rs => .error (.ambiguous argument (rs.map Prod.fst))

/-- What each argument is. -/
def classifyAll (options : List OptionSpec) : List Text → Except UsageError (List (Text × Shape))
  | [] => .ok []
  | argument :: rest =>
    if argument = ("--" : Text) then
      .ok ((argument, .separator) :: rest.map fun a => (a, .operand))
    else do
      let shape ← classify options argument
      let shapes ← classifyAll options rest
      return (argument, shape) :: shapes

/-! ### Using arguments -/

/-- What was found on a command line. -/
structure Found where
  /-- The value of each option that was given; two dashes attached to it are dropped. -/
  values : Entries Text (Option Text)
  /-- The operands; one that is two dashes by itself is dropped. -/
  operands : List (Option Text)
  /-- Arguments that fit nowhere. -/
  extras : List Text
deriving DecidableEq

/-- The outcome of using arguments. -/
inductive Outcome where
  | help
  | found (found : Found)
  | error (error : UsageError)
deriving DecidableEq

/-- Where the use of arguments stands. -/
structure Progress where
  found : Found
  /-- Whether the last argument was taken as an operand, which also takes the separator after it. -/
  tookOperand : Bool
  /-- Whether a separator belongs to the next operand, which keeps two dashes from being dropped. -/
  keepsDashes : Bool

def checkValue (option : OptionSpec) (value : Text) : Except UsageError Text :=
  match option.kind with
  | .integer =>
    if value.toInt?.isSome then .ok value else .error (.invalidInteger option.title value)
  | .choice allowed =>
    if allowed.contains value then .ok value
    else .error (.invalidChoice option.title value allowed)
  | _ => .ok value

/-- The value attached to an option: two dashes are dropped unchecked. -/
def attachedValue (option : OptionSpec) (value : Text) : Except UsageError (Option Text) :=
  if value = ("--" : Text) then .ok none else (checkValue option value).map some

/-- Takes an operand if one is still due, and an extra argument otherwise. -/
def Progress.operand (p : Progress) (due : Nat) (argument : Text) : Progress :=
  if p.found.operands.length < due then
    let value := if argument = ("--" : Text) && !p.keepsDashes then none else some argument
    { found := { p.found with operands := p.found.operands ++ [value] }
      tookOperand := true, keepsDashes := false }
  else
    { found := { p.found with extras := p.found.extras ++ [argument] }
      tookOperand := false, keepsDashes := false }

/-- Takes an argument that fits nowhere. -/
def Progress.extra (p : Progress) (argument : Text) : Progress :=
  { found := { p.found with extras := p.found.extras ++ [argument] }
    tookOperand := false, keepsDashes := false }

def Progress.record (p : Progress) (option : OptionSpec) (value : Option Text) : Progress :=
  { found := { p.found with values := Entries.insert p.found.values option.name value }
    tookOperand := false, keepsDashes := false }

/-- What follows the letter that asks for help in the same argument: the letter any number of times.
A value cannot follow. -/
def afterHelp (option : OptionSpec) : Text → Outcome
  | [] => .error (.unexpectedValue option.title [])
  | c :: rest =>
    if option.short = (some ['-', c] : Option Text) then
      if rest.isEmpty then .help else afterHelp option rest
    else .error (.unexpectedValue option.title (c :: rest))

/-- Uses arguments from left to right. -/
def use (due : Nat) (p : Progress) : List (Text × Shape) → Outcome
  | [] => .found p.found
  | (argument, shape) :: rest =>
    match shape with
    | .operand => use due (p.operand due argument) rest
    | .unknown => use due (p.extra argument) rest
    | .separator =>
      if p.tookOperand then use due { p with tookOperand := false } rest
      else if p.found.operands.length < due && !rest.isEmpty then
        use due { p with keepsDashes := true } rest
      else use due (p.extra argument) rest
    | .known option attached =>
      match option.kind, attached with
      | .help, none => .help
      | .help, some value =>
        if Text.startsWith "--" argument then .error (.unexpectedValue option.title value)
        else afterHelp option value
      | .flag, none => use due (p.record option (some [])) rest
      | .flag, some value => .error (.unexpectedValue option.title value)
      | _, some value =>
        match attachedValue option value with
        | .ok value => use due (p.record option value) rest
        | .error e => .error e
      | _, none =>
        match rest with
        | (value, .operand) :: rest =>
          match checkValue option value with
          | .ok value => use due (p.record option (some value)) rest
          | .error e => .error e
        | _ => .error (.missingValue option.title)

/-- The use of arguments at its start. -/
def Progress.start : Progress := ⟨⟨[], [], []⟩, false, false⟩

/-- Reads the arguments of a command. -/
def Grammar.parse (g : Grammar) (arguments : List Text) : Outcome :=
  match classifyAll g.options arguments with
  | .error e => .error e
  | .ok shapes =>
    match use g.operands.length .start shapes with
    | .found f =>
      let missing := g.operands.drop f.operands.length
      if missing.isEmpty then .found f else .error (.missingOperands missing)
    | outcome => outcome

end Phrasing.Console
