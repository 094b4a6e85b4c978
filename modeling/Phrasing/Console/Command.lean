/-
  Phrasing/Console/Command.lean
  =============================
  **The commands of the program.**

  One command expands a corpus and writes it; three list synonyms, values of an
  entity, and counts of variants.  The program itself takes nothing but a command
  and a request for help.
-/
import Phrasing.Console.Grammar
import Phrasing.Console.Help

namespace Phrasing.Console

/-! ### Grammars -/

/-- What a command does. -/
inductive Action where
  | augment
  | synonyms
  | entity
  | stats
deriving DecidableEq, Repr

/-- Every action, in the order in which the program names them. -/
def Action.all : List Action := [.augment, .synonyms, .entity, .stats]

/-- The name of a command. -/
def Action.name : Action → Text
  | .augment => "augment"
  | .synonyms => "synonyms"
  | .entity => "entity"
  | .stats => "stats"

def programName : Text := "chatl-augment"

/-- Asks for help. -/
def helpOption : OptionSpec := ⟨"--help", some "-h", .help⟩

/-- Where an expanded corpus is written. -/
def outputOption : OptionSpec := ⟨"--output", none, .value⟩

/-- What an expanded corpus is written as. -/
def formatOption : OptionSpec := ⟨"--format", none, .choice ["json", "parquet"]⟩

/-- The profile of the run. -/
def profileOption : OptionSpec := ⟨"--profile", none, .value⟩

/-- The settings file. -/
def configOption : OptionSpec := ⟨"--config", none, .value⟩

/-- Has providers serve synonyms too. -/
def useSynonymsOption : OptionSpec := ⟨"--use-synonyms", none, .flag⟩

/-- The most variants of a sentence. -/
def maxVariantsOption : OptionSpec := ⟨"--max-variants", none, .integer⟩

/-- Where events are written. -/
def journalOption : OptionSpec := ⟨"--diagnostics-log", none, .value⟩

/-- The named list of an entity. -/
def variantOption : OptionSpec := ⟨"--variant", none, .value⟩

/-- The options of a command. -/
def Action.options : Action → List OptionSpec
  | .augment => [helpOption, outputOption, formatOption, profileOption, configOption,
      useSynonymsOption, maxVariantsOption, journalOption]
  | .synonyms | .stats => [helpOption, profileOption, configOption]
  | .entity => [helpOption, variantOption, profileOption, configOption, useSynonymsOption]

/-- The operands of a command. -/
def Action.operands : Action → List Text
  | .augment | .stats => ["input"]
  | .synonyms => ["input", "entity"]
  | .entity => ["input", "name"]

def Action.helpLines : Action → List String
  | .augment => augmentHelp
  | .synonyms => synonymsHelp
  | .entity => entityHelp
  | .stats => statsHelp

/-- What a command takes. -/
def Action.grammar (a : Action) : Grammar where
  program := programName ++ " " ++ a.name
  options := a.options
  operands := a.operands
  help := ofLines a.helpLines

/-! ### Invocations -/

/-- A command with its operands and the values of its options. -/
structure Command where
  action : Action
  operands : List (Option Text)
  values : Entries Text (Option Text)
deriving DecidableEq

/-- What a command line asks for. -/
inductive Invocation where
  /-- Help, line by line. -/
  | help (lines : List String)
  | command (c : Command)
  /-- A usage error, in the name of a program or command whose help is given. -/
  | usage (program : Text) (helpLines : List String) (error : UsageError)
deriving DecidableEq

def programUsage (error : UsageError) : Invocation := .usage programName mainHelp error

/-- Reads the arguments of a command; `extras` are arguments before it that fit nowhere. -/
def readCommand (extras : List Text) (action : Action) (arguments : List Text) : Invocation :=
  match action.grammar.parse arguments with
  | .help => .help action.helpLines
  | .error e => .usage action.grammar.program action.helpLines e
  | .found f =>
    let extras := extras ++ f.extras
    if extras.isEmpty then .command ⟨action, f.operands, f.values⟩
    else programUsage (.unrecognized extras)

/-- Reads a command line up to the name of its command; `extras` are arguments that fit nowhere. -/
def readProgram (extras : List Text) : List (Text × Shape) → Invocation
  | [] => if extras.isEmpty then .help mainHelp else programUsage (.unrecognized extras)
  | (argument, shape) :: rest =>
    match shape with
    | .unknown => readProgram (extras ++ [argument]) rest
    | .operand => named argument rest
    | .separator => if rest.isEmpty then readProgram (extras ++ [argument]) rest
      else named argument rest
    | .known option attached =>
      match attached with
      | none => .help mainHelp
      | some value =>
        let outcome : Outcome :=
          if Text.startsWith "--" argument then .error (.unexpectedValue option.title value)
          else afterHelp option value
        match outcome with
        | .error e => programUsage e
        | _ => .help mainHelp
where
  /-- The command of a name. -/
  named (name : Text) (rest : List (Text × Shape)) : Invocation :=
    match Action.all.find? fun a => a.name = name with
    | some action => readCommand extras action (rest.map Prod.fst)
    | none =>
      programUsage (.invalidChoice "command" name (Action.all.map Action.name))

/-- Reads a command line. -/
def readArguments (arguments : List Text) : Invocation :=
  match classifyAll [helpOption] arguments with
  | .ok shapes => readProgram [] shapes
  | .error e => programUsage e

namespace Command

/-! ### Options of a command -/

/-- Whether an option was given. -/
def has (c : Command) (option : OptionSpec) : Bool := c.values.has option.name

/-- The value of an option, if it was given and not dropped. -/
def value? (c : Command) (option : OptionSpec) : Option Text := (c.values.get? option.name).join

/-- The value of an option that stands for another if it is not given; none if it was dropped. -/
def valueOr (c : Command) (option : OptionSpec) (default : Text) : Option Text :=
  (c.values.get? option.name).getD (some default)

/-- The value of an option that counts as given only if it is not empty. -/
def nonEmpty? (c : Command) (option : OptionSpec) : Option Text :=
  (c.value? option).filter fun t => !t.isEmpty

/-- The input file. -/
def input (c : Command) : Text := (c.operands.head?.join).getD []

/-- The entity that the command is about. -/
def subject? (c : Command) : Option Text := c.operands[1]?.join

end Command

end Phrasing.Console
