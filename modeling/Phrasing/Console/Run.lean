/-
  Phrasing/Console/Run.lean
  =========================
  **Running a command.**

  A command is a function of the disk.  It yields what it prints, how it ends and
  the disk it leaves behind.  A reported failure ends it with the failure's text;
  any other ends it where it stands, and what was printed and written before
  remains.
-/
import Phrasing.Console.Command
import Phrasing.Corpus.Journal
import Phrasing.Corpus.Session
import Phrasing.Settings.Load
import Phrasing.Storage.Destination

namespace Phrasing.Console

/-! ### Results -/

/-- How a command ends. -/
inductive Exit where
  | success
  /-- The command line was wrong. -/
  | usage
  /-- A failure was reported, in these words. -/
  | reported (text : Text)
  /-- A failure that is not reported. -/
  | failed (failure : Failure)

/-- What a command yields. -/
structure Result where
  exit : Exit
  stdout : Text
  stderr : Text
  disk : Disk

/-- How a failure ends a command. -/
def Exit.ofFailure (failure : Failure) : Exit :=
  match failure.report? with
  | some report => .reported report.text
  | none => .failed failure

/-- The end of a command that failed. -/
def Result.fail (d : Disk) (printed : Text) (failure : Failure) : Result :=
  ⟨.ofFailure failure, printed, [], d⟩

/-- The end of a command that did its work. -/
def Result.success (d : Disk) (printed : Text) : Result := ⟨.success, printed, [], d⟩

/-- A printed line. -/
def line (t : Text) : Text := t ++ [lineFeed]

/-- True or false in words. -/
def flagText (b : Bool) : Text := (Json.bool b).display

namespace Command

/-! ### Settings and input -/

def settingsFile (c : Command) : Path :=
  match c.nonEmpty? configOption with
  | some t => Path.ofText t
  | none => Settings.defaultPath

def inputFile (c : Command) : Path := .ofText c.input

/-- The file that an expanded corpus is written to, unless its name was dropped. -/
def output? (c : Command) : Option Path :=
  (c.valueOr outputOption "augmented.json").map Path.ofText

/-- The file that events are written to, if any. -/
def journalFile? (c : Command) : Option Path := (c.nonEmpty? journalOption).map Path.ofText

/-- The files that a command may read or write. -/
def files (c : Command) : List Path :=
  [c.settingsFile, c.inputFile] ++ c.journalFile?.toList
    ++ c.output?.toList.flatMap fun p => p :: p.tablePaths

/-- The profile that a command runs under, unless its name was dropped. -/
def profile? (c : Command) : Option Text := c.valueOr profileOption Settings.defaultProfile

/-- The cap as it is laid over that of the file: a dropped one is an empty list, which no cap is. -/
def cap? (c : Command) : Option Json :=
  (c.values.get? maxVariantsOption.name).map fun value =>
    ((value.bind Text.toInt?).map Json.int).getD (.arr [])

/-- Settings that the command line lays over those of the file. -/
def overrides (c : Command) : Overrides where
  global := match c.nonEmpty? formatOption with
    | some format => [(Settings.formatKey, .str format)]
    | none => []
  profile :=
    (if c.has useSynonymsOption then [(Settings.useSynonymsKey, .bool true)] else [])
      ++ c.cap?.toList.map fun cap => (Settings.maxVariantsKey, cap)

/-- The settings of a command.  Without the name of a profile, the settings file is still read. -/
def settings [Host] (c : Command) (d : Disk) : Except Failure Settings :=
  match c.profile? with
  | some profile => Settings.load d c.settingsFile (some profile) c.overrides
  | none =>
    match Settings.loadDocument d c.settingsFile none c.overrides with
    | .error e => .error e
    | .ok _ => .error .droppedName

/-- The settings of a command and the tree in its input file. -/
def load [Host] (c : Command) (d : Disk) : Except Failure (Settings × Entries Text Json) := do
  let settings ← c.settings d
  let tree ← d.loadTree c.inputFile settings.global.encoding
  return (settings, tree)

def openSession (settings : Settings) (tree : Entries Text Json) : Except Failure Session :=
  match Session.open? settings.profile.useSynonyms settings.profile.maxVariants (.obj tree) with
  | some s => .ok s
  | none => .error .nonPositiveCap

/-! ### Expanding a corpus -/

/-- The line that tells what is expanded. -/
def openingLine (c : Command) (settings : Settings) (s : Session) : Text :=
  line ("[augment] " ++ c.inputFile.text ++ " intents="
    ++ Text.ofNat s.corpus.intents.length ++ " profile='" ++ c.profile?.getD []
    ++ "' (provider_synonyms="
    ++ flagText settings.profile.useSynonyms ++ ", max_variants="
    ++ (match settings.profile.maxVariants with
      | some n => Text.ofInt n
      | none => "unbounded")
    ++ ")")

/-- Writes expanded intents and tells how much was written. -/
def writeExpanded [Host] (settings : Settings) (tree : Entries Text Json) (intents : Intents)
    (output : Path) (d : Disk) : Written Text :=
  match settings.global.format with
  | .table =>
    match d.saveTable intents.rows output with
    | ⟨d, .error e⟩ => ⟨d, .error e⟩
    | ⟨d, .ok rows⟩ =>
      ⟨d, .ok (line ("[augment] Wrote " ++ Text.ofNat rows ++ " sentence(s) to " ++ output.text))⟩
  | .tree =>
    match d.saveTree tree intents.toFields output settings.global.encoding with
    | ⟨d, .error e⟩ => ⟨d, .error e⟩
    | ⟨d, .ok ()⟩ =>
      let total := (intents.flatMap fun e => e.2.sentences).length
      ⟨d, .ok (line ("[augment] Wrote " ++ Text.ofNat intents.length ++ " intent(s), "
        ++ Text.ofNat total ++ " sentence(s) to " ++ output.text))⟩

/-- Warnings about sentences that lost variants. -/
def warnings (collector : Collector) : Text :=
  let dropped := collector.count Event.emptyDomain
  let truncated := collector.count Event.truncated
  (if dropped = 0 then []
    else line ("[augment/warning] " ++ Text.ofNat dropped
      ++ " required synonym(s) had no values; affected sentences were dropped"))
  ++ (if truncated = 0 then []
    else line ("[augment/warning] " ++ Text.ofNat truncated
      ++ " sentence(s) truncated to the variant cap"))

/-- Expands the corpus of a tree and writes it.  Whether there is a name to write to is asked before
anything is expanded. -/
def expandTree [Host] (c : Command) (settings : Settings) (tree : Entries Text Json) (d : Disk) :
    Result :=
  match Journal.start c.journalFile? d with
  | ⟨d, .error e⟩ => .fail d [] e
  | ⟨d, .ok journal⟩ =>
    match openSession settings tree with
    | .error e => .fail d [] e
    | .ok s =>
      let printed := c.openingLine settings s
      match c.output? with
      | none => .fail d printed .droppedPath
      | some output =>
        let expansion := s.corpus.expand s.cap
        match (Collector.start (some journal)).collectAll d expansion.events with
        | (_, ⟨d, .error e⟩) => .fail d printed e
        | (collector, ⟨d, .ok ()⟩) =>
          match expansion.result with
          | .error e => .fail d printed (.expansion e)
          | .ok intents =>
            match writeExpanded settings tree intents output d with
            | ⟨d, .error e⟩ => .fail d printed e
            | ⟨d, .ok written⟩ => .success d (printed ++ written ++ warnings collector)

/-! ### Listing -/

def printAll (d : Disk) (texts : List Text) : Result := .success d (texts.flatMap line)

/-- The name of the entity that a command is about. -/
def subject (c : Command) : Except Failure Text :=
  match c.subject? with
  | some name => .ok name
  | none => .error .droppedName

def listSynonyms (c : Command) (s : Session) : Except Failure (List Text) := do
  return s.corpus.synonyms.values (← c.subject)

/-- Lists the values of an entity.  The entity is looked up before its variant. -/
def listValues (c : Command) (s : Session) : Except Failure (List Text) := do
  let name ← c.subject
  let provider ← (s.provider name).mapError .lookup
  match c.values.get? variantOption.name with
  | some none => .error .droppedName
  | variant => (provider.entity.values variant.join).mapError .lookup

/-- Prints a count for each intent; `printed` was printed before.  Each sentence counts for no more
variants than the cap allows. -/
def printCounts (cap : Option Int) (s : Session) (d : Disk) (printed : Text) : Intents → Result
  | [] => .success d printed
  | (name, intent) :: rest =>
    let counts := intent.sentences.map fun sentence =>
      let count : Int := sentence.countVariants s.corpus.synonyms
      match cap with
      | some n => min count n
      | none => count
    let total := counts.sum
    if isLongInteger total then .fail d printed (.longInteger none)
    else
      printCounts cap s d (printed ++ line ("[stats] " ++ name ++ " sentences="
        ++ Text.ofNat intent.sentences.length ++ " variants=" ++ Text.ofInt total)) rest

/-! ### Commands -/

/-- Runs a command. -/
def run [Host] (c : Command) (d : Disk) : Result :=
  match c.load d with
  | .error e => .fail d [] e
  | .ok (settings, tree) =>
    match c.action with
    | .augment => c.expandTree settings tree d
    | action =>
      match openSession settings tree with
      | .error e => .fail d [] e
      | .ok s =>
        match action with
        | .stats => printCounts settings.profile.maxVariants s d [] s.corpus.intents
        | .entity =>
          match c.listValues s with
          | .error e => .fail d [] e
          | .ok values => printAll d values
        | _ =>
          match c.listSynonyms s with
          | .error e => .fail d [] e
          | .ok values => printAll d values

end Command

/-- Runs a command line. -/
def run [Host] (arguments : List Text) (d : Disk) : Result :=
  match readArguments arguments with
  | .help lines => .success d (ofLines lines)
  | .usage program helpLines error =>
    let usage := ofLines (firstParagraph helpLines)
    let stderr := usage ++ line (program ++ ": error: " ++ error.describe)
    ⟨.usage, [], stderr, d⟩
  | .command c => c.run d

end Phrasing.Console
