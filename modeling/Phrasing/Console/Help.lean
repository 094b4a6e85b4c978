/-
  Phrasing/Console/Help.lean
  ==========================
  **The help of each command.**

  The first paragraph of a help text is its usage, which is also shown before a
  usage error.
-/
import Phrasing.Text.CodePoint

namespace Phrasing.Console

def ofLines (lines : List String) : Text :=
  lines.flatMap fun line => Text.ofString line ++ "\n"

def firstParagraph (lines : List String) : List String := lines.takeWhile (· ≠ "")

/-- The help of the program. -/
def mainHelp : List String := [
  "usage: chatl-augment [-h] \x7baugment,synonyms,entity,stats\x7d ...",
  "",
  "Expand synonym placeholders of parsed training data into plain sentences",
  "",
  "positional arguments:",
  "  \x7baugment,synonyms,entity,stats\x7d",
  "    augment             Expand every intent and write the result",
  "    synonyms            List synonym values of an entity",
  "    entity              List values served by an entity provider",
  "    stats               Count sentences and expected variants per intent",
  "                        (capped by the profile)",
  "",
  "options:",
  "  -h, --help            show this help message and exit"]

/-- The help of the command that expands a corpus. -/
def augmentHelp : List String := [
  "usage: chatl-augment augment [-h] [--output OUTPUT] [--format \x7bjson,parquet\x7d]",
  "                             [--profile PROFILE] [--config CONFIG]",
  "                             [--use-synonyms] [--max-variants MAX_VARIANTS]",
  "                             [--diagnostics-log DIAGNOSTICS_LOG]",
  "                             input",
  "",
  "positional arguments:",
  "  input                 Parsed data JSON (intents, entities, synonyms)",
  "",
  "options:",
  "  -h, --help            show this help message and exit",
  "  --output OUTPUT       Destination JSON tree or Parquet table",
  "  --format \x7bjson,parquet\x7d",
  "                        Output format (defaults to the configured",
  "                        global.output_format)",
  "  --profile PROFILE     Configuration profile to use (encoding, provider",
  "                        synonyms, variant cap)",
  "  --config CONFIG       Override path to the configuration JSON",
  "  --use-synonyms        Let entity value providers enumerate synonym values",
  "                        too",
  "  --max-variants MAX_VARIANTS",
  "                        Keep at most this many variants per sentence (min 1)",
  "  --diagnostics-log DIAGNOSTICS_LOG",
  "                        Optional JSONL file capturing dropped/truncated",
  "                        sentences"]

def synonymsHelp : List String := [
  "usage: chatl-augment synonyms [-h] [--profile PROFILE] [--config CONFIG]",
  "                              input entity",
  "",
  "positional arguments:",
  "  input              Parsed data JSON",
  "  entity             Entity name",
  "",
  "options:",
  "  -h, --help         show this help message and exit",
  "  --profile PROFILE  Configuration profile to use (encoding, provider",
  "                     synonyms, variant cap)",
  "  --config CONFIG    Override path to the configuration JSON"]

def entityHelp : List String := [
  "usage: chatl-augment entity [-h] [--variant VARIANT] [--profile PROFILE]",
  "                            [--config CONFIG] [--use-synonyms]",
  "                            input name",
  "",
  "positional arguments:",
  "  input              Parsed data JSON",
  "  name               Entity name",
  "",
  "options:",
  "  -h, --help         show this help message and exit",
  "  --variant VARIANT  Entity variant to list instead of the default values",
  "  --profile PROFILE  Configuration profile to use (encoding, provider",
  "                     synonyms, variant cap)",
  "  --config CONFIG    Override path to the configuration JSON",
  "  --use-synonyms     Include synonym values after each entity value"]

/-- The help of the command that counts variants. -/
def statsHelp : List String := [
  "usage: chatl-augment stats [-h] [--profile PROFILE] [--config CONFIG] input",
  "",
  "positional arguments:",
  "  input              Parsed data JSON",
  "",
  "options:",
  "  -h, --help         show this help message and exit",
  "  --profile PROFILE  Configuration profile to use (encoding, provider",
  "                     synonyms, variant cap)",
  "  --config CONFIG    Override path to the configuration JSON"]

end Phrasing.Console
