import TableSql.CommandLine.Arguments
import TableSql.CommandLine.Grid

/-!
# Help

The help on the program and on its commands. A page says what the thing does and how it is called,
then explains commands, arguments and options in sections of two columns. Text that does not fit
the width of a page goes on in the next line, below its own column.

## Main definitions

* `CommandLine.HelpSection`, `CommandLine.HelpPage`, `CommandLine.HelpPage.lines`.
* `CommandLine.helpPage` — the page for a topic.
* `CommandLine.versionText`.
-/

namespace TableSql.CommandLine

/-! ### Pages -/

/-- The number of characters in a line of a page. -/
def pageWidth : Nat := 100

/-- The words of a text put into lines, with `line` as the first line so far. A word that is longer
than a line has a line of its own. -/
def wrapWords (width : Nat) (line : String) : List String → List String
  | [] => [line]
  | w :: ws =>
    if line.length + 1 + w.length ≤ width then wrapWords width (line ++ " " ++ w) ws
    else line :: wrapWords width w ws

/-- A text in lines of the given width, broken at its blanks. -/
def wrap (width : Nat) (s : String) : List String :=
  match s.splitOn " " with
  | [] => []
  | w :: ws => wrapWords width w ws

/-- A part of a page: a title, and terms with their explanations. -/
structure HelpSection where
  title : String
  entries : List (String × String)

namespace HelpSection

/-- The number of characters in front of the explanations. -/
def indent (s : HelpSection) : Nat :=
  (s.entries.map fun e => e.1.length).foldl max 0 + 4

/-- The lines of an entry. -/
def entryLines (indent : Nat) (term explanation : String) : List String :=
  match wrap (pageWidth - indent) explanation with
  | [] => ["  " ++ term]
  | l :: ls => (fillRight indent ("  " ++ term) ++ l) :: ls.map (fillLeft indent "" ++ ·)

/-- The lines of a section, with a blank line in front. -/
def lines (s : HelpSection) : List String :=
  "" :: (s.title ++ ":") :: s.entries.flatMap fun (term, text) => entryLines s.indent term text

end HelpSection

/-- A page of help. -/
structure HelpPage where
  summary : String
  /-- How the command is called. -/
  usage : String
  sections : List HelpSection
  /-- Lines at the end of the page. -/
  closing : List String

/-- The lines of a page. -/
def HelpPage.lines (p : HelpPage) : List String :=
  p.summary :: "" :: ("Usage: " ++ p.usage) :: p.sections.flatMap HelpSection.lines ++ p.closing

/-! ### The pages of the program -/

/-- The name of the program. -/
def programName : String := "restsql"

/-- The name of the program with its version. -/
def versionText : String := programName ++ " 0.1.0"

/-- The names of the commands, in the order in which they are shown. -/
def CommandName.shown : List CommandName :=
  [explain, get, all, run, recipes, help]

/-- The name of a command. -/
def CommandName.name : CommandName → String
  | explain => "explain"
  | get => "get"
  | all => "all"
  | run => "run"
  | recipes => "recipes"
  | help => "help"

/-- What a command does. -/
def CommandName.summary : CommandName → String
  | explain => "Parse a statement and show the request it becomes"
  | get => "Fetch the first matching row"
  | all => "Fetch every matching row"
  | run => "Execute a write and show its result context"
  | recipes => "List the aggregate recompute recipes"
  | help => "Print this message or the help of the given subcommand(s)"

/-- The explanation of the statement among the arguments. -/
def statementSection : HelpSection :=
  ⟨"Arguments", [("<SQL>", "The SQL statement")]⟩

/-- The explanation of the option for parameters. -/
def bindEntry : String × String :=
  ("-b, --bind <BIND>", "Parameter bindings, in placeholder order")

/-- The explanation of the option for the format of rows. -/
def formatEntry : String × String :=
  ("-f, --format <FORMAT>", "Output format [default: table] [possible values: table, json]")

/-- The explanation of the option for help. -/
def helpEntry : String × String :=
  ("-h, --help", "Print help")

/-- The sections of the page on a command. -/
def CommandName.sections : CommandName → List HelpSection
  | explain | run => [statementSection, ⟨"Options", [bindEntry, helpEntry]⟩]
  | get | all => [statementSection, ⟨"Options", [bindEntry, formatEntry, helpEntry]⟩]
  | recipes => [⟨"Options", [helpEntry]⟩]
  | help => [⟨"Arguments", [("[COMMAND]...", "Print help for the subcommand(s)")]⟩]

/-- What follows the name of a command in a call. -/
def CommandName.usage : CommandName → String
  | recipes => ""
  | help => " [COMMAND]..."
  | _ => " [OPTIONS] <SQL>"

/-- The explanation of the option for the file of settings. It shows the file that the environment
names. -/
def configEntry (fromEnvironment : Option String) : String × String :=
  ("-c, --config <CONFIG>", "Config file (default: <config dir>/restsql/config.toml) " ++
    "[env: RESTSQL_CONFIG=" ++ fromEnvironment.getD "" ++ "]")

/-- Examples of calls. -/
def examples : List String :=
  ["", "EXAMPLES:",
    "    restsql explain 'SELECT * FROM users WHERE id = ?' --bind 42",
    "    restsql get 'SELECT email FROM users WHERE id = $1' --bind 42",
    "    restsql run 'DELETE FROM sessions WHERE user_id = ?' --bind 7"]

/-- The page on the program, or on a command. -/
def helpPage (fromEnvironment : Option String) : Option CommandName → HelpPage
  | some c => ⟨c.summary, programName ++ " " ++ c.name ++ c.usage, c.sections, []⟩
  | none =>
    ⟨"Run legacy SQL against a PostgREST backend", programName ++ " [OPTIONS] <COMMAND>",
      [⟨"Commands", CommandName.shown.map fun c => (c.name, c.summary)⟩,
        ⟨"Options", [configEntry fromEnvironment, helpEntry, ("-V, --version", "Print version")]⟩],
      examples⟩

end TableSql.CommandLine
