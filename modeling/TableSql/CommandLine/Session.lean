import TableSql.CommandLine.Explanation
import TableSql.CommandLine.Help
import TableSql.CommandLine.Parameter
import TableSql.Connection
import TableSql.Rest
import TableSql.Settings.File

/-!
# What the program does

What the arguments ask for becomes a *session*: either a report that is ready, or a dialogue with
a table service whose result is a report. So everything is decided here, and nothing is left for
the world but to carry requests and to show the report.

Settings are read from the file that is named. If none is named they are read from the usual file,
or keep their defaults if there is no such file. Explaining a statement and listing recipes need
settings that can be read, and nothing else of them; to reach a service they must be complete.

## Main definitions

* `CommandLine.Report`, `CommandLine.Report.failure`.
* `CommandLine.SettingsSource`, `CommandLine.SettingsSource.load`.
* `CommandLine.Session`, `CommandLine.Session.run`, `CommandLine.respond`.
-/

namespace TableSql.CommandLine

/-! ### Reports -/

/-- What the program leaves behind: what it writes as its output and about errors, and its
status. -/
structure Report where
  output : String
  errors : String
  status : Nat
  deriving DecidableEq, Repr

namespace Report

/-- A report of success with the given lines. -/
def success (lines : List String) : Report :=
  ⟨textOfLines lines, "", 0⟩

/-- A report of an error. -/
def error (message : String) : Report :=
  ⟨"", "Error: " ++ message ++ "\n", 1⟩

/-- A report of a failure. -/
def failure (f : Failure) : Report :=
  error f.report

/-- A report of arguments that ask for nothing that can be done. -/
def misuse : Report :=
  ⟨"", textOfLines ["error: invalid arguments", "",
    "Usage: " ++ (helpPage none none).usage, "", "For more information, try '--help'."], 2⟩

/-- A report of the outcome of an attempt. -/
def ofOutcome {α : Type} (lines : α → List String) : Except Failure α → Report
  | .ok a => success (lines a)
  | .error f => failure f

end Report

/-! ### Settings -/

/-- Where settings come from. A file that cannot be read has a reason in place of a text. -/
inductive SettingsSource where
  /-- The file that was named. -/
  | named (path : String) (content : Except String String)
  /-- The file at the usual place. -/
  | usual (content : Except String String)
  | defaults

/-- The settings of the content of a file. -/
def readSettings : Except String String → Except Failure Settings
  | .ok text => Settings.read text
  | .error reason => .error (.file reason)

/-- The settings of a source, before the environment overrides them; or what is to be said about
it. -/
def SettingsSource.load : SettingsSource → Except String Settings
  | named path content =>
    (readSettings content).mapError fun f => "Failed to load " ++ path ++ ": " ++ f.report
  | usual content => (readSettings content).mapError Failure.report
  | defaults => .ok {}

/-! ### Sessions -/

/-- A report, or a dialogue with a table service that has one as its result. -/
inductive Session where
  | report (r : Report)
  | converse (service : Rest) (dialogue : Dialogue Report)

/-- Runs a session over a network. -/
def Session.run {σ : Type} (network : Http.Network σ) : Session → σ → Report × σ
  | report r, s => (r, s)
  | converse service dialogue, s => dialogue.run (service.service network) s

/-- The parameters of a statement. -/
def StatementArguments.bindings (a : StatementArguments) (now : String) : Bindings :=
  ⟨a.parameters.map parameter, now⟩

/-- The session of an attempt over a connection with the given settings. -/
def converse {α : Type} (settings : Settings) (lines : α → List String)
    (attempt : Connection → Attempt α) : Session :=
  match settings.check *> Rest.connect settings.rest with
  | .error f => .report (.failure f)
  | .ok service =>
    let connection : Connection := ⟨.standard, settings.rest.keyColumn⟩
    .converse service <| (attempt connection).run.bind fun outcome =>
      .done (.ofOutcome lines outcome)

/-- Lines with rows. -/
def rowLines (format : OutputFormat) (rows : List Row) : List String :=
  if rows.isEmpty then ["(no results)"]
  else
    match format with
    | .json => [(Value.array (rows.map Value.ofRow)).pretty]
    | .table => (Grid.ofRows rows).lines ++ ["", Decimal.text rows.length ++ " row(s) returned"]

/-- A line about a statement that was run for its effect. -/
def contextLines (c : RunContext) : List String :=
  ["✓ " ++ Decimal.text c.changes ++ " row(s) changed, lastID = " ++
    (c.lastKey.map Value.shown).getD "NULL"]

/-- The report of an explanation. A text that is no statement is explained as far as it goes. -/
def explain (statement : StatementArguments) (now : String) : Report :=
  let head := explainHead statement.sql
  match parse (statement.bindings now) statement.sql with
  | .ok s => .success (head ++ explainStatement .standard s)
  | .error e => ⟨textOfLines head, "Parse Error: " ++ e.message ++ "\n", 0⟩

/-- The session of a command. -/
def perform (settings : Settings) (now : String) : Command → Session
  | .explain statement => .report (explain statement now)
  | .recipes => .report (.success (recipeLines .standard))
  | .get statement format =>
    converse settings (fun row => rowLines format row.toList) fun c =>
      c.get (statement.bindings now) statement.sql
  | .all statement format =>
    converse settings (rowLines format) fun c => c.all (statement.bindings now) statement.sql
  | .run statement =>
    converse settings contextLines fun c => c.run (statement.bindings now) statement.sql

/-- The session of what the arguments ask for. -/
def respond (source : SettingsSource) (lookup : String → Option String) (now : String) :
    Request → Session
  | .help topic => .report (.success (helpPage (lookup "RESTSQL_CONFIG") topic).lines)
  | .version => .report (.success [versionText])
  | .misuse => .report .misuse
  | .invoke invocation =>
    match source.load with
    | .error message => .report (.error message)
    | .ok settings => perform (settings.override lookup) now invocation.command

end TableSql.CommandLine
