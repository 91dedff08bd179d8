/-!
# Command-line arguments

The arguments of the program: options of the program itself, a command, and the arguments of the
command. Arguments are read from left to right. The first one that is in error ends the reading,
and so does the first one that asks for help or for the version.

An option with a value takes it from behind an equality sign, from the rest of its own argument if
it is a letter, or from the next argument, which must not look like an option. Behind `--` nothing
is an option.

## Main definitions

* `CommandLine.Command`, `CommandLine.Invocation`, `CommandLine.Request`.
* `CommandLine.OptionTable`, `CommandLine.Item`, `CommandLine.readItem`.
* `CommandLine.readArguments` — what the arguments ask for.
-/

namespace TableSql.CommandLine

/-! ### What can be asked for -/

/-- How rows are shown. -/
inductive OutputFormat where
  | table
  | json
  deriving DecidableEq, Repr

/-- A statement with the texts of its parameters. -/
structure StatementArguments where
  sql : String
  parameters : List String
  deriving DecidableEq, Repr

/-- The commands. -/
inductive Command where
  | explain (statement : StatementArguments)
  | get (statement : StatementArguments) (format : OutputFormat)
  | all (statement : StatementArguments) (format : OutputFormat)
  | run (statement : StatementArguments)
  | recipes
  deriving DecidableEq, Repr

/-- A command with the file of its settings, if one is named. -/
structure Invocation where
  settingsFile : Option String
  command : Command
  deriving DecidableEq, Repr

/-- The names of the commands. -/
inductive CommandName where
  | explain
  | get
  | all
  | run
  | recipes
  | help
  deriving DecidableEq, Repr

/-- The command of a name. -/
def CommandName.ofText? : String → Option CommandName
  | "explain" => some .explain
  | "get" => some .get
  | "all" => some .all
  | "run" => some .run
  | "recipes" => some .recipes
  | "help" => some .help
  | _ => none

/-- What the arguments ask for: that a command is run, help on the program or a command, or the
version; or nothing that can be done. -/
inductive Request where
  | invoke (i : Invocation)
  | help (topic : Option CommandName)
  | version
  | misuse
  deriving DecidableEq, Repr

/-! ### Single arguments -/

/-- The options that are known at some place: those with a value and those without, each by its
name and its letter. -/
structure OptionTable where
  valued : List (String × Char)
  bare : List (String × Char)

/-- An argument as it is understood. -/
inductive Item where
  | valued (name value : String)
  | bare (name : String)
  | operand (s : String)
  /-- Behind it nothing is an option. -/
  | separator
  | fault
  deriving DecidableEq, Repr

/-- Whether an argument looks like an option. A single hyphen does not. -/
def looksLikeOption : List Char → Bool
  | '-' :: _ :: _ => true
  | _ => false

/-- An option that takes its value from the next argument, and the number of arguments it takes. -/
def valueFrom (name : String) (next : List String) : Item × Nat :=
  match next with
  | v :: _ => if looksLikeOption v.toList then (.fault, 0) else (.valued name v, 1)
  | [] => (.fault, 0)

/-- An option by its name, perhaps with a value behind an equality sign. -/
def readLong (t : OptionTable) (body : List Char) (next : List String) : Item × Nat :=
  let name := String.ofList (body.takeWhile (· != '='))
  let attached := body.dropWhile (· != '=')
  if t.valued.any fun o => o.1 = name then
    match attached with
    | _ :: v => (.valued name (String.ofList v), 0)
    | [] => valueFrom name next
  else if (t.bare.any fun o => o.1 = name) ∧ attached.isEmpty then (.bare name, 0)
  else (.fault, 0)

/-- An option by its letter, perhaps with a value behind it. -/
def readShort (t : OptionTable) (letter : Char) (body : List Char) (next : List String) :
    Item × Nat :=
  match t.valued.find? fun o => o.2 = letter with
  | some (name, _) =>
    match body with
    | '=' :: v => (.valued name (String.ofList v), 0)
    | _ :: _ => (.valued name (String.ofList body), 0)
    | [] => valueFrom name next
  | none =>
    match t.bare.find? fun o => o.2 = letter with
    | some (name, _) => (.bare name, 0)
    | none => (.fault, 0)

/-- An argument as it is understood, and how many of the next ones belong to it. -/
def readItem (t : OptionTable) (arg : String) (next : List String) : Item × Nat :=
  match arg.toList with
  | ['-', '-'] => (.separator, 0)
  | '-' :: '-' :: body => readLong t body next
  | '-' :: letter :: body => readShort t letter body next
  | _ => (.operand arg, 0)

/-! ### The arguments of a command -/

/-- The option that asks for help. -/
def helpOption : String × Char :=
  ("help", 'h')

/-- The parts of a command that are read so far. -/
structure Parts where
  sql : Option String
  parameters : List String
  format : Option OutputFormat

/-- No parts. -/
def Parts.none : Parts :=
  ⟨Option.none, [], Option.none⟩

/-- The parameters of one argument: texts with commas between them. -/
def splitParameters (s : String) : List String :=
  s.splitOn ","

/-- The format of a name. -/
def OutputFormat.ofText? : String → Option OutputFormat
  | "table" => some .table
  | "json" => some .json
  | _ => none

/-- The parts with a value of an option. A format is given once, parameters as often as wanted. -/
def Parts.withValue? (p : Parts) (name value : String) : Option Parts :=
  if name = "bind" then some { p with parameters := p.parameters ++ splitParameters value }
  else
    match OutputFormat.ofText? value, p.format with
    | some format, .none => some { p with format := some format }
    | _, _ => .none

/-- The parts with the statement, which is given once. -/
def Parts.withOperand? (takesStatement : Bool) (p : Parts) (s : String) : Option Parts :=
  if takesStatement ∧ p.sql = .none then some { p with sql := some s } else .none

/-- Reads the arguments of a command. The result is its parts, or what else was asked for. -/
def readParts (t : OptionTable) (takesStatement : Bool) (topic : CommandName) (separated : Bool)
    (p : Parts) : List String → Except Request Parts
  | [] => .ok p
  | arg :: next =>
    if separated then
      match p.withOperand? takesStatement arg with
      | some p => readParts t takesStatement topic separated p next
      | .none => .error .misuse
    else
      match readItem t arg next with
      | (.valued name value, n) =>
        match p.withValue? name value with
        | some p => readParts t takesStatement topic separated p (next.drop n)
        | .none => .error .misuse
      | (.operand s, n) =>
        match p.withOperand? takesStatement s with
        | some p => readParts t takesStatement topic separated p (next.drop n)
        | .none => .error .misuse
      | (.separator, n) => readParts t takesStatement topic true p (next.drop n)
      | (.bare _, _) => .error (.help (some topic))
      | (.fault, _) => .error .misuse
termination_by args => args.length
decreasing_by all_goals simp only [List.length_cons, List.length_drop]; omega

/-- The options of commands that take a statement. -/
def statementOptions : OptionTable :=
  ⟨[("bind", 'b')], [helpOption]⟩

/-- The options of commands that show rows. -/
def rowOptions : OptionTable :=
  ⟨[("bind", 'b'), ("format", 'f')], [helpOption]⟩

/-- The options of commands that take none of their own. -/
def noOptions : OptionTable :=
  ⟨[], [helpOption]⟩

/-- The statement of a command that needs one. -/
def Parts.statement (p : Parts) : Except Request StatementArguments :=
  match p.sql with
  | some sql => .ok ⟨sql, p.parameters⟩
  | .none => .error .misuse

/-- The topic that help is asked for by name. -/
def helpTopic : List String → Request
  | [] => .help .none
  | [name] =>
    match CommandName.ofText? name with
    | some topic => .help (some topic)
    | .none => .misuse
  | _ => .misuse

/-- Reads a command from its name and its arguments. -/
def readCommand (name : CommandName) (args : List String) : Except Request Command := do
  match name with
  | .explain =>
    let p ← readParts statementOptions true name false .none args
    return .explain (← p.statement)
  | .run =>
    let p ← readParts statementOptions true name false .none args
    return .run (← p.statement)
  | .get =>
    let p ← readParts rowOptions true name false .none args
    return .get (← p.statement) (p.format.getD .table)
  | .all =>
    let p ← readParts rowOptions true name false .none args
    return .all (← p.statement) (p.format.getD .table)
  | .recipes =>
    let _ ← readParts noOptions false name false .none args
    return .recipes
  | .help => throw (helpTopic args)

/-! ### The arguments of the program -/

/-- The options of the program. -/
def programOptions : OptionTable :=
  ⟨[("config", 'c')], [helpOption, ("version", 'V')]⟩

/-- The file of settings for a command: the one that is named, else the one that the environment
names. The name of a file is not empty. -/
def settingsFile? (named fromEnvironment : Option String) : Except Request (Option String) :=
  match named.or fromEnvironment with
  | some "" => .error .misuse
  | file => .ok file

/-- Reads the arguments of the program, with the file of settings that is named so far. -/
def readProgram (fromEnvironment : Option String) (named : Option String) :
    List String → Except Request Invocation
  | [] => .error .misuse
  | arg :: next =>
    match readItem programOptions arg next with
    | (.valued _ value, n) =>
      if value = "" ∨ named.isSome then .error .misuse
      else readProgram fromEnvironment (some value) (next.drop n)
    | (.operand s, _) =>
      match CommandName.ofText? s with
      | some name => do
        let command ← readCommand name next
        let file ← settingsFile? named fromEnvironment
        return ⟨file, command⟩
      | none => .error .misuse
    | (.bare name, _) => .error (if name = "version" then .version else .help none)
    | (.separator, _) => .error .misuse
    | (.fault, _) => .error .misuse
termination_by args => args.length
decreasing_by simp only [List.length_cons, List.length_drop]; omega

/-- What the arguments ask for, where the environment may name the file of settings. -/
def readArguments (fromEnvironment : Option String) (args : List String) : Request :=
  match readProgram fromEnvironment none args with
  | .ok invocation => .invoke invocation
  | .error request => request

end TableSql.CommandLine
