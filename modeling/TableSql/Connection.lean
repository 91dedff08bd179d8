import TableSql.Failure
import TableSql.Recipe.Registry
import TableSql.Service
import TableSql.Statement.Parse

/-!
# Connections

The interface of a small SQL driver over a table service: `get` fetches the first row, `all`
fetches every row, and `run` executes a statement for its effect and reports the key of an
inserted row and the number of changes. Each takes the text of a statement and its parameters, and
is a dialogue with the service.

A reading makes one call, and so does a write. An aggregate is first given to the service as raw
SQL; if that fails for any reason, a recipe that applies reads the rows and folds them, and
without one the aggregate is unsupported. A schema statement makes no call. That nothing was found
where one row was expected is no failure: there is then no row, and nothing was changed.

## Main definitions

* `Connection`, `Attempt`, `RunContext`.
* `Connection.query`, `Connection.aggregate`, `Connection.execute` — statements as dialogues.
* `Connection.get`, `Connection.all`, `Connection.run`, `Connection.close` — texts as dialogues.
-/

namespace TableSql

/-- How many rows a reading expects. -/
inductive Cardinality where
  | one
  | many
  deriving DecidableEq, Repr

/-- The rows of a reading. -/
inductive Fetched where
  | one (row : Option Row)
  | many (rows : List Row)

namespace Fetched

/-- The first row. -/
def first? : Fetched → Option Row
  | one row => row
  | many rows => rows.head?

/-- All rows. -/
def rows : Fetched → List Row
  | one row => row.toList
  | many rows => rows

end Fetched

/-- What a statement that was run for its effect reports: the key of an inserted row, and the
number of changes. -/
structure RunContext where
  lastKey : Option Value
  changes : Nat

namespace RunContext

/-- The report of a statement that changes nothing. -/
def unchanged : RunContext :=
  ⟨none, 0⟩

end RunContext

/-- What a connection knows besides its service: the recipes for aggregates, and the column whose
value is reported for an inserted row. -/
structure Connection where
  recipes : Registry
  keyColumn : String

/-- A dialogue that may fail. -/
abbrev Attempt (α : Type) : Type :=
  ExceptT Failure Dialogue α

/-- The attempt at one call, whose error is a failure. -/
def Attempt.call (c : Call) : Attempt c.Answer :=
  ExceptT.mk ((Dialogue.call c).bind fun outcome => .done (outcome.mapError .service))

/-- The attempt at one call that may find nothing, with what it then gives. -/
def Attempt.callOr {α : Type} (c : Call) (nothing : α) (found : c.Answer → α) : Attempt α :=
  ExceptT.mk ((Dialogue.call c).bind fun
    | .ok answer => .done (.ok (found answer))
    | .error .noRowsMatched => .done (.ok nothing)
    | .error e => .done (.error (.service e)))

namespace Connection

/-- A connection with the recipes that are always there. -/
def standard : Connection :=
  ⟨.standard, "id"⟩

/-! ### Statements as dialogues -/

/-- Reads rows: the first one, or all of them. -/
def query (q : Select Value) : Cardinality → Attempt Fetched
  | .one => Attempt.callOr (.select (.first q)) (.one none) fun rows => .one (List.head? rows)
  | .many => do
    let rows ← Attempt.call (.select (.ofSelect q))
    return .many rows

/-- The value under a column of a row as inserted, unless it is null. -/
def keyOf (c : Connection) (row : Option Row) : Option Value :=
  (row.bind fun row => row.get? c.keyColumn).filter (!·.isNull)

/-- Inserts a row. -/
def insert (c : Connection) (table : String) (values : Row) : Attempt RunContext := do
  let row ← Attempt.call (.insert table values)
  return ⟨c.keyOf row, 1⟩

/-- The number of changes that a report tells of. -/
def changesOf (r : UpdateReport) : Nat :=
  r.count.getD r.rows.length

/-- Changes rows. -/
def update (table : String) (values : Row) (filters : List (Filter Value)) : Attempt RunContext :=
  Attempt.callOr (.update table filters values) .unchanged fun r => ⟨none, changesOf r⟩

/-- Removes rows. A service that does not tell how many it removed is taken to have removed
one. -/
def delete (table : String) (filters : List (Filter Value)) : Attempt RunContext :=
  Attempt.callOr (.delete table filters) .unchanged fun n => ⟨none, Option.getD n 1⟩

/-- The recipe for an aggregate, with its shape. -/
def recipe? (c : Connection) (plan : AggregatePlan Value) :
    Option (AggregateShape Value × Recipe) :=
  plan.shape.bind fun shape => (c.recipes.find? shape).map fun recipe => (shape, recipe)

/-- The reading of the rows behind an aggregate. -/
def sourceOf (shape : AggregateShape Value) (recipe : Recipe) : Select Value :=
  ⟨shape.table, recipe.columns, shape.filters, [], none, none⟩

/-- Computes an aggregate from the rows behind it. -/
def recompute (shape : AggregateShape Value) (recipe : Recipe) : Attempt (List Row) := do
  let fetched ← query (sourceOf shape recipe) .many
  return [.single (shape.resultName.getD recipe.defaultAlias) (recipe.fold fetched.rows)]

/-- The rows of an aggregate: those that the service gives for its text, else the one that a
recipe computes. -/
def aggregate (c : Connection) (plan : AggregatePlan Value) (sql : String) (params : List Value) :
    Attempt (List Row) :=
  ExceptT.mk ((Dialogue.call (.rawSql plan.remoteSql)).bind fun
    | .ok rows => .done (.ok rows)
    | .error _ =>
      match c.recipe? plan with
      | some (shape, recipe) => recompute shape recipe
      | none => .done (.error (.unsupportedAggregate sql params)))

/-- Runs a statement for its effect. -/
def execute (c : Connection) (sql : String) (params : List Value) :
    Statement Value → Attempt RunContext
  | .select q => do
    let _ ← query q .many
    return .unchanged
  | .aggregate plan => do
    let _ ← c.aggregate plan sql params
    return .unchanged
  | .schema _ => return .unchanged
  | .insert table values => c.insert table values
  | .update table values filters => update table values filters
  | .delete table filters => delete table filters

/-! ### Texts as dialogues -/

/-- The statement of a text with its parameters. -/
def prepare (b : Bindings) (sql : String) : Attempt (Statement Value) :=
  ExceptT.mk (.done ((parse b sql).mapError (.unsupported sql b.params)))

/-- Fetches the first row. A statement that has no rows is run for its effect. -/
def get (c : Connection) (b : Bindings) (sql : String) : Attempt (Option Row) := do
  match ← prepare b sql with
  | .select q => return (← query q .one).first?
  | .aggregate plan => return (← c.aggregate plan sql b.params).head?
  | statement =>
    let _ ← c.execute sql b.params statement
    return none

/-- Fetches every row. A statement that has no rows is run for its effect. -/
def all (c : Connection) (b : Bindings) (sql : String) : Attempt (List Row) := do
  match ← prepare b sql with
  | .select q => return (← query q .many).rows
  | .aggregate plan => c.aggregate plan sql b.params
  | statement =>
    let _ ← c.execute sql b.params statement
    return []

/-- Runs a statement for its effect. -/
def run (c : Connection) (b : Bindings) (sql : String) : Attempt RunContext := do
  let statement ← prepare b sql
  c.execute sql b.params statement

/-- Ends the connection. Nothing is held open, so there is nothing to do. -/
def close : Attempt Unit :=
  return ()

end Connection

end TableSql
