import TableSql.CommandLine.Grid
import TableSql.Recipe.Registry
import TableSql.Request
import TableSql.Statement.Parse

/-!
# Explaining a statement

An explanation says what becomes of a statement without running it: the kind of its markers and
its own kind, and then the values it assigns, the filters it applies and the request it makes. An
aggregate is shown with its text as raw SQL and the recipe that computes it where raw SQL is not
available.

## Main definitions

* `CommandLine.explainHead`, `CommandLine.explainStatement` — the lines of an explanation.
* `CommandLine.recipeLines` — a list of recipes.
-/

namespace TableSql.CommandLine

/-- Lines about a statement as it is written. A text that cannot be scanned has no numbered
marker. -/
def explainHead (sql : String) : List String :=
  let mode := match scan sql.toList with
    | .ok s => MarkerMode.detect s.tokens
    | .error _ => .sequential
  ["Statement: " ++ sql, "Placeholders: " ++ mode.name, "Kind: " ++ (classify sql).name, ""]

/-- Lines about assigned values. -/
def valueLines (values : Row) : List String :=
  "Values:" :: values.entries.map fun (column, value) => "  " ++ column ++ " = " ++ value.shown

/-- Lines about filters, if there are any. -/
def filterLines (filters : List (Filter Value)) : List String :=
  if filters.isEmpty then [] else "Filters:" :: filters.map fun f => "  " ++ f.display

/-- Lines about a request. -/
def requestLines (method table query : String) : List String :=
  ["Request:", "  " ++ method ++ " /" ++ table ++ query]

/-- The query string of a request, with the mark in front of it. -/
def queryPart (pairs : List (String × String)) : String :=
  "?" ++ queryText pairs

/-- Lines about an aggregate. -/
def aggregateLines (recipes : Registry) (plan : AggregatePlan Value) : List String :=
  ["RPC SQL:", "  " ++ plan.remoteSql,
    match plan.shape.bind recipes.find? with
    | some recipe => "Recompute recipe: " ++ recipe.id
    | none => "No recompute recipe matches"]

/-- Lines about what a statement does. -/
def explainStatement (recipes : Registry) : Statement Value → List String
  | .select q =>
    filterLines q.filters ++ requestLines "GET" q.table (queryPart (TableQuery.ofSelect q).pairs)
  | .insert table values => valueLines values ++ requestLines "POST" table ""
  | .update table values filters =>
    valueLines values ++ filterLines filters ++
      requestLines "PATCH" table (queryPart (filterPairs filters))
  | .delete table filters =>
    filterLines filters ++ requestLines "DELETE" table (queryPart (filterPairs filters))
  | .aggregate plan => aggregateLines recipes plan
  | .schema keyword => [keyword ++ " is accepted and ignored"]

/-- A recipe in a list of recipes. -/
def recipeLine (r : Recipe) : String :=
  fillRight 16 r.id ++ " " ++ fillLeft 9 (Decimal.text r.priority) ++ " " ++ r.description

/-- A list of recipes. -/
def recipeLines (recipes : Registry) : List String :=
  (fillRight 16 "Recipe" ++ " " ++ fillRight 9 "Priority" ++ " " ++ "Description") ::
    rule 72 :: recipes.recipes.map recipeLine

end TableSql.CommandLine
