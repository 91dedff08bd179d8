import TableSql.Failure

/-!
# Settings

How a table service is reached: its URL and key, the schema, the path of its interface, and the
function that runs raw SQL if there is one. Settings start from defaults, are read from a file and
are then overridden by variables of the environment.

## Main definitions

* `RestSettings`, `Settings`, their defaults.
* `RestSettings.endpoint` — the address under which the tables are found.
* `Settings.override`, `Settings.check`.
-/

namespace TableSql

/-- How a table service is reached over HTTP. -/
structure RestSettings where
  url : String := ""
  apiKey : String := ""
  schema : String := "public"
  /-- The path of the interface below the URL. -/
  restPath : String := "rest/v1"
  /-- The function that runs raw SQL. -/
  rpcFunction : Option String := none
  /-- The argument under which that function takes the text. -/
  rpcArgument : String := "query"
  timeoutSeconds : Nat := 30
  /-- The column whose value is reported for an inserted row. -/
  keyColumn : String := "id"
  deriving DecidableEq, Repr

/-- The settings of the program. -/
structure Settings where
  rest : RestSettings := {}
  /-- The filter of the log. -/
  logFilter : String := "info"
  deriving DecidableEq, Repr

namespace RestSettings

/-- A text without the slashes at its start. -/
def dropSlashes (cs : List Char) : List Char :=
  cs.dropWhile (· = '/')

/-- A text without the slashes at its end. -/
def dropEndSlashes (cs : List Char) : List Char :=
  (dropSlashes cs.reverse).reverse

/-- The URL without slashes at its end, a slash, and the path without slashes at its ends. -/
def endpointPath (url restPath : List Char) : List Char :=
  dropEndSlashes url ++ '/' :: dropEndSlashes (dropSlashes restPath)

/-- The address under which the tables are found. -/
def endpoint (s : RestSettings) : String :=
  String.ofList (endpointPath s.url.toList s.restPath.toList)

end RestSettings

namespace Settings

/-- The settings with the variables of the environment in their places. An empty name turns the
function for raw SQL off. -/
def override (s : Settings) (lookup : String → Option String) : Settings :=
  let rest := s.rest
  { s with
    rest := { rest with
      url := (lookup "RESTSQL_URL").getD rest.url
      apiKey := (lookup "RESTSQL_API_KEY").getD rest.apiKey
      schema := (lookup "RESTSQL_SCHEMA").getD rest.schema
      rpcFunction := match lookup "RESTSQL_RPC_FUNCTION" with
        | some function => if function = "" then none else some function
        | none => rest.rpcFunction } }

/-- Accepts settings with which a service can be reached. -/
def check (s : Settings) : Except Failure Unit :=
  if s.rest.url = "" then .error (.settings "rest.url is not set (or RESTSQL_URL)")
  else if s.rest.apiKey = "" then .error (.settings "rest.api_key is not set (or RESTSQL_API_KEY)")
  else .ok ()

end Settings

end TableSql
