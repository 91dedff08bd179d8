import TableSql.Http
import TableSql.Json.Reader
import TableSql.Service
import TableSql.Settings

/-!
# A table service over HTTP

Each call of a table service becomes one request, and the response becomes its outcome.

| call | request |
|---|---|
| `select` | `GET /t?select=..&c=eq.v` |
| `insert` | `POST /t` |
| `update` | `PATCH /t?c=eq.v` |
| `delete` | `DELETE /t?c=eq.v` |
| `rawSql` | `POST /rpc/function` with the text under the function's argument |

A single row is asked for, and an inserted one sent back, by the `accept` header. Raw SQL is
available only if the settings name a function for it.

## Main definitions

* `Rest`, `Rest.connect` — a service from its settings.
* `Rest.request?`, `Rest.outcome` — a call as a request, a response as an outcome.
* `Rest.service` — the service over a network.
-/

namespace TableSql

/-- How requests to a table service are made. -/
structure Rest where
  endpoint : String
  /-- The headers of every request. -/
  headers : List (String × String)
  rpcFunction : Option String
  rpcArgument : String
  deriving DecidableEq, Repr

namespace Rest

/-! ### Requests -/

/-- The characters that a header may hold: all but the controls, of which it may hold tabs. -/
def isHeaderChar (c : Char) : Bool :=
  (32 ≤ c.toNat && c.toNat ≠ 127) || c == '\t'

/-- A header, if it may hold the value. -/
def header (name value : String) : Except Failure (String × String) :=
  if value.toList.all isHeaderChar then .ok (name, value)
  else .error (.settings "failed to parse header value")

/-- The service of the given settings. The key goes into two headers, and a schema other than the
usual one into two more. -/
def connect (s : RestSettings) : Except Failure Rest := do
  let key ← header "apikey" s.apiKey
  let bearer ← header "authorization" ("Bearer " ++ s.apiKey)
  let schema ← if s.schema = "public" then pure [] else do
    pure [← header "accept-profile" s.schema, ← header "content-profile" s.schema]
  return ⟨s.endpoint, key :: bearer :: schema, s.rpcFunction, s.rpcArgument⟩

/-- The URL of a table. -/
def tableUrl (r : Rest) (table : String) : String :=
  r.endpoint ++ "/" ++ table

/-- The URL of a function. -/
def functionUrl (r : Rest) (function : String) : String :=
  r.endpoint ++ "/rpc/" ++ function

/-- Asks for one row as an object of its own. -/
def acceptObject : String × String :=
  ("accept", "application/vnd.pgrst.object+json")

/-- Tells that the body is JSON. -/
def jsonContent : String × String :=
  ("content-type", "application/json")

/-- The request of a call; none for raw SQL without a function that runs it. -/
def request? (r : Rest) : Call → Option Http.Request
  | .select q =>
    let headers := if q.single then r.headers ++ [acceptObject] else r.headers
    some ⟨.get, r.tableUrl q.select.table, q.pairs, headers, none⟩
  | .insert table values =>
    let headers := r.headers ++ [("prefer", "return=representation"), acceptObject, jsonContent]
    some ⟨.post, r.tableUrl table, [], headers, some (Value.ofRow values).json⟩
  | .update table filters values =>
    let headers := r.headers ++ [("prefer", "return=representation,count=exact"), jsonContent]
    some ⟨.patch, r.tableUrl table, filterPairs filters, headers, some (Value.ofRow values).json⟩
  | .delete table filters =>
    some ⟨.delete, r.tableUrl table, filterPairs filters,
      r.headers ++ [("prefer", "count=exact")], none⟩
  | .rawSql sql =>
    r.rpcFunction.map fun function =>
      ⟨.post, r.functionUrl function, [], r.headers ++ [jsonContent],
        some (Value.ofRow (.single r.rpcArgument (.text sql))).json⟩

/-! ### Responses -/

/-- What a response of a refused request says: each part is a text or absent. -/
structure ErrorBody where
  code : Option String
  message : Option String
  details : Option String

/-- The body that says nothing. -/
def ErrorBody.silent : ErrorBody :=
  ⟨none, none, none⟩

/-- A text or null. -/
def optionalText? : Value → Option (Option String)
  | .null => some none
  | .text s => some (some s)
  | _ => none

/-- The part of an error that an object has under a name: at most one entry, a text or null. -/
def part? (entries : List (String × Value)) (name : String) : Option (Option String) :=
  match entries.filter fun e => e.1 = name with
  | [] => some none
  | [e] => optionalText? e.2
  | _ => none

/-- What the body of a refused request says, as an object or as an array of the three parts.
Anything else says nothing. Other entries of an object are passed over. -/
def errorBody (body : String) : ErrorBody :=
  match Json.skim? body with
  | some (.object entries) =>
    match part? entries "code", part? entries "message", part? entries "details" with
    | some code, some message, some details => ⟨code, message, details⟩
    | _, _, _ => .silent
  | some (.array [code, message, details]) =>
    match optionalText? code, optionalText? message, optionalText? details with
    | some code, some message, some details => ⟨code, message, details⟩
    | _, _, _ => .silent
  | _ => .silent

/-- The code with which a service refuses to answer with one row. -/
def notOneRow : String := "PGRST116"

/-- Whether a text has another text within it. -/
def occursIn (part : List Char) : List Char → Bool
  | [] => part.isEmpty
  | c :: cs => part.isPrefixOf (c :: cs) || occursIn part cs

/-- Whether a text tells of zero rows. -/
def tellsOfNoRows (details : List Char) : Bool :=
  occursIn " 0 rows".toList details

/-- Why a request was refused. That there was not one row means that there was none if the details
say so, or if there are none. -/
def refusal (r : Http.Response) : ServiceError :=
  let said := errorBody r.body
  let code := said.code.getD (Decimal.text r.status)
  let noRows := (said.details.map fun d => tellsOfNoRows d.toList).getD true
  if code = notOneRow ∧ noRows then .noRowsMatched
  else .remote code (said.message.getD r.body)

/-- Whether a refusal tells that there is no function for raw SQL. -/
def isMissingFunction : ServiceError → Bool
  | .remote code _ => code = "PGRST202" || code = "404"
  | _ => false

/-- The error for a body that does not have the form expected of it. -/
def unreadable : ServiceError :=
  .transport "Invalid response body"

/-- The response of a request that was carried out. -/
def accepted : Option Http.Response → Except ServiceError Http.Response
  | none => .error (.transport "no response")
  | some r => if r.isSuccess then .ok r else .error (refusal r)

/-- A body that is one row. -/
def rowBody (r : Http.Response) : Except ServiceError Row :=
  match (Json.read? r.body).bind Value.row? with
  | some row => .ok row
  | none => .error unreadable

/-- The rows that a list of values is. -/
def rows? (items : List Value) : Option (List Row) :=
  items.mapM Value.row?

/-- A body that is a list of rows. -/
def rowsBody (r : Http.Response) : Except ServiceError (List Row) :=
  match Json.read? r.body with
  | some (.array items) =>
    match rows? items with
    | some rows => .ok rows
    | none => .error unreadable
  | _ => .error unreadable

/-- The row that an item of a result of raw SQL stands for: an object is itself, and anything else
a row with one column. -/
def resultRow (v : Value) : Row :=
  v.row?.getD (.single "result" v)

/-- The rows of a result of raw SQL. -/
def resultRows : Value → List Row
  | .null => []
  | .array items => items.map resultRow
  | v => [resultRow v]

/-- The number of rows that a range tells of: what stands behind its last slash. -/
def rangeTotal? (range : String) : Option Nat :=
  let total := (range.toList.reverse.takeWhile (· != '/')).reverse
  if range.toList.contains '/' ∧ range.toList.all (fun c => isHeaderChar c && c.toNat < 127) then
    Decimal.unsigned? (Text.trim total)
  else none

/-- The number of rows that a response tells of. -/
def affected? (r : Http.Response) : Option Nat :=
  (r.header? "content-range").bind rangeTotal?

/-- The outcome of a call from the response to its request. -/
def outcome (call : Call) (response : Option Http.Response) : call.Outcome :=
  match call with
  | .select q => do
    let r ← accepted response
    if q.single then return [← rowBody r] else rowsBody r
  | .insert _ _ => do
    let r ← accepted response
    return some (← rowBody r)
  | .update _ _ _ => do
    let r ← accepted response
    return ⟨← rowsBody r, affected? r⟩
  | .delete _ _ => do
    let r ← accepted response
    return affected? r
  | .rawSql _ =>
    match accepted response with
    | .error e => .error (if isMissingFunction e then .rawSqlUnavailable else e)
    | .ok r =>
      match Json.read? r.body with
      | some v => .ok (resultRows v)
      | none => .error unreadable

/-- The table service over a network. -/
def service {σ : Type} (r : Rest) (network : Http.Network σ) : Service σ :=
  fun call s =>
    match r.request? call with
    | some request =>
      let (response, s) := network request s
      (outcome call response, s)
    | none => (.error .rawSqlUnavailable, s)

end Rest

end TableSql
