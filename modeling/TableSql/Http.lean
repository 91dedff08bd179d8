import TableSql.Text.Percent

/-!
# HTTP requests and responses

What is sent to a server and what comes back, and a network that carries the one there and perhaps
the other back. A network has a state, such as the responses that are still to come.

## Main definitions

* `Http.Request`, `Http.Request.target`.
* `Http.Response`, `Http.Response.header?`, `Http.Response.isSuccess`.
* `Http.Network`, `Http.Network.unreachable`, `Http.Network.given`.
-/

namespace TableSql.Http

/-- The methods of requests. -/
inductive Method where
  | get
  | post
  | patch
  | delete
  deriving DecidableEq, Repr

/-- The name of a method. -/
def Method.name : Method → String
  | get => "GET"
  | post => "POST"
  | patch => "PATCH"
  | delete => "DELETE"

/-- A request: its method, the URL with nothing in it encoded, the pairs of its query string, its
headers, and its body if it has one. -/
structure Request where
  method : Method
  url : String
  query : List (String × String)
  headers : List (String × String)
  body : Option String

/-- What follows the scheme and the host of a URL. -/
def pathOf (url : List Char) : List Char :=
  let behindScheme := (url.dropWhile (· != ':')).drop 3
  behindScheme.dropWhile (· != '/')

/-- The path and query string of a request as they are sent. -/
def Request.target (r : Request) : String :=
  let path := Text.pathEncode (pathOf r.url.toList)
  let query := if r.query.isEmpty then [] else '?' :: Text.formQuery r.query
  String.ofList (path ++ query)

/-- A response: its status, its headers with names in lower case, and its body. -/
structure Response where
  status : Nat
  headers : List (String × String)
  body : String
  deriving DecidableEq, Repr

namespace Response

/-- The value of a header. -/
def header? (r : Response) (name : String) : Option String :=
  (r.headers.find? fun h => h.1 = name).map Prod.snd

/-- Whether the status tells of success. -/
def isSuccess (r : Response) : Bool :=
  200 ≤ r.status && r.status < 300

end Response

/-- A network with a state: the response to a request, if one comes back. -/
abbrev Network (σ : Type) : Type :=
  Request → σ → Option Response × σ

/-- A network on which no server is reached. -/
def Network.unreachable {σ : Type} : Network σ :=
  fun _ s => (none, s)

/-- The network on which every request is answered by the response that is its state. -/
def Network.given : Network (Option Response) :=
  fun _ response => (response, response)

end TableSql.Http
