import TableSql.Settings
import TableSql.Toml.Reader

/-!
# Settings from a file

Settings are read from a TOML document with the tables `rest` and `logging`. A setting that is
missing keeps its default, and a name that is not known is passed over; a setting of another kind
than expected is refused, with the whole document. A table may also be written as an array of its
settings in their order; then the function for raw SQL must be there.

## Main definitions

* `Settings.ofEntries?` — the settings of a document.
* `Settings.read` — the settings of the text of a file.
-/

namespace TableSql

open Toml (Node Entries)

/-- The text that a value of a document is. -/
def Toml.Node.text? : Node → Option String
  | scalar (.text s) => some s
  | _ => none

/-- The natural number that a value of a document is. -/
def Toml.Node.natural? : Node → Option Nat
  | scalar (.integer i) => if 0 ≤ i then some i.toNat else none
  | _ => none

/-- A setting that may be missing: what is read of its value, or the default. -/
def setting? {α : Type} (v : Option Node) (read : Node → Option α) (default : α) : Option α :=
  match v with
  | some v => read v
  | none => some default

/-- The settings of a service, from the values of its settings by name or by place. -/
def RestSettings.ofValues? (value : String → Nat → Option Node) (functionRequired : Bool) :
    Option RestSettings := do
  let usual : RestSettings := {}
  let url ← setting? (value "url" 0) Node.text? usual.url
  let apiKey ← setting? (value "api_key" 1) Node.text? usual.apiKey
  let schema ← setting? (value "schema" 2) Node.text? usual.schema
  let restPath ← setting? (value "rest_path" 3) Node.text? usual.restPath
  let rpcFunction ← match value "rpc_function" 4 with
    | some v => v.text?.map some
    | none => if functionRequired then none else some none
  let rpcArgument ← setting? (value "rpc_argument" 5) Node.text? usual.rpcArgument
  let timeoutSeconds ← setting? (value "timeout_secs" 6) Node.natural? usual.timeoutSeconds
  let keyColumn ← setting? (value "key_column" 7) Node.text? usual.keyColumn
  return ⟨url, apiKey, schema, restPath, rpcFunction, rpcArgument, timeoutSeconds, keyColumn⟩

/-- The settings of a service, from a value of a document. A date or time has no named part, so it
gives the defaults. -/
def RestSettings.ofNode? : Node → Option RestSettings
  | .scalar .moment => some {}
  | .table _ es => RestSettings.ofValues? (fun name _ => Entries.get? es name) false
  | .inline es => RestSettings.ofValues? (fun name _ => Entries.get? es name) false
  | .array items => RestSettings.ofValues? (fun _ place => items[place]?) true
  | _ => none

/-- The filter of the log, from a value of a document. A date or time has no named part, so it
gives the default. -/
def logFilter? : Node → Option String
  | .scalar .moment => some "info"
  | .table _ es => setting? (Entries.get? es "filter") Node.text? "info"
  | .inline es => setting? (Entries.get? es "filter") Node.text? "info"
  | .array items => setting? items[0]? Node.text? "info"
  | _ => none

/-- The settings of a document. -/
def Settings.ofEntries? (es : Entries) : Option Settings := do
  let rest ← setting? (es.get? "rest") RestSettings.ofNode? {}
  let logFilter ← setting? (es.get? "logging") logFilter? "info"
  return ⟨rest, logFilter⟩

/-- The settings of the text of a file. -/
def Settings.read (text : String) : Except Failure Settings :=
  match (Toml.read? text).bind Settings.ofEntries? with
  | some s => .ok s
  | none => .error (.settings "invalid settings file")

end TableSql
