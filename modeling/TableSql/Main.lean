import Std.Async.DNS
import Std.Async.TCP
import TableSql.CommandLine.Session
import TableSql.Http.Wire
import TableSql.Timestamp

/-!
# The program

The outer layer: arguments, environment, files, the clock and the network. It finds out what the
session needs, lets the session run, and shows its report. Servers are reached over plain HTTP.

## Main definitions

* `main`.
-/

namespace TableSql.Main

open CommandLine

/-! ### The network -/

/-- Everything that comes over a connection until its other end is closed. -/
partial def receiveAll (client : Std.Async.TCP.Socket.Client) (received : ByteArray) :
    Std.Async.Async ByteArray := do
  match ← client.recv? 65536 with
  | some bytes => receiveAll client (received ++ bytes)
  | none => return received

/-- The address of a socket, from its number. -/
def socketAddress (socket : Nat) : Std.Net.IPAddr → Std.Net.SocketAddress
  | .v4 addr => .v4 ⟨addr, socket.toUInt16⟩
  | .v6 addr => .v6 ⟨addr, socket.toUInt16⟩

/-- Sends a request to a server and receives what it answers. -/
def exchangeBytes (origin : Http.Origin) (request : Http.Request) : IO ByteArray := do
  let addresses ← (Std.Async.DNS.getAddrInfo origin.host (toString origin.socket)).block
  let some address := addresses[0]? | throw (.userError "no address")
  let client ← Std.Async.TCP.Socket.Client.mk
  let exchange : Std.Async.Async ByteArray := do
    client.connect (socketAddress origin.socket address)
    client.send (request.wire origin).toUTF8
    receiveAll client .empty
  exchange.block

/-- The response to a request, if one comes back. -/
def exchange (request : Http.Request) : IO (Option Http.Response) := do
  match Http.Origin.ofUrl? request.url with
  | none => return none
  | some origin =>
    try return Http.Response.ofBytes? (← exchangeBytes origin request).toList
    catch _ => return none

/-- Holds a dialogue with a table service over the network. -/
def converse {α : Type} (service : Rest) : Dialogue α → IO α
  | .done a => return a
  | .ask call next => do
    let response ← match service.request? call with
      | some request => exchange request
      | none => pure none
    converse service (next (service.service Http.Network.given call response).1)

/-! ### Files -/

/-- What is said about a file that cannot be read. -/
def readingFault : IO.Error → String
  | .noFileOrDirectory _ _ _ => "No such file or directory (os error 2)"
  | .permissionDenied _ _ _ => "Permission denied (os error 13)"
  | .inappropriateType _ _ _ => "Is a directory (os error 21)"
  | e => toString e

/-- The text of a file, or the reason why it cannot be read. -/
def readFile (path : String) : IO (Except String String) := do
  try
    let bytes ← IO.FS.readBinFile path
    return match String.fromUTF8? bytes with
      | some text => .ok text
      | none => .error "stream did not contain valid UTF-8"
  catch e => return .error (readingFault e)

/-- The place where the user's settings are kept. -/
def usualPath : IO (Option String) := do
  let given := (← IO.getEnv "XDG_CONFIG_HOME").filter (·.startsWith "/")
  let inHome := (← IO.getEnv "HOME").filter (· ≠ "") |>.map (· ++ "/.config")
  return (given.or inHome).map (· ++ "/restsql/config.toml")

/-- The source of the settings for an invocation. -/
def settingsSource (invocation : Invocation) : IO SettingsSource := do
  match invocation.settingsFile with
  | some path => return .named path (← readFile path)
  | none =>
    match ← usualPath with
    | none => return .defaults
    | some path =>
      match ← readFile path with
      | .error "No such file or directory (os error 2)" => return .defaults
      | content => return .usual content

/-! ### The program -/

/-- The variables of the environment that the program looks at. -/
def readVariables : List String :=
  ["RESTSQL_CONFIG", "RESTSQL_URL", "RESTSQL_API_KEY", "RESTSQL_SCHEMA", "RESTSQL_RPC_FUNCTION"]

/-- The current time as a text. -/
def now : IO String := do
  let time ← Std.Time.Timestamp.now
  return Timestamp.text time.toMillisecondsSinceUnixEpoch.val.toNat

/-- Runs the program and shows its report. -/
def run (args : List String) : IO UInt32 := do
  let found ← readVariables.filterMapM fun name => do
    return (← IO.getEnv name).map fun value => (name, value)
  let lookup (name : String) := found.lookup name
  let request := readArguments (lookup "RESTSQL_CONFIG") args
  let source ← match request with
    | .invoke invocation => settingsSource invocation
    | _ => pure .defaults
  let report ← match respond source lookup (← now) request with
    | .report report => pure report
    | .converse service dialogue => converse service dialogue
  IO.print report.output
  IO.eprint report.errors
  return report.status.toUInt32

end TableSql.Main

/-- Runs the program on its arguments. -/
def main (args : List String) : IO UInt32 :=
  TableSql.Main.run args
