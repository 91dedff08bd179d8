import TableSql.Http
import TableSql.Json.Symbol
import TableSql.Text.Blank
import TableSql.Text.Caseless

/-!
# Requests and responses on the wire

A request is sent as a text over a connection of its own, and the response is all that comes back
until the server closes the connection: a line with the status, a line for each header, an empty
line, and the body. The body is as long as its length header says, or comes in chunks that each
say their length, or else goes on to the end.

## Main definitions

* `Http.Origin`, `Http.Origin.ofUrl?` — where the server of a URL listens.
* `Http.Request.wire` — the text of a request.
* `Http.Response.ofBytes?` — the response that bytes are.
-/

namespace TableSql.Http

/-! ### Requests -/

/-- The host of a server, and the number of the socket at which it listens. -/
structure Origin where
  host : String
  socket : Nat
  deriving DecidableEq, Repr

/-- The origin of a URL whose scheme is `http`. -/
def Origin.ofUrl? (url : String) : Option Origin :=
  let scheme := "http://".toList
  if scheme.isPrefixOf url.toList then
    let authority :=
      (url.toList.drop scheme.length).takeWhile fun c => c != '/' && c != '?' && c != '#'
    let host := String.ofList (authority.takeWhile (· != ':'))
    match authority.dropWhile (· != ':') with
    | [] => some ⟨host, 80⟩
    | _ :: digits => (Decimal.natural? digits).map fun socket => ⟨host, socket⟩
  else none

/-- The name of an origin in a request. -/
def Origin.name (o : Origin) : String :=
  if o.socket = 80 then o.host else o.host ++ ":" ++ Decimal.text o.socket

/-- The end of a line. -/
def lineEnd : String := "\r\n"

/-- The headers that a request needs besides its own. -/
def Request.addedHeaders (r : Request) (o : Origin) : List (String × String) :=
  let accept := if r.headers.any fun h => h.1 = "accept" then [] else [("accept", "*/*")]
  let length := match r.body with
    | some body => [("content-length", Decimal.text body.utf8ByteSize)]
    | none => []
  ("host", o.name) :: ("connection", "close") :: accept ++ length

/-- The text of a request as it is sent to its server. -/
def Request.wire (r : Request) (o : Origin) : String :=
  let start := r.method.name ++ " " ++ r.target ++ " HTTP/1.1"
  let headers := (r.addedHeaders o ++ r.headers).map fun h => h.1 ++ ": " ++ h.2
  String.join ((start :: headers).map (· ++ lineEnd)) ++ lineEnd ++ r.body.getD ""

/-! ### Responses -/

/-- The first line of bytes without its end, and the bytes behind it; `none` if no line ends. -/
def readLine? : List UInt8 → Option (List UInt8 × List UInt8)
  | 13 :: 10 :: bs => some ([], bs)
  | b :: bs => (readLine? bs).map fun (line, rest) => (b :: line, rest)
  | [] => none

theorem length_of_readLine? {bs line rest : List UInt8} (h : readLine? bs = some (line, rest)) :
    rest.length < bs.length := by
  fun_induction readLine? bs generalizing line with
  | case1 bs =>
    simp only [Option.some.injEq, Prod.mk.injEq] at h
    simp only [h.2, List.length_cons]
    omega
  | case2 b bs _ ih =>
    obtain ⟨⟨line', rest'⟩, hread, heq⟩ := Option.map_eq_some_iff.1 h
    simp only [Prod.mk.injEq] at heq
    have := ih (heq.2 ▸ hread)
    simp only [List.length_cons]
    omega
  | case3 => cases h

/-- The lines up to an empty one, and the bytes behind that; `none` if there is no empty line. -/
def readHead? (bs : List UInt8) : Option (List (List UInt8) × List UInt8) :=
  match _h : readLine? bs with
  | none => none
  | some ([], rest) => some ([], rest)
  | some (line, rest) => (readHead? rest).map fun (lines, rest) => (line :: lines, rest)
termination_by bs.length
decreasing_by exact length_of_readLine? _h

/-- The characters of a line, one for each byte. -/
def lineChars (line : List UInt8) : List Char :=
  line.map fun b => Char.ofNat b.toNat

/-- The status of a response, from its first line. -/
def status? (line : List UInt8) : Option Nat :=
  let behindVersion := (lineChars line).dropWhile (· != ' ')
  Decimal.natural? ((behindVersion.drop 1).takeWhile (· != ' '))

/-- The name and the value of a header, the name in lower case. -/
def headerOfLine? (line : List UInt8) : Option (String × String) :=
  let cs := lineChars line
  match cs.dropWhile (· != ':') with
  | [] => none
  | _ :: value =>
    some (Text.lower (String.ofList (cs.takeWhile (· != ':'))), String.ofList (Text.trim value))

/-- The length of a chunk, from the line in front of it. -/
def chunkLength? (line : List UInt8) : Option Nat :=
  let digits := Text.trim ((lineChars line).takeWhile (· != ';'))
  if digits.isEmpty then none
  else digits.foldlM (fun n c => (Json.ofHexDigit? c).map (n * 16 + ·)) 0

/-- The bytes of chunks. -/
def readChunks? (bs : List UInt8) : Option (List UInt8) :=
  match _h : readLine? bs with
  | none => none
  | some (line, rest) =>
    match chunkLength? line with
    | none => none
    | some 0 => some []
    | some n =>
      if rest.length < n then none
      else (readChunks? (rest.drop (n + 2))).map (rest.take n ++ ·)
termination_by bs.length
decreasing_by
  have := length_of_readLine? _h
  simp only [List.length_drop]
  omega

/-- The bytes of the body, from the headers and the bytes behind them. -/
def body? (headers : List (String × String)) (bs : List UInt8) : Option (List UInt8) :=
  let value (name : String) := (headers.find? fun h => h.1 = name).map Prod.snd
  if (value "transfer-encoding").any fun v => Text.Caseless v "chunked" then readChunks? bs
  else
    match value "content-length" with
    | some length =>
      (Decimal.natural? length.toList).bind fun n =>
        if bs.length < n then none else some (bs.take n)
    | none => some bs

/-- The response that bytes are; `none` if they are none, or its body is no UTF-8. -/
def Response.ofBytes? (bs : List UInt8) : Option Response := do
  let (lines, rest) ← readHead? bs
  let status ← lines.head?.bind status?
  let headers := lines.tail.filterMap headerOfLine?
  let body ← body? headers rest
  return ⟨status, headers, ← String.fromUTF8? ⟨body.toArray⟩⟩

end TableSql.Http
