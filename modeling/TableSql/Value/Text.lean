import TableSql.Decimal.Layout
import TableSql.Value

/-!
# The JSON text of a value

Values are written as JSON without blanks. The same text stands for a value wherever it is shown
as text: in the operand of a filter, in a literal of SQL, in the comparison of two cells and in
the body of a request.

## Main definitions

* `Json.string` — a text between quotes, with its control characters escaped.
* `Value.json` — the text of a value.
* `Value.display` — a text as itself and any other value in JSON.
* `Value.shown` — the same for a reader of SQL, with null as `NULL`.
-/

namespace TableSql

namespace Json

/-- The hexadecimal digit of a number below sixteen, in lower case. -/
def hexDigit (n : Nat) : Char :=
  if n < 10 then Char.ofNat (48 + n) else Char.ofNat (87 + n)

/-- A character inside a JSON string. Quotes, backslashes and control characters are escaped, and
nothing else is. -/
def escaped (c : Char) : List Char :=
  match c with
  | '"' => ['\\', '"']
  | '\\' => ['\\', '\\']
  | '\n' => ['\\', 'n']
  | '\r' => ['\\', 'r']
  | '\t' => ['\\', 't']
  | '\x08' => ['\\', 'b']
  | '\x0c' => ['\\', 'f']
  | c =>
    if c.toNat < 32 then
      ['\\', 'u', '0', '0', hexDigit (c.toNat / 16), hexDigit (c.toNat % 16)]
    else [c]

/-- A text as a JSON string. -/
def string (s : String) : String :=
  String.ofList ('"' :: (s.toList.flatMap escaped ++ ['"']))

/-- The text of a floating-point number; JSON has none for infinities and NaN. -/
def number (x : Float) : String :=
  if x.isFinite then Decimal.Layout.cell.write x else "null"

end Json

namespace Value

mutual

/-- The value in JSON, without blanks. -/
def json : Value → String
  | null => "null"
  | bool true => "true"
  | bool false => "false"
  | int i => String.ofList (Decimal.ofInt i)
  | float x => Json.number x
  | text s => Json.string s
  | array items => "[" ++ ",".intercalate (jsonItems items) ++ "]"
  | object entries => "\x7b" ++ ",".intercalate (jsonEntries entries) ++ "\x7d"

/-- The texts of the items of an array. -/
def jsonItems : List Value → List String
  | [] => []
  | v :: vs => v.json :: jsonItems vs

/-- The texts of the entries of an object. -/
def jsonEntries : List (String × Value) → List String
  | [] => []
  | (name, v) :: es => (Json.string name ++ ":" ++ v.json) :: jsonEntries es

end

/-- A text as itself, any other value in JSON. -/
def display : Value → String
  | text s => s
  | v => v.json

/-- A text as itself, null as SQL writes it, any other value in JSON. -/
def shown (v : Value) : String :=
  if v.isNull then "NULL" else v.display

end Value

end TableSql
