import TableSql.Decimal.Digits
import TableSql.Text.Printable
import TableSql.Value.Text

/-!
# Texts and values as an error shows them

An error that names the parameters of a statement shows each with its kind, and texts between
double quotes with everything escaped that would not be seen: control characters, other characters
that do not print, and the quote and the backslash themselves.

## Main definitions

* `Text.inspect` — a text between double quotes.
* `Value.inspect` — a value with its kind.
* `Value.inspectAll` — a list of values.
-/

namespace TableSql

namespace Text

/-- The hexadecimal digits of a code point, without leading zeros. -/
def hexDigits (n : Nat) : List Char :=
  if n < 16 then [Json.hexDigit n] else hexDigits (n / 16) ++ [Json.hexDigit (n % 16)]
termination_by n

/-- A character of a text that is shown between double quotes. -/
def inspectChar (c : Char) : List Char :=
  match c with
  | '\x00' => ['\\', '0']
  | '\t' => ['\\', 't']
  | '\r' => ['\\', 'r']
  | '\n' => ['\\', 'n']
  | '"' => ['\\', '"']
  | '\\' => ['\\', '\\']
  | c =>
    if isPrintable c then [c]
    else ['\\', 'u', '\x7b'] ++ hexDigits c.toNat ++ ['\x7d']

/-- A text between double quotes, with everything escaped that would not be seen. -/
def inspect (s : String) : String :=
  String.ofList ('"' :: (s.toList.flatMap inspectChar ++ ['"']))

end Text

namespace Value

mutual

/-- A value with its kind. -/
def inspect : Value → String
  | null => "Null"
  | bool true => "Bool(true)"
  | bool false => "Bool(false)"
  | int i => "Number(" ++ String.ofList (Decimal.ofInt i) ++ ")"
  | float x => "Number(" ++ Json.number x ++ ")"
  | text s => "String(" ++ Text.inspect s ++ ")"
  | array items => "Array [" ++ ", ".intercalate (inspectItems items) ++ "]"
  | object entries => "Object \x7b" ++ ", ".intercalate (inspectEntries entries) ++ "\x7d"

/-- The items of an array, each with its kind. -/
def inspectItems : List Value → List String
  | [] => []
  | v :: vs => v.inspect :: inspectItems vs

/-- The entries of an object, each with its kind. -/
def inspectEntries : List (String × Value) → List String
  | [] => []
  | (name, v) :: es => (Text.inspect name ++ ": " ++ v.inspect) :: inspectEntries es

end

/-- A list of values, each with its kind, between brackets. -/
def inspectAll (vs : List Value) : String :=
  "[" ++ ", ".intercalate (inspectItems vs) ++ "]"

end Value

end TableSql
