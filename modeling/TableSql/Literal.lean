import TableSql.Binding
import TableSql.Text.Quoted
import TableSql.Value.Text

/-!
# Literals

How a token of a statement stands for a value, and how a value is written as a literal of SQL.

A text between apostrophes is itself. The words `TRUE`, `FALSE` and `NULL` and the names of the
current time have their meaning in any mixture of cases; a number is an integer if it fits into 64
bits and else a floating-point number. Any other word, quoted name or operator stands for its own
text without quotes, and a mark for itself.

## Main definitions

* `Token.literal`, `Cursor.resolve` — the operand of a token.
* `callOperand?` — the operand of a function call.
* `Value.sqlLiteral` — a value as a literal of SQL.
-/

namespace TableSql

/-- The value of a number as written. One beyond the range of floating-point numbers is kept as a
text. -/
def numberValue (s : String) : Value :=
  match Decimal.signed? s.toList with
  | some i => .int i
  | none =>
    match Decimal.float? s.toList with
    | some x => if x.isFinite then .float x else .text s
    | none => .text s

/-- A text without quotes. -/
def withoutQuotes (s : String) : String :=
  String.ofList (s.toList.filter fun c => c != '\'' && c != '"')

/-- The operand of a token that is no marker of its statement. -/
def Token.literal : Token → Operand
  | string s => .literal (.text s)
  | word w =>
    match Keyword.ofWord? w with
    | some .TRUE => .literal (.bool true)
    | some .FALSE => .literal (.bool false)
    | some .NULL => .literal .null
    | some .CURRENT_TIMESTAMP => .now
    | _ => .literal (.text (withoutQuotes w))
  | number s => .literal (numberValue s)
  | quotedName w => .literal (.text (withoutQuotes w))
  | operator w => .literal (.text (withoutQuotes w))
  | marker .next => .literal (.text "?")
  | marker (.numbered n) => .literal (.text ("$" ++ Decimal.text n))
  | openParen => .literal (.text "(")
  | closeParen => .literal (.text ")")
  | comma => .literal (.text ",")
  | equals => .literal (.text "=")
  | star => .literal (.text "*")
  | dot => .literal (.text ".")
  | semicolon => .literal (.text ";")

/-- The operand of a token: a marker takes its parameter, any other token is a literal. -/
def Cursor.resolve (c : Cursor) (t : Token) : Operand × Cursor :=
  match t.marker? with
  | some m => c.take m
  | none => (t.literal, c)

/-- The operand of a call: the current time for a call that means it, and `none` for any other
call, whose value only the service could tell. -/
def callOperand? (name : String) (args : List Token) : Option Operand :=
  match args with
  | [] =>
    if Text.Caseless name "current_timestamp" ∨ Text.Caseless name "now" then some .now else none
  | [.string s] =>
    if Text.Caseless name "datetime" ∧ Text.Caseless s "now" then some .now else none
  | _ => none

/-- A text as a literal of SQL. -/
def sqlText (s : String) : String :=
  String.ofList (Text.quoted '\'' s.toList)

/-- A value as a literal of SQL. An array or object is written as the text of its JSON. -/
def Value.sqlLiteral : Value → String
  | null => "NULL"
  | bool true => "TRUE"
  | bool false => "FALSE"
  | int i => String.ofList (Decimal.ofInt i)
  | float x => Json.number x
  | text s => sqlText s
  | array items => sqlText (array items).json
  | object entries => sqlText (object entries).json

end TableSql
