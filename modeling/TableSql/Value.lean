import TableSql.Decimal.Reading
import TableSql.Record

/-!
# Values

A cell of a row, a parameter of a statement and a value of an answer are all JSON values. Whole
numbers are kept exactly; a number written with a fraction or an exponent is a floating-point
number and stays one, so that `1` and `1.0` are different values.

## Main definitions

* `Value`, `Row`.
* `Value.ofFloat` — a finite number, or null in place of a number that JSON cannot write.
* `Value.signed?`, `Value.unsigned?`, `Value.number?` — the numbers that a value holds.
* `Value.ofRow`, `Value.row?` — rows as values.
-/

namespace TableSql

/-- A JSON value. The entries of an object are in the order of their names. -/
inductive Value where
  | null
  | bool (b : Bool)
  | int (i : Int)
  | float (x : Float)
  | text (s : String)
  | array (items : List Value)
  | object (entries : List (String × Value))
  deriving Inhabited

/-- A row of a table: a value for each of its columns. -/
abbrev Row := Record Value

namespace Value

/-- Whether the value is null. -/
def isNull : Value → Bool
  | null => true
  | _ => false

/-- A floating-point number as a value: null where JSON has no such number. -/
def ofFloat (x : Float) : Value :=
  if x.isFinite then float x else null

/-- The integer of 64 bits that the value is. -/
def signed? : Value → Option Int
  | int i => if Decimal.isSigned i then some i else none
  | _ => none

/-- The natural number of 64 bits that the value is. -/
def unsigned? : Value → Option Nat
  | int i => if Decimal.isUnsigned i then some i.toNat else none
  | _ => none

/-- The number that the value is, rounded to floating point. -/
def number? : Value → Option Float
  | int i => some (Decimal.floatOfInt i)
  | float x => some x
  | _ => none

/-- The text that the value is. -/
def text? : Value → Option String
  | text s => some s
  | _ => none

/-- An object: of two entries of one name the later one holds. -/
def ofEntries (entries : List (String × Value)) : Value :=
  object (Record.ofList entries).entries

mutual

/-- The value with the entries of every object in the order of their names. -/
def ordered : Value → Value
  | array items => array (orderedItems items)
  | object entries => ofEntries (orderedEntries entries)
  | v => v

/-- The items of an array, each in order. -/
def orderedItems : List Value → List Value
  | [] => []
  | v :: vs => v.ordered :: orderedItems vs

/-- The entries of an object, each with its value in order. -/
def orderedEntries : List (String × Value) → List (String × Value)
  | [] => []
  | (name, v) :: es => (name, v.ordered) :: orderedEntries es

end

/-- The object with the entries of a row. -/
def ofRow (row : Row) : Value :=
  object row.entries

/-- The row that an object stands for. -/
def row? : Value → Option Row
  | object entries => some (.ofList entries)
  | _ => none

end Value

end TableSql
