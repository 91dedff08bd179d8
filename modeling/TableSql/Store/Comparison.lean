import TableSql.Statement
import TableSql.Text.Blank

/-!
# Comparing cells

A filter compares the cell of a row with a value that may have come as a text, so the two are
equal in a loose sense: a truth value with any spelling of it, numbers with the texts of numbers,
and otherwise the texts of the two. Null equals only null, and a missing cell counts as null.

Sorting compares two cells as numbers if both are, else by their texts; null and missing cells are
greater than all others.

## Main definitions

* `Value.truth?`, `Value.quantity?` — a value as a truth value and as a number.
* `Value.looselyEqual`, `Filter.admits`, `Row.passes`.
* `compareCells`, `compareRows` — the order of cells and of rows.
-/

namespace TableSql

namespace Value

/-- The truth value that a value spells. -/
def truth? : Value → Option Bool
  | bool b => some b
  | int i => if Decimal.isSigned i then some (i ≠ 0) else none
  | text s =>
    let s := Text.lower s
    if s = "true" ∨ s = "t" ∨ s = "1" then some true
    else if s = "false" ∨ s = "f" ∨ s = "0" then some false
    else none
  | _ => none

/-- The number that a value is or spells. -/
def quantity? : Value → Option Float
  | text s => Decimal.float? (Text.trim s.toList)
  | v => v.number?

/-- Equality of numbers if both values are or spell numbers, else of their texts. -/
def equalAsText (a b : Value) : Bool :=
  match a.quantity?, b.quantity? with
  | some x, some y => x == y
  | _, _ => a.display = b.display

/-- Equality of a cell with the value of a filter. -/
def looselyEqual : Value → Value → Bool
  | null, null => true
  | null, _ => false
  | _, null => false
  | bool b, v => v.truth? = some b
  | v, bool b => v.truth? = some b
  | v, w => equalAsText v w

end Value

/-- Whether a row passes a filter. A missing cell passes as null. -/
def Filter.admits (f : Filter Value) (row : Row) : Bool :=
  match row.get? f.column with
  | some cell => cell.looselyEqual f.value
  | none => f.value.isNull

/-- Whether a row passes all filters. -/
def passes (filters : List (Filter Value)) (row : Row) : Bool :=
  filters.all fun f => f.admits row

/-! ### Order -/

/-- The order of two numbers; two that have no order count as equal. -/
def compareNumbers (x y : Float) : Ordering :=
  if x < y then .lt else if y < x then .gt else .eq

/-- The order of two cells that are not null: of the numbers if both are or spell numbers, else of
their texts. -/
def compareValues (a b : Value) : Ordering :=
  match a.quantity?, b.quantity? with
  | some x, some y => compareNumbers x y
  | _, _ => compare a.display b.display

/-- The order of two cells: null and missing cells are greater than all others. -/
def compareCells (a b : Option Value) : Ordering :=
  match a.filter (!·.isNull), b.filter (!·.isNull) with
  | none, none => .eq
  | none, some _ => .gt
  | some _, none => .lt
  | some a, some b => compareValues a b

/-- The order of two rows under one sort key. -/
def SortKey.compare (k : SortKey) (a b : Row) : Ordering :=
  let order := compareCells (a.get? k.column) (b.get? k.column)
  match k.direction with
  | .ascending => order
  | .descending => order.swap

/-- The order of two rows: under the first sort key that tells them apart. -/
def compareRows : List SortKey → Row → Row → Ordering
  | [], _, _ => .eq
  | k :: ks, a, b => (k.compare a b).then (compareRows ks a b)

/-- The rows in order; rows that are equal under all keys keep their places. -/
def sortRows (keys : List SortKey) (rows : List Row) : List Row :=
  rows.mergeSort fun a b => (compareRows keys a b).isLE

end TableSql
