import TableSql.Decimal.Reading
import TableSql.Statement
import TableSql.Text.Blank

/-!
# Recipes for aggregates

Where a service runs no raw SQL, an aggregate is computed from the rows themselves. A recipe says
which aggregates it recognises, which rows and columns it needs, and how the rows are folded into
one value. The rows needed are those that pass the filters of the aggregate; some recipes demand
that there be filters on certain columns.

## Main definitions

* `Recipe`, `Recipe.sum`, `Recipe.applies`.
* `Recipe.rowCount` — the number of rows.
* `Cycles`, `Recipe.monthlySpend` — amounts of different cycles as a monthly amount.
* `Recipe.cellSum` — the sum of a column.

## Main results

* `Recipe.applies_iff` — the aggregates that a recipe computes.
-/

namespace TableSql

/-- A way to compute an aggregate from rows. -/
structure Recipe where
  id : String
  /-- Of several recipes the one of highest priority is taken. -/
  priority : Nat
  description : String
  /-- Whether the recipe computes an aggregate of this shape. -/
  recognises : AggregateShape Value → Bool
  /-- The columns that must be filtered. -/
  required : List String
  /-- The columns that it needs. -/
  columns : Columns
  /-- The name of the result where the aggregate has no alias. -/
  defaultAlias : String
  /-- What one row contributes. -/
  contribution : Row → Float
  /-- The value of a list of rows. -/
  fold : List Row → Value

namespace Recipe

/-- The sum of what the rows contribute, from the first row to the last. It starts from negative
zero, which leaves every first summand as it is. -/
def sum (contribution : Row → Float) (rows : List Row) : Float :=
  (rows.map contribution).foldl (· + ·) (-0.0)

/-- Whether the recipe computes the aggregate: it recognises the shape, and every column that must
be filtered is. -/
def applies (r : Recipe) (shape : AggregateShape Value) : Bool :=
  r.recognises shape && r.required.all shape.hasFilter

/-- A column that must be filtered is the column of one of the filters. -/
theorem applies_iff {r : Recipe} {shape : AggregateShape Value} :
    r.applies shape = true ↔ r.recognises shape = true ∧
      ∀ column ∈ r.required, ∃ f ∈ shape.filters, f.column = column := by
  simp only [applies, Bool.and_eq_true, List.all_eq_true, AggregateShape.hasFilter_iff]

/-! ### Counting rows -/

/-- The number of rows, for `COUNT(*)` and `COUNT(1)`. Counting a column would leave out its nulls
and is not recognised. Every row contributes one to a sum of floating-point numbers, so the number
is exact as long as the sum is. -/
def rowCount : Recipe where
  id := "row_count"
  priority := 100
  description := "COUNT of matching rows"
  recognises shape :=
    shape.function = "COUNT" && shape.bare &&
      ["*", "1"].contains (Text.trimmed shape.argument)
  required := []
  columns := .all
  defaultAlias := "count"
  contribution _ := 1.0
  fold rows := .int (sum (fun _ => 1.0) rows).toUInt64.toNat

end Recipe

/-! ### Amounts of different cycles -/

/-- How an amount is converted. -/
inductive Conversion where
  | divide (factor : Float)
  | multiply (factor : Float)

/-- The converted amount. -/
def Conversion.apply : Conversion → Float → Float
  | divide d, amount => amount / d
  | multiply m, amount => amount * m

/-- The columns of an amount and of its cycle, and how an amount of each cycle is converted. A
cycle that is not listed leaves its amounts as they are. -/
structure Cycles where
  amountColumn : String
  cycleColumn : String
  conversions : List (String × Conversion)

namespace Cycles

/-- The columns and cycles of subscriptions, converted to a month. -/
def subscriptions : Cycles where
  amountColumn := "amount"
  cycleColumn := "billing_cycle"
  conversions := [("yearly", .divide 12.0), ("half-yearly", .divide 6.0),
    ("quarterly", .divide 3.0), ("weekly", .multiply 4.33), ("daily", .multiply 30.44),
    ("monthly", .multiply 1.0)]

/-- The name of a cycle without blanks at its ends, in lower case, with hyphens for underscores
and spaces. -/
def normalised (cycle : String) : String :=
  let hyphenated (c : Char) : Char := if c = '_' ∨ c = ' ' then '-' else c.toLower
  String.ofList ((Text.trim cycle.toList).map hyphenated)

/-- How an amount of a cycle is converted. -/
def conversion (c : Cycles) (cycle : String) : Conversion :=
  let name := normalised cycle
  match c.conversions.find? fun e => e.1 = name with
  | some e => e.2
  | none => .multiply 1.0

/-- The amount of a row: a number or the text of one, and zero for anything else. -/
def amount (c : Cycles) (row : Row) : Float :=
  match row.get? c.amountColumn with
  | some (.text s) => (Decimal.float? (Text.trim s.toList)).getD 0.0
  | some v => v.number?.getD 0.0
  | none => 0.0

/-- The converted amount of a row. A row without a cycle counts as monthly. -/
def monthly (c : Cycles) (row : Row) : Float :=
  let cycle := ((row.get? c.cycleColumn).bind Value.text?).getD "monthly"
  (c.conversion cycle).apply (c.amount row)

end Cycles

namespace Recipe

/-- The amounts of the rows, each converted from its cycle: for a `SUM` that distinguishes the
cycles by a `CASE`. It is computed only for the rows of one user. -/
def monthlySpend (c : Cycles) : Recipe where
  id := "monthly_spend"
  priority := 200
  description := "SUM of amount converted to a monthly equivalent by billing cycle"
  recognises shape :=
    shape.function = "SUM" && shape.bare && shape.hasCase &&
      shape.mentions c.amountColumn && shape.mentions c.cycleColumn
  required := ["user_id"]
  columns := .named [c.amountColumn, c.cycleColumn]
  defaultAlias := "total"
  contribution := c.monthly
  fold rows := .ofFloat (sum c.monthly rows)

/-- The sum of the numbers in a column, for any aggregate of the given function. -/
def cellSum (id resultName function column : String) (priority : Nat) (required : List String) :
    Recipe :=
  let cell (row : Row) : Float := ((row.get? column).bind Value.number?).getD 0.0
  { id := id
    priority := priority
    description := "custom"
    recognises := fun shape => shape.function = function
    required := required
    columns := .named [column]
    defaultAlias := resultName
    contribution := cell
    fold := fun rows => .ofFloat (sum cell rows) }

end Recipe

end TableSql
