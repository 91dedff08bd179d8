import TableSql.Value

/-!
# Parameters on the command line

A parameter of a statement is given as a text. Texts that stand for a number, for a truth value or
for null are those values, and every other text is itself. A whole number of 64 bits stays whole;
any other number is a floating-point number, and null if JSON has no such number.

## Main definitions

* `CommandLine.parameter` — the value of a text.
-/

namespace TableSql.CommandLine

/-- The value of a text that stands for no number. -/
def namedValue : String → Value
  | "true" => .bool true
  | "false" => .bool false
  | "null" => .null
  | s => .text s

/-- The value of a parameter. -/
def parameter (s : String) : Value :=
  match Decimal.signed? s.toList with
  | some i => .int i
  | none =>
    match Decimal.float? s.toList with
    | some x => .ofFloat x
    | none => namedValue s

end TableSql.CommandLine
