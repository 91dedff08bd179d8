import TableSql.Value.Text

/-!
# Indented JSON

Rows are shown to a reader as JSON over several lines: every item and every entry on a line of its
own, two blanks deeper than what holds it. Empty arrays and objects stay on one line.

## Main definitions

* `Value.pretty` — the indented text of a value.
-/

namespace TableSql

/-- The line break in front of a line at the given depth. -/
def Json.lineBreak (depth : Nat) : String :=
  "\n" ++ String.ofList (List.replicate (2 * depth) ' ')

namespace Value

mutual

/-- The value in JSON over several lines, for a value that stands at the given depth. -/
def prettyAt (depth : Nat) : Value → String
  | array [] => "[]"
  | array (v :: vs) =>
    "[" ++ ",".intercalate (prettyItems (depth + 1) (v :: vs)) ++ Json.lineBreak depth ++ "]"
  | object [] => "\x7b\x7d"
  | object (e :: es) =>
    "\x7b" ++ ",".intercalate (prettyEntries (depth + 1) (e :: es)) ++ Json.lineBreak depth ++
      "\x7d"
  | v => v.json

/-- The lines of the items of an array. -/
def prettyItems (depth : Nat) : List Value → List String
  | [] => []
  | v :: vs => (Json.lineBreak depth ++ v.prettyAt depth) :: prettyItems depth vs

/-- The lines of the entries of an object. -/
def prettyEntries (depth : Nat) : List (String × Value) → List String
  | [] => []
  | (name, v) :: es =>
    (Json.lineBreak depth ++ Json.string name ++ ": " ++ v.prettyAt depth) ::
      prettyEntries depth es

end

/-- The value in JSON over several lines. -/
def pretty (v : Value) : String :=
  v.prettyAt 0

end Value

end TableSql
