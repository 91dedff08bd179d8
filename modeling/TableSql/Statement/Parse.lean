import TableSql.Statement.Aggregate
import TableSql.Statement.Grammar
import TableSql.Text.Blank

/-!
# From text to statement

The kind of a statement is decided by its first word, except that an aggregate call anywhere makes
it an aggregate. A statement is *prepared* from its text: its structure is found and its markers
become operands. Binding the parameters then gives the statement that runs. The parameters take
part in preparing only where a count of rows is a marker, since a parameter that is no count is an
error at that place.

Blanks at the ends of the text are removed first, and positions count from there.

## Main definitions

* `classify` — the kind of a text.
* `Bindings.count?` — the parameter that a count of rows takes.
* `Scan.prepare` — the prepared statement.
* `parse` — the statement with its parameters in place.
-/

namespace TableSql

/-- Whether an aggregate function with an opening parenthesis stands anywhere. -/
def hasAggregateCall : List Token → Bool
  | t :: .openParen :: ts => t.isAggregateWord || hasAggregateCall (.openParen :: ts)
  | _ :: ts => hasAggregateCall ts
  | [] => false

/-- The kind of a statement by its first keyword. -/
def Keyword.statementKind (k : Keyword) : StatementKind :=
  match k with
  | SELECT => .select
  | INSERT => .insert
  | UPDATE => .update
  | DELETE => .delete
  | k => if k.isSchema then .schema else .unsupported

/-- The kind of a list of tokens. -/
def kindOfTokens (ts : List Token) : StatementKind :=
  match ts with
  | .word w :: _ =>
    if hasAggregateCall ts then .aggregate
    else ((Keyword.ofWord? w).map Keyword.statementKind).getD .unsupported
  | _ => .unsupported

/-- The lexemes of a text without the blanks at its ends. -/
def scanTrimmed (sql : String) : Except SyntaxError Scan :=
  scan (Text.trim sql.toList)

/-- The kind of a text. One that cannot be scanned is of no supported kind. -/
def classify (sql : String) : StatementKind :=
  match scanTrimmed sql with
  | .ok s => kindOfTokens s.tokens
  | .error _ => .unsupported

/-- The count of rows that a value stands for: a natural number of 64 bits, or the text of one. -/
def Value.count? : Value → Option Nat
  | text s => Decimal.unsigned? (Text.trim s.toList)
  | v => v.unsigned?

/-- The count of rows that an operand stands for. -/
def Bindings.count? (b : Bindings) : Grammar.CountReader :=
  fun a => (b.value a).count?

/-- The first word of a statement in upper case. -/
def leadingWord : List Token → String
  | .word w :: _ => Text.upper w
  | _ => ""

namespace Scan

/-- The structure of a statement, from its tokens. -/
def prepareTokens (s : Scan) (read : Grammar.CountReader) : Except Fault (Statement Operand) :=
  let ts := s.tokens
  let mode := MarkerMode.detect ts
  let c := Cursor.start mode
  match kindOfTokens ts with
  | .select => (Grammar.select read c ts).map .select
  | .insert => (Grammar.insert c ts).map fun (table, values) => .insert table values
  | .update =>
    (Grammar.update c ts).map fun (table, values, filters) => .update table values filters
  | .delete => (Grammar.delete c ts).map fun (table, filters) => .delete table filters
  | .aggregate => .ok (.aggregate ⟨Grammar.aggregateShape? s.excerpt read c ts, s.fragments mode⟩)
  | .schema => .ok (.schema (leadingWord ts))
  | .unsupported => .error (.whole .unrecognized)

/-- The prepared statement of a text that was scanned. -/
def prepare (s : Scan) (read : Grammar.CountReader) : Except SyntaxError (Statement Operand) :=
  (s.prepareTokens read).mapError (Fault.locate s)

end Scan

/-- The statement of a text, with its parameters in place. -/
def parse (b : Bindings) (sql : String) : Except SyntaxError (Statement Value) := do
  let s ← scanTrimmed sql
  let statement ← s.prepare b.count?
  return statement.map b.value

end TableSql
