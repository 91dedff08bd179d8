import TableSql.Statement
import TableSql.Statement.Fault
import TableSql.Statement.Span

/-!
# Values and conditions

A value is a single token or a call that means the current time. A condition is understood if it
says that a column equals a value, or that a column is null. Conditions are joined by `AND`; one
that is not understood yields no filter, and it passes over its markers so that those behind it
keep their parameters.

The conjuncts are first cut out of the statement, without regard to their meaning, and then
understood one after the other.

## Main definitions

* `Cursor.value` — the operand of a span of tokens.
* `Cursor.condition`, `Cursor.conditions` — the filters of conjuncts.
* `conjuncts` — the conjuncts at the front of a list of tokens.
-/

namespace TableSql

/-- Whether a token may be a value on its own. -/
def Token.isValue : Token → Bool
  | word _ => true
  | quotedName _ => true
  | string _ => true
  | number _ => true
  | marker _ => true
  | _ => false

namespace Cursor

/-- The operand of a span: a single token, or a call that means the current time. The markers of
anything else are passed over. -/
def value (c : Cursor) : List Token → Option Operand × Cursor
  | [t] => if t.isValue then (some (c.resolve t).1, (c.resolve t).2) else (none, c)
  | span =>
    match FunctionCall.ofSpan? span with
    | some call => (callOperand? call.function call.args, c.skipAll call.args)
    | none => (none, c.skipAll span)

/-- The filter of a condition: a name, an equality sign and a value, or a name and `IS NULL`. -/
def condition (c : Cursor) : List Token → Option (Filter Operand) × Cursor
  | column :: .equals :: t :: ts =>
    match column.name? with
    | some name =>
      let (a, c) := c.value (t :: ts)
      (a.map (Filter.mk name), c)
    | none => (none, c.skipAll (column :: .equals :: t :: ts))
  | [column, is, null] =>
    if is.isKeyword .IS ∧ null.isKeyword .NULL then
      (column.name?.map fun name => ⟨name, .literal .null⟩, c)
    else (none, c.skipAll [column, is, null])
  | span => (none, c.skipAll span)

/-- The filters of a list of conditions, `none` for those that are not understood. -/
def conditions (c : Cursor) : List (List Token) → List (Option (Filter Operand)) × Cursor
  | [] => ([], c)
  | span :: spans =>
    let (filter, c) := c.condition span
    let (filters, c) := c.conditions spans
    (filter :: filters, c)

@[simp]
theorem length_conditions (c : Cursor) (spans : List (List Token)) :
    (c.conditions spans).1.length = spans.length := by
  induction spans generalizing c with
  | nil => rfl
  | cons span spans ih => simp [conditions, ih]

end Cursor

/-! ### Conjuncts -/

/-- The tokens that end a conjunct outside parentheses. -/
def endsConjunct (t : Token) : Bool :=
  t.isKeyword .AND || t = .semicolon || (t.keyword?.map Keyword.endsCondition).getD false

/-- The conjuncts at the front of a list of tokens, and the tokens behind them. No conjunct is
empty. -/
def conjuncts (ts : List Token) : Except Fault (List (List Token) × List Token) :=
  match _h : takeSpan endsConjunct 0 ts with
  | ([], _) => .error (.before ts.length .expectedCondition)
  | (span, []) => .ok ([span], [])
  | (span, t :: rest) =>
    if t.isKeyword .AND then
      match conjuncts rest with
      | .ok (spans, rest) => .ok (span :: spans, rest)
      | .error e => .error e
    else .ok ([span], t :: rest)
termination_by ts.length
decreasing_by
  have := takeSpan_length_le endsConjunct 0 ts
  rw [_h] at this
  simp only [List.length_cons] at this
  omega

end TableSql
