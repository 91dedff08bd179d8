import TableSql.Statement.Clause

/-!
# The grammar of statements

```text
SELECT <* | column, ...> FROM t [WHERE c = v AND ...] [ORDER BY c [ASC | DESC], ...]
       [LIMIT n] [OFFSET m]
INSERT INTO t (c, ...) VALUES (v, ...)
UPDATE t SET c = v, ... WHERE c = v AND ...
DELETE FROM t WHERE c = v AND ...
```

Semicolons may stand at the end. A change or removal needs a condition that became a filter:
without one it would reach every row.

## Main definitions

* `Grammar.select`, `Grammar.insert`, `Grammar.update`, `Grammar.delete` — the statements, as
  readers of all their tokens.

## Main results

* `Grammar.length_of_operand` — what follows a value is not longer than the tokens.
-/

namespace TableSql

namespace Grammar

/-! ### Columns and values -/

/-- The columns of a reading: `*`, or one or more names. -/
def columns (ts : List Token) : Reading Columns :=
  match ts with
  | .star :: rest => .ok (.all, rest)
  | _ =>
    match names ts with
    | .ok (ws, rest) => .ok (.named ws, rest)
    | .error e => .error e

/-- The operand of the span that ends at a token that `stop` holds of. -/
def operand (stop : Token → Bool) (c : Cursor) (ts : List Token) : Reading (Operand × Cursor) :=
  match takeSpan stop 0 ts with
  | ([], _) => .error (.before ts.length .expectedValue)
  | (span, rest) =>
    match c.value span with
    | (some a, c) => .ok ((a, c), rest)
    | (none, _) => .error (.before ts.length .unsupportedValue)

/-- What follows a value is not longer than the tokens. -/
theorem length_of_operand {stop : Token → Bool} {c c' : Cursor} {ts rest : List Token}
    {a : Operand} (h : operand stop c ts = .ok ((a, c'), rest)) : rest.length ≤ ts.length := by
  have hlen := takeSpan_length_le stop 0 ts
  unfold operand at h
  split at h
  · cases h
  · rename_i heq
    rw [heq] at hlen
    split at h
    · cases h
      exact hlen
    · cases h

/-- The values of a list, with commas between them. -/
def values (c : Cursor) (ts : List Token) : Reading (List Operand) :=
  match _h : operand (· = .comma) c ts with
  | .error e => .error e
  | .ok ((a, c), .comma :: rest) =>
    match values c rest with
    | .ok (as, rest) => .ok (a :: as, rest)
    | .error e => .error e
  | .ok ((a, _), rest) => .ok ([a], rest)
termination_by ts.length
decreasing_by
  have := length_of_operand _h
  simp only [List.length_cons] at this
  omega

/-- The tokens that end a value of an assignment. -/
def endsAssignment (t : Token) : Bool :=
  t = .comma || t.isKeyword .WHERE

/-- A name, an equality sign and a value. -/
def assignment (c : Cursor) (ts : List Token) : Reading ((String × Operand) × Cursor) :=
  match name ts with
  | .error e => .error e
  | .ok (w, rest) =>
    match mark .equals .assign rest with
    | .error e => .error e
    | .ok rest =>
      match operand endsAssignment c rest with
      | .error e => .error e
      | .ok ((a, c), rest) => .ok (((w, a), c), rest)

theorem length_of_mark {t : Token} {m : RequiredMark} {ts rest : List Token}
    (h : mark t m ts = .ok rest) : rest.length ≤ ts.length := by
  unfold mark at h
  split at h
  · cases h
    simp
  · cases h

theorem length_of_assignment {c : Cursor} {ts rest : List Token}
    {r : (String × Operand) × Cursor} (h : assignment c ts = .ok (r, rest)) :
    rest.length ≤ ts.length := by
  unfold assignment at h
  split at h
  · cases h
  · rename_i hname
    have hname := length_of_name hname
    split at h
    · cases h
    · rename_i hmark
      have hmark := length_of_mark hmark
      split at h
      · cases h
      · rename_i hvalue
        have hvalue := length_of_operand hvalue
        cases h
        omega

/-- The assignments of a change, with commas between them. -/
def assignments (c : Cursor) (ts : List Token) : Reading (List (String × Operand) × Cursor) :=
  match _h : assignment c ts with
  | .error e => .error e
  | .ok ((x, c), .comma :: rest) =>
    match assignments c rest with
    | .ok ((xs, c), rest) => .ok ((x :: xs, c), rest)
    | .error e => .error e
  | .ok ((x, c), rest) => .ok (([x], c), rest)
termination_by ts.length
decreasing_by
  have := length_of_assignment _h
  simp only [List.length_cons] at this
  omega

/-! ### Statements -/

/-- A reading of rows. -/
def select (read : CountReader) (c : Cursor) (ts : List Token) : Except Fault (Select Operand) := do
  let ts ← keyword .SELECT ts
  let (columns, ts) ← columns ts
  let ts ← keyword .FROM ts
  let s ← Source.read read c ts
  return ⟨s.table, columns, s.filters, s.order, s.limit, s.offset⟩

/-- An insertion of one row: its table and its values. -/
def insert (c : Cursor) (ts : List Token) : Except Fault (String × Record Operand) := do
  let ts ← keyword .INSERT ts
  let ts ← keyword .INTO ts
  let (table, ts) ← name ts
  let ts ← mark .openParen .openColumns ts
  let (columns, ts) ← names ts
  let ts ← mark .closeParen .closeColumns ts
  let ts ← keyword .VALUES ts
  let ts ← mark .openParen .openValues ts
  let (values, ts) ← values c ts
  let ts ← mark .closeParen .closeValues ts
  if ts.head? = some .comma then throw (.before ts.length .severalRows)
  finish ts
  if columns.length ≠ values.length then
    throw (.whole (.unequalLists columns.length values.length))
  return (table, .ofList (columns.zip values))

/-- The filters of a write: there is at least one. -/
def writeFilters (verb : Keyword) (c : Cursor) (ts : List Token) :
    Except Fault (List (Filter Operand)) := do
  let ts ← keyword .WHERE ts
  let (spans, ts) ← conjuncts ts
  let filters := (c.conditions spans).1.filterMap id
  finish ts
  if filters.isEmpty then throw (.whole (.unfiltered verb))
  return filters

/-- A change of rows: its table, its assignments and its filters. -/
def update (c : Cursor) (ts : List Token) :
    Except Fault (String × Record Operand × List (Filter Operand)) := do
  let ts ← keyword .UPDATE ts
  let (table, ts) ← name ts
  let ts ← keyword .SET ts
  let ((assigned, c), ts) ← assignments c ts
  let filters ← writeFilters .UPDATE c ts
  return (table, .ofList assigned, filters)

/-- A removal of rows: its table and its filters. -/
def delete (c : Cursor) (ts : List Token) : Except Fault (String × List (Filter Operand)) := do
  let ts ← keyword .DELETE ts
  let ts ← keyword .FROM ts
  let (table, ts) ← name ts
  let filters ← writeFilters .DELETE c ts
  return (table, filters)

end Grammar

end TableSql
