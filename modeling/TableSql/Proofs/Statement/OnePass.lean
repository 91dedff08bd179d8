import TableSql.Proofs.Statement.Written

/-!
# Reading a statement in one pass

A statement is prepared without its parameters, and they are put in place when it has been read to
the end. It may as well be read in one pass, by a reader that knows the parameters and has the value
of a marker as soon as it comes to it: for a marker it takes a parameter, and a condition becomes a
filter with its value before the next condition is cut out. Both ways give the same statement of
every text, or the same error at the same place.

## Main definitions

* `Binder`, `Binder.bind`, `Binder.value`, `Binder.condition` — the values of markers, of spans and
  of conditions.
* `Binder.conditions`, `Binder.source` — the clauses of a statement.
* `Scan.bindTokens`, `parseInOnePass` — the statement of a scan and of a text.

## Main results

* `Binder.value_ofCursor`, `Binder.condition_ofCursor` — what the reader has of one span.
* `Binder.conditions_ofCursor` — conditions that are cut out and read in turn.
* `parseInOnePass_eq` — both ways to read a text agree.
-/

namespace TableSql

open Grammar

/-! ### Binders -/

/-- The parameters of a statement, its mode, and how many parameters its sequential markers have
taken so far. -/
structure Binder where
  bindings : Bindings
  mode : MarkerMode
  used : Nat

namespace Binder

/-- The value of a marker. A sequential marker takes the next parameter. -/
def bind (b : Binder) : Marker → Value × Binder
  | .next =>
    match b.mode with
    | .sequential => (b.bindings.params[b.used]?.getD .null, { b with used := b.used + 1 })
    | .numbered => (.text "?", b)
  | .numbered 0 => (.null, b)
  | .numbered (n + 1) => (b.bindings.params[n]?.getD .null, b)

/-- Passes over a marker without using its value. -/
def skip (b : Binder) (m : Marker) : Binder :=
  if b.mode = .sequential ∧ m = .next then { b with used := b.used + 1 } else b

/-- Passes over all markers of a list of tokens. -/
def skipAll (b : Binder) (ts : List Token) : Binder :=
  (ts.filterMap Token.marker?).foldl skip b

/-- The value of a token: a marker takes its parameter, any other token is a literal. -/
def resolve (b : Binder) (t : Token) : Value × Binder :=
  match t.marker? with
  | some m => b.bind m
  | none => (b.bindings.value t.literal, b)

/-- The value of a span: a single token, or a call that means the current time. The markers of
anything else are passed over. -/
def value (b : Binder) : List Token → Option Value × Binder
  | [t] => if t.isValue then (some (b.resolve t).1, (b.resolve t).2) else (none, b)
  | span =>
    match FunctionCall.ofSpan? span with
    | some call =>
      ((callOperand? call.function call.args).map b.bindings.value, b.skipAll call.args)
    | none => (none, b.skipAll span)

/-- The filter of a condition: a name, an equality sign and a value, or a name and `IS NULL`. -/
def condition (b : Binder) : List Token → Option (Filter Value) × Binder
  | column :: .equals :: t :: ts =>
    match column.name? with
    | some name =>
      let (v, b) := b.value (t :: ts)
      (v.map (Filter.mk name), b)
    | none => (none, b.skipAll (column :: .equals :: t :: ts))
  | [column, is, null] =>
    if is.isKeyword .IS ∧ null.isKeyword .NULL then
      (column.name?.map fun name => ⟨name, .null⟩, b)
    else (none, b.skipAll [column, is, null])
  | span => (none, b.skipAll span)

/-- The binder at a cursor. -/
def ofCursor (b : Bindings) (c : Cursor) : Binder :=
  ⟨b, c.mode, c.used⟩

section Cursor

variable (b : Bindings) (c : Cursor)

theorem mode_ofCursor : (ofCursor b c).mode = c.mode := rfl

theorem bind_ofCursor (m : Marker) :
    (ofCursor b c).bind m = (b.value (c.take m).1, ofCursor b (c.take m).2) := by
  rcases c with ⟨_ | _, n⟩ <;> rcases m with _ | _ | _ <;> rfl

theorem skip_ofCursor (m : Marker) : (ofCursor b c).skip m = ofCursor b (c.skip m) := by
  rcases c with ⟨_ | _, n⟩ <;> rcases m with _ | _ | _ <;> rfl

theorem skipAll_ofCursor (ts : List Token) :
    (ofCursor b c).skipAll ts = ofCursor b (c.skipAll ts) := by
  unfold skipAll Cursor.skipAll
  induction ts.filterMap Token.marker? generalizing c with
  | nil => rfl
  | cons m ms ih => rw [List.foldl_cons, List.foldl_cons, skip_ofCursor, ih]

theorem resolve_ofCursor (t : Token) :
    (ofCursor b c).resolve t = (b.value (c.resolve t).1, ofCursor b (c.resolve t).2) := by
  unfold resolve Cursor.resolve
  cases t.marker? with
  | some m => exact bind_ofCursor b c m
  | none => rfl

/-- The value of a span is that of its operand. -/
theorem value_ofCursor (span : List Token) :
    (ofCursor b c).value span = ((c.value span).1.map b.value, ofCursor b (c.value span).2) := by
  fun_cases Cursor.value c span with
  | case1 t ht =>
    rw [value, if_pos ht, resolve_ofCursor]
    rfl
  | case2 t ht =>
    rw [value, if_neg ht]
    rfl
  | case3 span hlength call hcall =>
    rw [value, hcall]
    · exact congrArg (Prod.mk _) (skipAll_ofCursor b c call.args)
    · exact hlength
  | case4 span hlength hcall =>
    rw [value, hcall]
    · exact congrArg (Prod.mk _) (skipAll_ofCursor b c span)
    · exact hlength

/-- The filter of a condition has the value of its operand. -/
theorem condition_ofCursor (span : List Token) :
    (ofCursor b c).condition span =
      ((c.condition span).1.map (Filter.map b.value), ofCursor b (c.condition span).2) := by
  fun_cases Cursor.condition c span with
  | case1 column t ts name hname a c' hvalue =>
    rw [condition, hname]
    dsimp only
    rw [value_ofCursor, hvalue]
    cases a <;> rfl
  | case2 column t ts hname =>
    rw [condition, hname]
    exact congrArg (Prod.mk _) (skipAll_ofCursor b c _)
  | case3 column is null his htest =>
    rw [condition, if_pos htest]
    · cases column.name? <;> rfl
    · exact his
  | case4 column is null his htest =>
    rw [condition, if_neg htest]
    · exact congrArg (Prod.mk _) (skipAll_ofCursor b c _)
    · exact his
  | case5 span hequals htest =>
    rw [condition]
    · exact congrArg (Prod.mk _) (skipAll_ofCursor b c _)
    · exact hequals
    · exact htest

end Cursor

/-! ### Lists of values and conditions -/

/-- What has been read with a cursor, with the values of its operands. -/
def bound {α β : Type} (b : Bindings) (f : α → β) (r : (α × Cursor) × List Token) :
    (β × Binder) × List Token :=
  ((f r.1.1, ofCursor b r.1.2), r.2)

/-- What a binder leaves unread, a cursor leaves unread too. -/
theorem exists_of_map_bound {α β : Type} {b : Bindings} {f : α → β} {x : Reading (α × Cursor)}
    {v : β} {b' : Binder} {rest : List Token} (h : x.map (bound b f) = .ok ((v, b'), rest)) :
    ∃ a c, x = .ok ((a, c), rest) := by
  obtain ⟨⟨⟨a, c⟩, rest'⟩, hread, hbound⟩ := exists_of_map_eq_ok h
  obtain ⟨-, rfl⟩ := Prod.mk.inj hbound
  exact ⟨a, c, hread⟩

/-- The value of the span that ends at a token that `stop` holds of. -/
def operand (stop : Token → Bool) (b : Binder) (ts : List Token) : Reading (Value × Binder) :=
  match takeSpan stop 0 ts with
  | ([], _) => .error (.before ts.length .expectedValue)
  | (span, rest) =>
    match b.value span with
    | (some v, b) => .ok ((v, b), rest)
    | (none, _) => .error (.before ts.length .unsupportedValue)

theorem operand_ofCursor (stop : Token → Bool) (b : Bindings) (c : Cursor) (ts : List Token) :
    operand stop (ofCursor b c) ts = (Grammar.operand stop c ts).map (bound b b.value) := by
  rcases hspan : takeSpan stop 0 ts with ⟨_ | ⟨t, span⟩, rest⟩ <;>
    rw [operand, Grammar.operand, hspan]
  · rfl
  · dsimp only
    rw [value_ofCursor]
    rcases c.value (t :: span) with ⟨_ | a, c'⟩ <;> rfl

/-- What follows a value is not longer than the tokens. -/
theorem length_of_operand {stop : Token → Bool} {b b' : Binder} {ts rest : List Token} {v : Value}
    (h : operand stop b ts = .ok ((v, b'), rest)) : rest.length ≤ ts.length := by
  obtain ⟨a, c, hread⟩ :=
    exists_of_map_bound ((operand_ofCursor stop b.bindings ⟨b.mode, b.used⟩ ts).symm.trans h)
  exact Grammar.length_of_operand hread

/-- The values of a list, with commas between them. -/
def values (b : Binder) (ts : List Token) : Reading (List Value) :=
  match _h : operand (· = .comma) b ts with
  | .error e => .error e
  | .ok ((v, b), .comma :: rest) =>
    match values b rest with
    | .ok (vs, rest) => .ok (v :: vs, rest)
    | .error e => .error e
  | .ok ((v, _), rest) => .ok ([v], rest)
termination_by ts.length
decreasing_by
  have := length_of_operand _h
  simp only [List.length_cons] at this
  omega

theorem values_eq (b : Binder) (ts : List Token) :
    values b ts =
      match operand (· = .comma) b ts with
      | .error e => .error e
      | .ok ((v, b), .comma :: rest) => (values b rest).map fun r => (v :: r.1, r.2)
      | .ok ((v, _), rest) => .ok ([v], rest) := by
  rw [values]
  split
  · rename_i h
    simp only [h]
  · rename_i b' rest h
    simp only [h]
    cases values b' rest <;> rfl
  · rename_i hne h
    simp only [h]

theorem values_ofCursor (b : Bindings) (c : Cursor) (ts : List Token) :
    values (ofCursor b c) ts = (Grammar.values c ts).map fun r => (r.1.map b.value, r.2) := by
  fun_induction Grammar.values c ts with
  | case1 c ts e h =>
    rw [values_eq, operand_ofCursor, h]
    rfl
  | case2 c ts a c' rest h as rest' hrest ih =>
    rw [values_eq, operand_ofCursor, h, map_ok]
    dsimp only [bound]
    rw [ih, hrest]
    rfl
  | case3 c ts a c' rest h e hrest ih =>
    rw [values_eq, operand_ofCursor, h, map_ok]
    dsimp only [bound]
    rw [ih, hrest]
    rfl
  | case4 c ts a c' rest hne h =>
    rw [values_eq, operand_ofCursor, h, map_ok]
    simp only [bound, map_ok]
    rfl

/-- A name, an equality sign and a value. -/
def assignment (b : Binder) (ts : List Token) : Reading ((String × Value) × Binder) :=
  match name ts with
  | .error e => .error e
  | .ok (w, rest) =>
    match mark .equals .assign rest with
    | .error e => .error e
    | .ok rest =>
      match operand endsAssignment b rest with
      | .error e => .error e
      | .ok ((v, b), rest) => .ok (((w, v), b), rest)

/-- An assignment with the value of its operand. -/
def assigned (b : Bindings) (x : String × Operand) : String × Value :=
  (x.1, b.value x.2)

theorem assignment_ofCursor (b : Bindings) (c : Cursor) (ts : List Token) :
    assignment (ofCursor b c) ts = (Grammar.assignment c ts).map (bound b (assigned b)) := by
  unfold assignment Grammar.assignment
  cases name ts with
  | error e => rfl
  | ok r =>
    dsimp only
    cases mark .equals .assign r.2 with
    | error e => rfl
    | ok rest =>
      dsimp only
      rw [operand_ofCursor]
      cases Grammar.operand endsAssignment c rest <;> rfl

/-- What follows an assignment is not longer than the tokens. -/
theorem length_of_assignment {b b' : Binder} {ts rest : List Token} {x : String × Value}
    (h : assignment b ts = .ok ((x, b'), rest)) : rest.length ≤ ts.length := by
  obtain ⟨a, c, hread⟩ :=
    exists_of_map_bound ((assignment_ofCursor b.bindings ⟨b.mode, b.used⟩ ts).symm.trans h)
  exact Grammar.length_of_assignment hread

/-- The assignments of a change, with commas between them. -/
def assignments (b : Binder) (ts : List Token) : Reading (List (String × Value) × Binder) :=
  match _h : assignment b ts with
  | .error e => .error e
  | .ok ((x, b), .comma :: rest) =>
    match assignments b rest with
    | .ok ((xs, b), rest) => .ok ((x :: xs, b), rest)
    | .error e => .error e
  | .ok ((x, b), rest) => .ok (([x], b), rest)
termination_by ts.length
decreasing_by
  have := length_of_assignment _h
  simp only [List.length_cons] at this
  omega

theorem assignments_eq (b : Binder) (ts : List Token) :
    assignments b ts =
      match assignment b ts with
      | .error e => .error e
      | .ok ((x, b), .comma :: rest) =>
        (assignments b rest).map fun r => ((x :: r.1.1, r.1.2), r.2)
      | .ok ((x, b), rest) => .ok (([x], b), rest) := by
  rw [assignments]
  split
  · rename_i h
    simp only [h]
  · rename_i b' rest h
    simp only [h]
    cases assignments b' rest <;> rfl
  · rename_i hne h
    simp only [h]

theorem assignments_ofCursor (b : Bindings) (c : Cursor) (ts : List Token) :
    assignments (ofCursor b c) ts =
      (Grammar.assignments c ts).map (bound b (List.map (assigned b))) := by
  fun_induction Grammar.assignments c ts with
  | case1 c ts e h =>
    rw [assignments_eq, assignment_ofCursor, h]
    rfl
  | case2 c ts x c' rest h xs c'' rest' hrest ih =>
    rw [assignments_eq, assignment_ofCursor, h, map_ok]
    dsimp only [bound]
    rw [ih, hrest]
    rfl
  | case3 c ts x c' rest h e hrest ih =>
    rw [assignments_eq, assignment_ofCursor, h, map_ok]
    dsimp only [bound]
    rw [ih, hrest]
    rfl
  | case4 c ts x c' rest hne h =>
    rw [assignments_eq, assignment_ofCursor, h, map_ok]
    simp only [bound, map_ok]
    rfl

/-- The conditions at the front of a list of tokens with `AND` between them, each as the filter that
it becomes. A condition is understood before the next one is cut out. -/
def conditions (b : Binder) (ts : List Token) : Reading (List (Option (Filter Value)) × Binder) :=
  match _h : takeSpan endsConjunct 0 ts with
  | ([], _) => .error (.before ts.length .expectedCondition)
  | (span, []) => .ok (([(b.condition span).1], (b.condition span).2), [])
  | (span, t :: rest) =>
    if t.isKeyword .AND then
      match conditions (b.condition span).2 rest with
      | .ok ((filters, b'), rest) => .ok (((b.condition span).1 :: filters, b'), rest)
      | .error e => .error e
    else .ok (([(b.condition span).1], (b.condition span).2), t :: rest)
termination_by ts.length
decreasing_by
  have := takeSpan_length_le endsConjunct 0 ts
  rw [_h] at this
  simp only [List.length_cons] at this
  omega

theorem conditions_eq (b : Binder) (ts : List Token) :
    conditions b ts =
      match takeSpan endsConjunct 0 ts with
      | ([], _) => .error (.before ts.length .expectedCondition)
      | (span, []) => .ok (([(b.condition span).1], (b.condition span).2), [])
      | (span, t :: rest) =>
        if t.isKeyword .AND then
          (conditions (b.condition span).2 rest).map fun r =>
            (((b.condition span).1 :: r.1.1, r.1.2), r.2)
        else .ok (([(b.condition span).1], (b.condition span).2), t :: rest) := by
  rw [conditions]
  split
  · rename_i h
    simp only [h]
  · rename_i h
    simp only [h]
  · rename_i span t rest _ h
    simp only [h]
    cases conditions (b.condition span).2 rest <;> rfl

/-- Conditions that are understood one after the other are the filters of the conjuncts. -/
theorem conditions_ofCursor (b : Bindings) (c : Cursor) (ts : List Token) :
    conditions (ofCursor b c) ts = (conjuncts ts).map fun r =>
      bound b (List.map (Option.map (Filter.map b.value))) (c.conditions r.1, r.2) := by
  fun_induction conjuncts ts generalizing c with
  | case1 ts rest h =>
    rw [conditions_eq, h]
    rfl
  | case2 ts span hne h =>
    rw [conditions_eq, h]
    simp only [condition_ofCursor]
    rfl
  | case3 ts span t rest hne h hand spans rest' hrest ih =>
    rw [conditions_eq, h]
    simp only [condition_ofCursor, if_pos hand, ih, hrest]
    rfl
  | case4 ts span t rest hne h hand e hrest ih =>
    rw [conditions_eq, h]
    simp only [condition_ofCursor, if_pos hand, ih, hrest]
    rfl
  | case5 ts span t rest hne h hand =>
    rw [conditions_eq, h]
    simp only [condition_ofCursor, if_neg hand]
    rfl

/-! ### Clauses -/

/-- A count of rows: a number as written, or a marker whose value is a count. -/
def count (b : Binder) (ts : List Token) : Reading (Nat × Binder) :=
  match ts with
  | .number s :: rest =>
    match Decimal.unsigned? s.toList with
    | some n => .ok ((n, b), rest)
    | none => .error (.before ts.length .expectedCount)
  | .marker m :: rest =>
    match (b.bind m).1.count? with
    | some n => .ok ((n, (b.bind m).2), rest)
    | none => .error (.before ts.length .expectedCount)
  | _ => .error (.before ts.length .expectedCount)

/-- A count of rows behind its keyword, if the keyword stands first. -/
def countClause (k : Keyword) (b : Binder) (ts : List Token) : Reading (Option Nat × Binder) :=
  if startsWith k ts then
    match count b ts.tail with
    | .ok ((n, b), rest) => .ok ((some n, b), rest)
    | .error e => .error e
  else .ok ((none, b), ts)

/-- The conditions behind `WHERE`, if it stands first. -/
def whereClause (b : Binder) (ts : List Token) :
    Reading (List (Option (Filter Value)) × Binder) :=
  if startsWith .WHERE ts then conditions b ts.tail else .ok (([], b), ts)

theorem count_ofCursor (b : Bindings) (c : Cursor) (ts : List Token) :
    count (ofCursor b c) ts = (Grammar.count b.count? c ts).map (bound b id) := by
  fun_cases Grammar.count b.count? c ts with
  | case1 s rest n hn =>
    rw [count, hn]
    rfl
  | case2 s rest hn =>
    rw [count, hn]
    rfl
  | case3 m rest n hn =>
    rw [count, bind_ofCursor, show (b.value (c.take m).1).count? = some n from hn]
    rfl
  | case4 m rest hn =>
    rw [count, bind_ofCursor, show (b.value (c.take m).1).count? = none from hn]
    rfl
  | case5 ts hnumber hmarker =>
    rw [count]
    · rfl
    · exact hnumber
    · exact hmarker

theorem countClause_ofCursor (k : Keyword) (b : Bindings) (c : Cursor) (ts : List Token) :
    countClause k (ofCursor b c) ts =
      (Grammar.countClause k b.count? c ts).map (bound b id) := by
  unfold countClause Grammar.countClause
  split
  · rw [count_ofCursor]
    cases Grammar.count b.count? c ts.tail <;> rfl
  · rfl

theorem whereClause_ofCursor (b : Bindings) (c : Cursor) (ts : List Token) :
    whereClause (ofCursor b c) ts = (Grammar.whereClause ts).map fun r =>
      bound b (List.map (Option.map (Filter.map b.value))) (c.conditions r.1, r.2) := by
  unfold whereClause Grammar.whereClause
  split
  · exact conditions_ofCursor b c ts.tail
  · rfl

end Binder

/-- What a reading says behind `FROM`: its table, its conditions, each with the filter that it
became, its sort keys, and its limit and offset. -/
structure BoundSource where
  table : String
  conditions : List (Option (Filter Value))
  order : List SortKey
  limit : Option Nat
  offset : Option Nat

/-- The filters of the conditions that were understood. -/
def BoundSource.filters (s : BoundSource) : List (Filter Value) :=
  s.conditions.filterMap id

/-- The clauses with the values of their operands. -/
def BoundSource.ofSource (b : Bindings) (s : Source) : BoundSource :=
  ⟨s.table, s.conditions.map (Option.map (Filter.map b.value)), s.order, s.limit, s.offset⟩

theorem BoundSource.filters_ofSource (b : Bindings) (s : Source) :
    (ofSource b s).filters = s.filters.map (Filter.map b.value) :=
  filterMap_id_map _ s.conditions

namespace Binder

/-- The clauses of a reading from the table's name on, to the end of the statement. -/
def source (b : Binder) (ts : List Token) : Except Fault BoundSource := do
  let (table, ts) ← name ts
  let ((conditions, b), ts) ← whereClause b ts
  let (order, ts) ← orderClause ts
  let ((limit, b), ts) ← countClause .LIMIT b ts
  let ((offset, _), ts) ← countClause .OFFSET b ts
  finish ts
  return ⟨table, conditions, order, limit, offset⟩

/-- A reading of rows. -/
def select (b : Binder) (ts : List Token) : Except Fault (Select Value) := do
  let ts ← keyword .SELECT ts
  let (columns, ts) ← columns ts
  let ts ← keyword .FROM ts
  let s ← source b ts
  return ⟨s.table, columns, s.filters, s.order, s.limit, s.offset⟩

/-- An insertion of one row: its table and its values. -/
def insert (b : Binder) (ts : List Token) : Except Fault (String × Record Value) := do
  let ts ← keyword .INSERT ts
  let ts ← keyword .INTO ts
  let (table, ts) ← name ts
  let ts ← mark .openParen .openColumns ts
  let (columns, ts) ← names ts
  let ts ← mark .closeParen .closeColumns ts
  let ts ← keyword .VALUES ts
  let ts ← mark .openParen .openValues ts
  let (values, ts) ← values b ts
  let ts ← mark .closeParen .closeValues ts
  if ts.head? = some .comma then throw (.before ts.length .severalRows)
  finish ts
  if columns.length ≠ values.length then
    throw (.whole (.unequalLists columns.length values.length))
  return (table, .ofList (columns.zip values))

/-- The filters of a write: there is at least one. -/
def writeFilters (verb : Keyword) (b : Binder) (ts : List Token) :
    Except Fault (List (Filter Value)) := do
  let ts ← keyword .WHERE ts
  let ((conditions, _), ts) ← conditions b ts
  finish ts
  let filters := conditions.filterMap id
  if filters.isEmpty then throw (.whole (.unfiltered verb))
  return filters

/-- A change of rows: its table, its assignments and its filters. -/
def update (b : Binder) (ts : List Token) :
    Except Fault (String × Record Value × List (Filter Value)) := do
  let ts ← keyword .UPDATE ts
  let (table, ts) ← name ts
  let ts ← keyword .SET ts
  let ((assigned, b), ts) ← assignments b ts
  let filters ← writeFilters .UPDATE b ts
  return (table, .ofList assigned, filters)

/-- A removal of rows: its table and its filters. -/
def delete (b : Binder) (ts : List Token) : Except Fault (String × List (Filter Value)) := do
  let ts ← keyword .DELETE ts
  let ts ← keyword .FROM ts
  let (table, ts) ← name ts
  let filters ← writeFilters .DELETE b ts
  return (table, filters)

/-- The shape of an aggregate statement, if it has one. -/
def aggregateShape? (excerpt : Nat → Nat → String) (b : Binder) (ts : List Token) :
    Option (AggregateShape Value) := do
  let ts ← (keyword .SELECT ts).toOption
  let (list, ts) := takeSpan (Token.isKeyword .FROM) 0 ts
  let ts ← (keyword .FROM ts).toOption
  let s ← (source (b.skipAll list) ts).toOption
  let call ← firstCall? list
  let length ← closing? 0 call.behind
  return {
    table := s.table
    function := call.function
    argument := excerpt (call.before + 3) length
    bare := call.before = 0 && isAlias (call.behind.drop (length + 1))
    words := (list.filterMap Token.name?).map Text.lower
    hasCase := list.any (Token.isKeyword .CASE)
    resultName := resultName? list
    filters := s.filters
    exact := s.conditions.all Option.isSome }

/-- The fragments of a text with the values in the places of its markers. -/
def fragments (b : Binder) : List Lexeme → List (Fragment Value)
  | [] => []
  | l :: ls =>
    match l.token.marker? with
    | some m =>
      if b.mode = .numbered ∧ m = .next then .verbatim (l.gap ++ l.source) :: b.fragments ls
      else .verbatim l.gap :: .operand (b.bind m).1 :: (b.bind m).2.fragments ls
    | none => .verbatim (l.gap ++ l.source) :: b.fragments ls

section Statements

variable (b : Bindings) (c : Cursor) (ts : List Token)

theorem source_ofCursor :
    source (ofCursor b c) ts = (Source.read b.count? c ts).map (BoundSource.ofSource b) := by
  unfold source Source.read
  refine bind_eq_map fun ⟨table, ts⟩ => ?_
  dsimp only
  rw [whereClause_ofCursor]
  refine map_bind_eq_map fun ⟨spans, ts⟩ => ?_
  dsimp only [bound]
  refine bind_eq_map fun ⟨order, ts⟩ => ?_
  dsimp only
  rw [countClause_ofCursor]
  refine map_bind_eq_map fun ⟨⟨limit, c⟩, ts⟩ => ?_
  dsimp only [bound]
  rw [countClause_ofCursor]
  refine map_bind_eq_map fun ⟨⟨offset, c⟩, ts⟩ => ?_
  exact bind_eq_map fun _ => rfl

theorem select_ofCursor :
    select (ofCursor b c) ts = (Grammar.select b.count? c ts).map (Select.map b.value) := by
  unfold select Grammar.select
  refine bind_eq_map fun ts => bind_eq_map fun ⟨columns, ts⟩ => bind_eq_map fun ts => ?_
  rw [source_ofCursor]
  refine map_bind_eq_map fun s => ?_
  rw [BoundSource.filters_ofSource]
  rfl

theorem insert_ofCursor :
    insert (ofCursor b c) ts = (Grammar.insert c ts).map fun r => (r.1, r.2.map b.value) := by
  unfold insert Grammar.insert
  refine bind_eq_map fun ts => bind_eq_map fun ts => bind_eq_map fun ⟨table, ts⟩ => ?_
  refine bind_eq_map fun ts => bind_eq_map fun ⟨columns, ts⟩ => bind_eq_map fun ts => ?_
  refine bind_eq_map fun ts => bind_eq_map fun ts => ?_
  rw [values_ofCursor]
  refine map_bind_eq_map fun ⟨values, ts⟩ => bind_eq_map fun ts => ?_
  have hvalues : (Record.ofList (columns.zip values)).map b.value =
      .ofList (columns.zip (values.map b.value)) := by
    rw [Record.map_ofList, List.zip_map_right]
    rfl
  dsimp only
  rw [← hvalues, List.length_map]
  split
  · rfl
  · refine bind_eq_map fun _ => ?_
    split <;> rfl

theorem writeFilters_ofCursor (verb : Keyword) :
    writeFilters verb (ofCursor b c) ts =
      (Grammar.writeFilters verb c ts).map (List.map (Filter.map b.value)) := by
  unfold writeFilters Grammar.writeFilters
  refine bind_eq_map fun ts => ?_
  rw [conditions_ofCursor]
  refine map_bind_eq_map fun ⟨spans, ts⟩ => bind_eq_map fun _ => ?_
  dsimp only [bound]
  rw [filterMap_id_map, List.isEmpty_map]
  split <;> rfl

theorem update_ofCursor :
    update (ofCursor b c) ts = (Grammar.update c ts).map fun r =>
      (r.1, r.2.1.map b.value, r.2.2.map (Filter.map b.value)) := by
  unfold update Grammar.update
  refine bind_eq_map fun ts => bind_eq_map fun ⟨table, ts⟩ => bind_eq_map fun ts => ?_
  dsimp only
  rw [assignments_ofCursor]
  refine map_bind_eq_map fun ⟨⟨xs, c⟩, ts⟩ => ?_
  dsimp only [bound]
  rw [writeFilters_ofCursor]
  refine map_bind_eq_map fun filters => ?_
  have hvalues : (Record.ofList xs).map b.value = .ofList (xs.map (assigned b)) :=
    Record.map_ofList b.value xs
  rw [← hvalues]
  rfl

theorem delete_ofCursor :
    delete (ofCursor b c) ts = (Grammar.delete c ts).map fun r =>
      (r.1, r.2.map (Filter.map b.value)) := by
  unfold delete Grammar.delete
  refine bind_eq_map fun ts => bind_eq_map fun ts => bind_eq_map fun ⟨table, ts⟩ => ?_
  dsimp only
  rw [writeFilters_ofCursor]
  exact map_bind_eq_map fun filters => rfl

theorem aggregateShape?_ofCursor (excerpt : Nat → Nat → String) :
    aggregateShape? excerpt (ofCursor b c) ts =
      (Grammar.aggregateShape? excerpt b.count? c ts).map (AggregateShape.map b.value) := by
  unfold aggregateShape? Grammar.aggregateShape?
  rcases (keyword .SELECT ts).toOption with _ | ts
  · rfl
  dsimp only [Option.bind_eq_bind, Option.bind_some]
  rcases takeSpan (Token.isKeyword .FROM) 0 ts with ⟨list, ts⟩
  dsimp only
  rcases (keyword .FROM ts).toOption with _ | ts
  · rfl
  dsimp only [Option.bind_some]
  rw [skipAll_ofCursor, source_ofCursor, toOption_map]
  rcases (Source.read b.count? (c.skipAll list) ts).toOption with _ | s
  · rfl
  dsimp only [Option.map_some, Option.bind_some]
  rcases firstCall? list with _ | call
  · rfl
  dsimp only [Option.bind_some]
  rcases closing? 0 call.behind with _ | length
  · rfl
  have hexact : (BoundSource.ofSource b s).conditions.all Option.isSome =
      s.conditions.all Option.isSome := by
    simp [BoundSource.ofSource, Function.comp_def]
  dsimp only [Option.bind_some]
  rw [BoundSource.filters_ofSource, hexact]
  rfl

theorem fragments_ofCursor (ls : List Lexeme) :
    (ofCursor b c).fragments ls = (lexemeFragments c ls).map (Fragment.map b.value) := by
  induction ls generalizing c with
  | nil => rfl
  | cons l ls ih =>
    rw [fragments, lexemeFragments, mode_ofCursor]
    cases l.token.marker? with
    | none => exact congrArg (_ :: ·) (ih c)
    | some m =>
      dsimp only
      split
      · exact congrArg (_ :: ·) (ih c)
      · rw [bind_ofCursor, ih]
        rfl

end Statements

end Binder

/-! ### Statements -/

/-- The statement of a scan, read by a binder. The text of an aggregate is gone through once more,
from its first parameter on. -/
def Scan.bindTokens (s : Scan) (b : Bindings) : Except Fault (Statement Value) :=
  let ts := s.tokens
  let binder := Binder.ofCursor b (.start (.detect ts))
  match kindOfTokens ts with
  | .select => (binder.select ts).map .select
  | .insert => (binder.insert ts).map fun (table, values) => .insert table values
  | .update => (binder.update ts).map fun (table, values, filters) => .update table values filters
  | .delete => (binder.delete ts).map fun (table, filters) => .delete table filters
  | .aggregate => .ok (.aggregate ⟨Binder.aggregateShape? s.excerpt binder ts,
      binder.fragments s.lexemes ++ [.verbatim s.trailing]⟩)
  | .schema => .ok (.schema (leadingWord ts))
  | .unsupported => .error (.whole .unrecognized)

/-- A binder has the prepared statement, with the values in place. -/
theorem Scan.bindTokens_eq (s : Scan) (b : Bindings) :
    s.bindTokens b = (s.prepareTokens b.count?).map (Statement.map b.value) := by
  unfold bindTokens prepareTokens
  dsimp only
  cases kindOfTokens s.tokens with
  | select =>
    dsimp only
    rw [Binder.select_ofCursor]
    cases Grammar.select b.count? _ s.tokens <;> rfl
  | insert =>
    dsimp only
    rw [Binder.insert_ofCursor]
    cases Grammar.insert _ s.tokens <;> rfl
  | update =>
    dsimp only
    rw [Binder.update_ofCursor]
    cases Grammar.update _ s.tokens <;> rfl
  | delete =>
    dsimp only
    rw [Binder.delete_ofCursor]
    cases Grammar.delete _ s.tokens <;> rfl
  | aggregate =>
    dsimp only
    rw [Binder.aggregateShape?_ofCursor, Binder.fragments_ofCursor, map_ok, Statement.map,
      AggregatePlan.map, Scan.fragments, List.map_append]
    rfl
  | schema => rfl
  | unsupported => rfl

/-- The statement of a text, read in one pass. -/
def parseInOnePass (b : Bindings) (sql : String) : Except SyntaxError (Statement Value) := do
  let s ← scanTrimmed sql
  (s.bindTokens b).mapError (Fault.locate s)

/-- Whether the parameters are put in place in the end or as their markers come, every text has the
same statement, or the same error. -/
theorem parseInOnePass_eq (b : Bindings) (sql : String) : parseInOnePass b sql = parse b sql := by
  unfold parseInOnePass parse
  cases scanTrimmed sql with
  | error e => rfl
  | ok s =>
    rw [bind_ok, bind_ok, Scan.bindTokens_eq, Scan.prepare]
    cases s.prepareTokens b.count? <;> rfl

end TableSql
