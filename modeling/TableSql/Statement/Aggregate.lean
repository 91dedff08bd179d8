import TableSql.Statement.Clause

/-!
# Aggregates

An aggregate statement is one that has an aggregate function with an opening parenthesis behind it
anywhere. Its shape is known if it reads `SELECT list FROM` and the clauses of a reading, the list
having the call. Sorting and paging are read and not kept: they leave a single row as it is.

## Main definitions

* `Grammar.firstCall?` — the first aggregate call of a select list.
* `Grammar.aggregateShape?` — the shape of an aggregate statement.
-/

namespace TableSql

namespace Grammar

/-- An aggregate call in a list of tokens: how many tokens stand in front of it, its function in
upper case, and the tokens behind its opening parenthesis. -/
structure AggregateCall where
  before : Nat
  function : String
  behind : List Token

/-- The first aggregate call of a list of tokens. -/
def firstCall? : List Token → Option AggregateCall
  | .word w :: .openParen :: ts =>
    if isAggregateFunction w then some ⟨0, Text.upper w, ts⟩
    else (firstCall? (.openParen :: ts)).map fun a => ⟨a.before + 1, a.function, a.behind⟩
  | _ :: ts => (firstCall? ts).map fun a => ⟨a.before + 1, a.function, a.behind⟩
  | [] => none

/-- Whether the tokens behind a call are at most an alias. -/
def isAlias : List Token → Bool
  | [] => true
  | [t] => t.name?.isSome
  | [k, t] => k.isKeyword .AS && t.name?.isSome
  | _ => false

/-- The name of the result: the last name of a select list, behind `AS` or behind a closing
parenthesis. -/
def resultName? (list : List Token) : Option String :=
  match list.reverse with
  | last :: before :: _ =>
    last.name?.filter fun w =>
      before.isKeyword .AS || (before = .closeParen && !isReserved w)
  | _ => none

/-- The shape of an aggregate statement, if it has one. The text of consecutive tokens, from an
index on and so many of them, is given by `excerpt`. -/
def aggregateShape? (excerpt : Nat → Nat → String) (read : CountReader) (c : Cursor)
    (ts : List Token) : Option (AggregateShape Operand) := do
  let ts ← (keyword .SELECT ts).toOption
  let (list, ts) := takeSpan (Token.isKeyword .FROM) 0 ts
  let ts ← (keyword .FROM ts).toOption
  let s ← (Source.read read (c.skipAll list) ts).toOption
  let call ← firstCall? list
  let length ← closing? 0 call.behind
  return {
    table := s.table
    function := call.function
    argument := excerpt (call.before + 3) length
    bare := call.before = 0 && isAlias (call.behind.drop (length + 1))
    words := (list.filterMap Token.name?).map Text.lower
    hasCase := list.any (Token.isKeyword .CASE)
    resultName := resultName? list
    filters := s.filters
    exact := s.conditions.all Option.isSome }

end Grammar

end TableSql
