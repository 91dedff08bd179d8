import TableSql.Service

/-!
# A table service that follows a script

A service that answers every call with the next reply of a list, whatever the call asks for. A
reply that succeeds holds something for each kind of call. When the list has run out the service
takes no further calls.

## Main definitions

* `Reply`, `Reply.outcome`.
* `Service.scripted` — the service of a list of replies.
-/

namespace TableSql

/-- A reply of a script: an error, or rows, a single row and a count, of which a call takes those
that it asks for. -/
inductive Reply where
  | failure (e : ServiceError)
  | success (rows : List Row) (row : Option Row) (count : Option Nat)

/-- The outcome of a call that gets a reply. -/
def Reply.outcome (r : Reply) (call : Call) : call.Outcome :=
  match r with
  | failure e => .error e
  | success rows row count =>
    match call with
    | .select _ => .ok rows
    | .insert _ _ => .ok row
    | .update _ _ _ => .ok ⟨rows, count⟩
    | .delete _ _ => .ok count
    | .rawSql _ => .ok rows

/-- The service that answers with the replies of a list, in turn. -/
def Service.scripted : Service (List Reply)
  | call, reply :: replies => (reply.outcome call, replies)
  | _, [] => (.error .rawSqlUnavailable, [])

end TableSql
