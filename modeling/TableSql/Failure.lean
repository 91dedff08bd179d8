import TableSql.Service
import TableSql.SyntaxError
import TableSql.Value.Inspect

/-!
# Failures

What can go wrong between a statement and its result, and how it is said.

## Main definitions

* `Failure`, `Failure.message`.
* `Failure.report` — the message with those of its causes, as a command line shows it.
-/

namespace TableSql

/-- Why a statement, or the program, did not do what was asked. -/
inductive Failure where
  /-- The text is no statement of the dialect. -/
  | unsupported (sql : String) (params : List Value) (fault : SyntaxError)
  /-- Neither the service nor a recipe computes the aggregate. -/
  | unsupportedAggregate (sql : String) (params : List Value)
  | service (e : ServiceError)
  | settings (reason : String)
  | file (reason : String)

namespace Failure

/-- The failure in words. -/
def message : Failure → String
  | unsupported sql params fault =>
    "Unsupported statement: " ++ fault.message ++ " (sql: " ++ sql ++ ", params: " ++
      Value.inspectAll params ++ ")"
  | unsupportedAggregate sql params =>
    "Cannot process complex query: " ++ sql ++ " (params: " ++ Value.inspectAll params ++ ")"
  | service e => "Remote service error: " ++ e.message
  | settings reason => "Configuration error: " ++ reason
  | file reason => "IO error: " ++ reason

/-- The message of what caused the failure, where another part of the program did. -/
def cause? : Failure → Option String
  | unsupported _ _ fault => some fault.message
  | service e => some e.message
  | file reason => some reason
  | _ => none

/-- The message, followed by that of the cause. -/
def report (f : Failure) : String :=
  match f.cause? with
  | some cause => f.message ++ ": " ++ cause
  | none => f.message

end Failure

end TableSql
