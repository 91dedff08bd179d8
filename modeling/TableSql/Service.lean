import TableSql.Request

/-!
# Table services

A table service answers calls: it reads, inserts, changes and deletes rows of a table, and perhaps
runs raw SQL. What runs against a service is a *dialogue*: a tree that either has its result or
makes a call and goes on with any answer to it. A dialogue does not know how its calls are
answered. A service with a state runs it, one call after the other, each call a single step of the
state.

## Main definitions

* `ServiceError`, `ServiceError.message`.
* `Call`, `Call.Answer` — the calls and what a service answers to each.
* `Dialogue`, `Dialogue.call`, `Dialogue.bind`.
* `Service`, `Dialogue.run`.
* `Service.recorded` — a service that keeps a list of its calls.

## Main results

* `Dialogue.run_bind` — running a sequence is running one part after the other.
-/

namespace TableSql

/-- Why a service did not do what was asked. -/
inductive ServiceError where
  /-- A single row was expected and none was found. -/
  | noRowsMatched
  /-- The service takes no raw SQL. -/
  | rawSqlUnavailable
  /-- The service refused, with a code and a text of its own. -/
  | remote (code message : String)
  /-- No usable answer came back. -/
  | transport (reason : String)
  deriving DecidableEq, Repr

/-- The error in words. -/
def ServiceError.message : ServiceError → String
  | noRowsMatched => "No rows matched"
  | rawSqlUnavailable => "Raw SQL endpoint not available"
  | remote code message => "Remote error " ++ code ++ ": " ++ message
  | transport reason => "Transport error: " ++ reason

/-- What a change of rows reports: the changed rows, and their number if it is known. -/
structure UpdateReport where
  rows : List Row
  count : Option Nat

/-- A call of a table service. -/
inductive Call where
  | select (q : TableQuery)
  | insert (table : String) (values : Row)
  | update (table : String) (filters : List (Filter Value)) (values : Row)
  | delete (table : String) (filters : List (Filter Value))
  | rawSql (sql : String)

/-- What a service answers to a call that it carries out: the rows read, the row as inserted if it
is known, the report of a change, the number of deleted rows if it is known, and the rows that raw
SQL gave. -/
def Call.Answer : Call → Type
  | select _ => List Row
  | insert _ _ => Option Row
  | update _ _ _ => UpdateReport
  | delete _ _ => Option Nat
  | rawSql _ => List Row

/-- The outcome of a call. -/
abbrev Call.Outcome (call : Call) : Type :=
  Except ServiceError call.Answer

/-! ### Dialogues -/

/-- A result, or a call with a continuation for every outcome of it. -/
inductive Dialogue (α : Type) where
  | done (a : α)
  | ask (call : Call) (next : call.Outcome → Dialogue α)

namespace Dialogue

variable {α β : Type}

/-- The dialogue that makes one call. -/
def call (c : Call) : Dialogue c.Outcome :=
  ask c done

/-- One dialogue after another. -/
def bind : Dialogue α → (α → Dialogue β) → Dialogue β
  | done a, f => f a
  | ask c next, f => ask c fun outcome => (next outcome).bind f

instance : Monad Dialogue where
  pure := done
  bind := bind

end Dialogue

/-! ### Services -/

/-- A service with a state: the outcome of each call, and the state after it. -/
abbrev Service (σ : Type) : Type :=
  (call : Call) → σ → call.Outcome × σ

/-- Runs a dialogue against a service. -/
def Dialogue.run {σ α : Type} (service : Service σ) : Dialogue α → σ → α × σ
  | done a, s => (a, s)
  | ask c next, s => (next (service c s).1).run service (service c s).2

/-- Running a sequence is running one part after the other. -/
theorem Dialogue.run_bind {σ α β : Type} (service : Service σ) (d : Dialogue α)
    (f : α → Dialogue β) (s : σ) :
    (d.bind f).run service s = (f (d.run service s).1).run service (d.run service s).2 := by
  induction d generalizing s with
  | done a => rfl
  | ask c next ih => exact ih _ _

/-- The service with a list of the calls it was given, the last call first. -/
def Service.recorded {σ : Type} (service : Service σ) : Service (σ × List Call) :=
  fun call (s, calls) =>
    let (outcome, s) := service call s
    (outcome, s, call :: calls)

end TableSql
