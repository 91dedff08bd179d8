import TableSql.Service
import TableSql.Store.Comparison

/-!
# A store in memory

A table service that keeps its tables in memory. Every table has its rows in the order in which
they came and the next key to give out. A row inserted without a key gets that one; a key that
comes with a row moves the next one beyond it. Keys are integers of 64 bits and the next key is not
bounded, so that there is one beyond the greatest key too: running out of keys is not modelled.

The store takes no raw SQL.

## Main definitions

* `Table`, `Table.ofRows`, `Table.insert`, `Table.update`, `Table.delete`, `Table.select`.
* `Store`, `Store.table?`, `Store.withTable`.
* `Store.service` — the store as a table service.
-/

namespace TableSql

/-! ### Tables -/

/-- The rows of a table in the order in which they came, and the next key to give out. -/
structure Table where
  rows : List Row
  /-- It grows without a bound. Where `2 ^ 63 - 1` is a key, it is `2 ^ 63`, which is no integer of
  64 bits. -/
  nextKey : Int

/-- The integer under the key column of a row. -/
def keyOf? (key : String) (row : Row) : Option Int :=
  (row.get? key).bind Value.signed?

/-- The columns of a result for one row. A column that the row does not have is null. -/
def Columns.project (columns : Columns) (row : Row) : Row :=
  match columns with
  | .all => row
  | .named names => .ofList (names.map fun name => (name, (row.get? name).getD .null))

namespace Table

/-- The table with the given rows. The next key is one more than the greatest key there is, and
one if there is none. -/
def ofRows (key : String) (rows : List Row) : Table :=
  let greatest := (rows.filterMap (keyOf? key)).max?.getD 0
  ⟨rows, greatest + 1⟩

/-- The rows of a reading: those that pass its filters, sorted, from its offset on, up to its
limit, with its columns. -/
def select (t : Table) (q : Select Value) : List Row :=
  let sorted := sortRows q.order (t.rows.filter (passes q.filters))
  let paged := sorted.drop (q.offset.getD 0)
  let paged := match q.limit with
    | some n => paged.take n
    | none => paged
  paged.map q.columns.project

/-- The row as it is stored and the table with it. A row without the key column gets the next key;
an integer in the key column moves the next key beyond it. -/
def insert (t : Table) (key : String) (row : Row) : Row × Table :=
  match keyOf? key row with
  | some k => (row, ⟨t.rows ++ [row], max t.nextKey (k + 1)⟩)
  | none =>
    if row.contains key then (row, ⟨t.rows ++ [row], t.nextKey⟩)
    else
      let row := row.insert key (.int t.nextKey)
      (row, ⟨t.rows ++ [row], t.nextKey + 1⟩)

/-- The rows that pass the filters, with the values, and the table with them in place. -/
def update (t : Table) (filters : List (Filter Value)) (values : Row) : List Row × Table :=
  let changed := (t.rows.filter (passes filters)).map (·.override values)
  let rows := t.rows.map fun row => if passes filters row then row.override values else row
  (changed, ⟨rows, t.nextKey⟩)

/-- The number of rows that pass the filters, and the table without them. -/
def delete (t : Table) (filters : List (Filter Value)) : Nat × Table :=
  let kept := t.rows.filter fun row => !passes filters row
  (t.rows.length - kept.length, ⟨kept, t.nextKey⟩)

end Table

/-! ### Stores -/

/-- Named tables, and the column that holds the keys of their rows. -/
structure Store where
  tables : List (String × Table)
  keyColumn : String

namespace Store

/-- The store without tables. -/
def empty (keyColumn : String) : Store :=
  ⟨[], keyColumn⟩

/-- The table of a name. -/
def table? (s : Store) (name : String) : Option Table :=
  (s.tables.find? fun e => e.1 = name).map Prod.snd

/-- The store with a table in place of the one of that name. -/
def replace (s : Store) (name : String) (t : Table) : Store :=
  ⟨s.tables.map fun e => if e.1 = name then (name, t) else e, s.keyColumn⟩

/-- The store with a table of the given rows under a name. -/
def withTable (s : Store) (name : String) (rows : List Row) : Store :=
  ⟨(name, .ofRows s.keyColumn rows) :: s.tables.filter fun e => e.1 ≠ name, s.keyColumn⟩

/-- The rows of a table in the order in which they came; none if there is no such table. -/
def rows (s : Store) (name : String) : List Row :=
  ((s.table? name).map Table.rows).getD []

/-- The error for a table that the store does not have. -/
def missingTable (name : String) : ServiceError :=
  .remote "42P01" ("relation \"" ++ name ++ "\" does not exist")

/-- The rows of a reading that expects exactly one, if there is exactly one. -/
def expectOne (rows : List Row) : Except ServiceError (List Row) :=
  match rows with
  | [] => .error .noRowsMatched
  | [row] => .ok [row]
  | rows =>
    .error (.remote "PGRST116"
      ("JSON object requested, " ++ Decimal.text rows.length ++ " rows returned"))

/-- Carries out what a call does to a table, if the store has the table. -/
def onTable {α : Type} (s : Store) (name : String) (act : Table → Except ServiceError α × Table) :
    Except ServiceError α × Store :=
  match s.table? name with
  | none => (.error (missingTable name), s)
  | some t =>
    let (outcome, t) := act t
    (outcome, s.replace name t)

/-- The rows of a reading. -/
def select (s : Store) (q : TableQuery) : Except ServiceError (List Row) :=
  match s.table? q.select.table with
  | none => .error (missingTable q.select.table)
  | some t =>
    let rows := t.select q.select
    if q.single then expectOne rows else .ok rows

/-- The store as a table service. -/
def service : Service Store
  | .select q, s => (s.select q, s)
  | .insert name row, s =>
    s.onTable name fun t => ((t.insert s.keyColumn row).map (fun r => .ok (some r)) id)
  | .update name filters values, s =>
    s.onTable name fun t =>
      let (rows, t) := t.update filters values
      (.ok ⟨rows, some rows.length⟩, t)
  | .delete name filters, s =>
    s.onTable name fun t => (t.delete filters).map (fun n => .ok (some n)) id
  | .rawSql _, s => (.error .rawSqlUnavailable, s)

end Store

end TableSql
