import TableSql.Statement

/-!
# Requests for rows

A reading of rows as a table service takes it: a `Select` and whether exactly one row is expected.
A service that is reached over a query string takes it as pairs of a key and a value: the columns,
one pair for each filter, and pairs for the order, the limit and the offset where there are any.

## Main definitions

* `TableQuery`, `TableQuery.ofTable`, and the operations that narrow a reading down.
* `TableQuery.ofSelect`, `TableQuery.first` — readings put together from a `Select`.
* `filterOperand` — what a filter compares its column with.
* `filterPairs`, `TableQuery.pairs` — the pairs of a query string.
* `queryText` — pairs as a query string, nothing in them encoded.

## Main results

* `TableQuery.ofSelect_eq`, `TableQuery.first_eq` — what is put together is the `Select`.
-/

namespace TableSql

/-- A reading of rows. If `single`, exactly one row is expected. -/
structure TableQuery where
  select : Select Value
  single : Bool

namespace TableQuery

/-- All rows of a table with all their columns, in the order in which the service has them. -/
def ofTable (table : String) : TableQuery :=
  ⟨⟨table, .all, [], [], none, none⟩, false⟩

/-- The reading with other columns. -/
def withColumns (t : TableQuery) (columns : Columns) : TableQuery :=
  { t with select := { t.select with columns := columns } }

/-- The reading with one more filter, behind the others. -/
def filtered (t : TableQuery) (f : Filter Value) : TableQuery :=
  { t with select := { t.select with filters := t.select.filters ++ [f] } }

/-- The reading with one more sort key, behind the others. -/
def sorted (t : TableQuery) (k : SortKey) : TableQuery :=
  { t with select := { t.select with order := t.select.order ++ [k] } }

/-- The reading from an offset on. -/
def withOffset (t : TableQuery) (offset : Option Nat) : TableQuery :=
  { t with select := { t.select with offset := offset } }

/-- The reading up to a limit. -/
def withLimit (t : TableQuery) (limit : Option Nat) : TableQuery :=
  { t with select := { t.select with limit := limit } }

/-- The reading as one that expects exactly one row. -/
def expectingOne (t : TableQuery) : TableQuery :=
  { t with single := true }

/-- The reading of all rows of a `Select`: of its table and columns, with its filters and its sort
keys one after the other, from its offset on up to its limit. -/
def ofSelect (q : Select Value) : TableQuery :=
  let filtered := q.filters.foldl filtered ((ofTable q.table).withColumns q.columns)
  ((q.order.foldl sorted filtered).withOffset q.offset).withLimit q.limit

/-- The reading of the first row of a `Select`: it never asks for more than one. -/
def first (q : Select Value) : TableQuery :=
  ((ofSelect q).withLimit (some (min (q.limit.getD 1) 1))).expectingOne

theorem foldl_filtered (filters : List (Filter Value)) (t : TableQuery) :
    filters.foldl filtered t =
      { t with select := { t.select with filters := t.select.filters ++ filters } } := by
  induction filters generalizing t with
  | nil => simp
  | cons f fs ih => simp [ih, filtered]

theorem foldl_sorted (keys : List SortKey) (t : TableQuery) :
    keys.foldl sorted t =
      { t with select := { t.select with order := t.select.order ++ keys } } := by
  induction keys generalizing t with
  | nil => simp
  | cons k ks ih => simp [ih, sorted]

/-- Put together from its parts, the reading is the `Select`. -/
theorem ofSelect_eq (q : Select Value) : ofSelect q = ⟨q, false⟩ := by
  rw [ofSelect, foldl_filtered, foldl_sorted]
  rfl

theorem first_eq (q : Select Value) :
    first q = ⟨{ q with limit := some (min (q.limit.getD 1) 1) }, true⟩ := by
  rw [first, ofSelect_eq]
  rfl

end TableQuery

/-- What a filter compares its column with: equality with the text of a value, or null. -/
def filterOperand (v : Value) : String :=
  if v.isNull then "is.null" else "eq." ++ v.display

/-- The pairs of filters. -/
def filterPairs (filters : List (Filter Value)) : List (String × String) :=
  filters.map fun f => (f.column, filterOperand f.value)

/-- A sort key as a query string has it. -/
def SortKey.request (k : SortKey) : String :=
  k.column ++ match k.direction with
    | .ascending => ".asc"
    | .descending => ".desc"

/-- The pair of a count, if there is one. -/
def countPair (key : String) : Option Nat → List (String × String)
  | some n => [(key, Decimal.text n)]
  | none => []

/-- The pair of sort keys, if there are any. -/
def orderPair (keys : List SortKey) : List (String × String) :=
  if keys.isEmpty then [] else [("order", ",".intercalate (keys.map SortKey.request))]

/-- The pairs of a reading. -/
def Select.pairs (q : Select Value) : List (String × String) :=
  ("select", q.columns.display) :: filterPairs q.filters ++ orderPair q.order ++
    countPair "limit" q.limit ++ countPair "offset" q.offset

/-- The pairs of a reading as a service takes it. -/
def TableQuery.pairs (q : TableQuery) : List (String × String) :=
  q.select.pairs

theorem TableQuery.pairs_ofSelect (q : Select Value) : (ofSelect q).pairs = q.pairs := by
  rw [pairs, ofSelect_eq]

/-- Pairs as a query string for a reader: nothing in them is encoded. -/
def queryText (pairs : List (String × String)) : String :=
  "&".intercalate (pairs.map fun (key, value) => key ++ "=" ++ value)

end TableSql
