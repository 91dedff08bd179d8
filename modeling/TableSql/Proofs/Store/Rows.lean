import Mathlib.Data.List.Basic
import TableSql.Store

/-!
# Rows of a store

What the calls of a store read and what they leave. A reading of one row finds the first of the rows
that a reading of all rows finds, so it never finds more than one. A change or a removal leaves all
other tables as they are, and in its own table it has no effect on the rows outside its filters.

## Main definitions

* `Spares` — what a change leaves of the rows of a table, if it spares those outside the filters.

## Main results

* `Table.length_select_le` — a reading shows no more rows than its table has.
* `Table.select_first`, `Store.expectOne_take_one` — a reading of one row.
* `Table.select_filters`, `Table.fst_delete`, `Table.select_filters_delete` — a removal takes away
  the rows that a reading finds.
* `Store.table?_replace` — one table is replaced, and no other one.
* `Table.spares_update`, `Table.spares_delete` — changes and removals keep to their filters.
* `Store.table?_onTable_of_ne`, `Store.spares_onTable` — what is done to one table of a store.
* `Store.service_select_filters`, `Store.service_delete` — readings and removals by filters.
-/

namespace TableSql

/-! ### Readings -/

/-- A reading with a limit of one row at most finds the first of the rows. -/
theorem Table.select_first (t : Table) (q : Select Value) :
    t.select (TableQuery.first q).select = (t.select q).take 1 := by
  rw [TableQuery.first_eq]
  unfold select
  cases q.limit with
  | none => simp
  | some n => simp [List.take_take, Nat.min_comm]

/-- A reading shows no more rows than its table has. -/
theorem Table.length_select_le (t : Table) (q : Select Value) :
    (t.select q).length ≤ t.rows.length := by
  have hfilter : (t.rows.filter (passes q.filters)).length ≤ t.rows.length :=
    List.length_filter_le _ _
  unfold select
  cases q.limit <;> simp only [List.length_map, List.length_take, List.length_drop, sortRows,
    List.length_mergeSort] <;> omega

/-- There are never too many rows if one at most was asked for. -/
theorem Store.expectOne_take_one (rows : List Row) :
    expectOne (rows.take 1) =
      match rows with
      | [] => .error .noRowsMatched
      | row :: _ => .ok [row] := by
  cases rows <;> rfl

/-! ### Removals and readings -/

namespace Table

variable (t : Table) (name : String) (filters : List (Filter Value))

/-- Without sort keys, limit and offset a reading of all columns finds the rows that pass the
filters, in the order in which they came. -/
theorem select_filters :
    t.select ⟨name, .all, filters, [], none, none⟩ = t.rows.filter (passes filters) := by
  have hsort (rows : List Row) : sortRows [] rows = rows :=
    List.mergeSort_of_pairwise (List.pairwise_of_forall fun _ _ => rfl)
  have hproject : Columns.all.project = id := rfl
  simp [select, hsort, hproject]

/-- A removal counts the rows that pass the filters. -/
theorem fst_delete : (t.delete filters).1 = (t.rows.filter (passes filters)).length := by
  have hlength := t.rows.length_eq_length_filter_add (passes filters)
  rw [delete]
  dsimp only
  omega

/-- Behind a removal no row passes the filters. -/
theorem select_filters_delete :
    (t.delete filters).2.select ⟨name, .all, filters, [], none, none⟩ = [] := by
  rw [select_filters, List.filter_eq_nil_iff]
  intro row hrow
  have hfails := (List.mem_filter.1 hrow).2
  simpa using hfails

end Table

/-! ### Changes of rows -/

/-- The rows after a change are those before it, some of them changed or left out, and every row
that fails one of the filters is as it was. -/
def Spares (filters : List (Filter Value)) (before after : List Row) : Prop :=
  ∃ act : Row → Option Row, after = before.filterMap act ∧
    ∀ row, passes filters row = false → act row = some row

theorem Table.spares_update (t : Table) (filters : List (Filter Value)) (values : Row) :
    Spares filters t.rows (t.update filters values).2.rows := by
  refine ⟨fun row => some (if passes filters row then row.override values else row), ?_, ?_⟩
  · exact (congrFun List.filterMap_eq_map' t.rows).symm
  · intro row hrow
    simp [hrow]

theorem Table.spares_delete (t : Table) (filters : List (Filter Value)) :
    Spares filters t.rows (t.delete filters).2.rows := by
  refine ⟨Option.guard fun row => !passes filters row, ?_, ?_⟩
  · exact (congrFun List.filterMap_eq_filter t.rows).symm
  · intro row hrow
    simp [Option.guard, hrow]

namespace Store

/-- A table takes the place of the one of its name, and the other tables stay. -/
theorem table?_replace (s : Store) (name other : String) (t : Table) :
    (s.replace name t).table? other =
      (s.table? other).map fun old => if other = name then t else old := by
  have hname : (fun e : String × Table => decide (e.1 = other)) ∘
      (fun e => if e.1 = name then (name, t) else e) = fun e => decide (e.1 = other) := by
    funext e
    by_cases h : e.1 = name <;> simp [h]
  unfold replace table?
  rw [List.find?_map, hname]
  cases hfound : s.tables.find? fun e => e.1 = other with
  | none => rfl
  | some e =>
    have he : e.1 = other := by simpa using List.find?_some hfound
    subst he
    by_cases h : e.1 = name <;> simp [h]

variable {α : Type} {s : Store} {name other : String} {act : Table → Except ServiceError α × Table}

/-- What is done to one table leaves the others as they are. -/
theorem table?_onTable_of_ne (h : other ≠ name) :
    (s.onTable name act).2.table? other = s.table? other := by
  unfold onTable
  cases s.table? name with
  | none => rfl
  | some t => simp [table?_replace, h]

theorem rows_replace {t : Table} (ht : s.table? name = some t) (t' : Table) :
    (s.replace name t').rows name = t'.rows := by
  simp [rows, table?_replace, ht]

/-- A reading of all columns without sort keys, limit and offset shows the rows that pass its
filters. -/
theorem service_select_filters {t : Table} (ht : s.table? name = some t)
    (filters : List (Filter Value)) :
    service (.select (.ofSelect ⟨name, .all, filters, [], none, none⟩)) s =
      (.ok (t.rows.filter (passes filters)), s) := by
  rw [← t.select_filters name]
  simp [service, select, TableQuery.ofSelect_eq, ht]
  rfl

/-- A removal counts the rows that it takes. -/
theorem service_delete {t : Table} (ht : s.table? name = some t) (filters : List (Filter Value)) :
    service (.delete name filters) s =
      (.ok (some (t.rows.filter (passes filters)).length),
        s.replace name (t.delete filters).2) := by
  rw [← t.fst_delete filters]
  simp [service, onTable, ht]

/-- What spares the rows of a table spares those of the store. -/
theorem spares_onTable {filters : List (Filter Value)}
    (h : ∀ t, Spares filters t.rows (act t).2.rows) :
    Spares filters (s.rows name) ((s.onTable name act).2.rows name) := by
  unfold onTable rows
  cases ht : s.table? name with
  | none => exact ⟨some, by simp [ht], fun _ _ => rfl⟩
  | some t => simpa [table?_replace, ht] using h t

end Store

end TableSql
