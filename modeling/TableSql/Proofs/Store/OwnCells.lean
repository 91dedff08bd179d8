import TableSql.Proofs.Connection.Agreement
import TableSql.Proofs.Decimal.NotANumber
import TableSql.Proofs.Store.Rows

/-!
# A row among those that have its cells

Whoever asks for the rows with the cells of a certain row should find this row among them. A cell
is equal to itself if it is compared with itself as a truth value or by its text, and also if it is
compared as a number, unless this is not a number. That is what the text `NaN` stands for, in any
case, behind a sign and between blanks, and no other text does. So a row is found by its own cells
exactly if none of them spells this.

## Main definitions

* `Value.SpellsNaN` — the values that are read as no number.
* `ownFilters` — the filters with the cells of a row.

## Main results

* `Value.looselyEqual_self_iff` — which values are equal to themselves.
* `passes_ownFilters_iff` — which rows pass the filters with their own cells.
* `Store.found_by_own_cells_iff` — which rows a reading finds by their cells.
* `Store.not_found_by_own_name` — a row that it does not find.
-/

namespace TableSql

namespace Value

/-- The value says that it is not a number: as a text, or as such a number itself, which JSON does
not have. -/
def SpellsNaN : Value → Prop
  | text s => Decimal.SpellsNaN (Text.trim s.toList)
  | float x => x.isNaN = true
  | _ => False

instance : DecidablePred SpellsNaN := fun v => by
  unfold SpellsNaN
  cases v <;> infer_instance

/-- What is read as no number is what says that it is none. -/
theorem exists_quantity?_iff {v : Value} :
    (∃ x ∈ v.quantity?, x.isNaN = true) ↔ v.SpellsNaN := by
  cases v with
  | text s =>
    constructor
    · rintro ⟨x, hx, hnan⟩
      exact (Decimal.isNaN_iff_of_float? hx).1 hnan
    · exact Decimal.exists_float?_of_spellsNaN
  | int i =>
    have hnumber := Decimal.isNaN_floatOfInt i
    simp_all [quantity?, number?, SpellsNaN]
  | float x => simp [quantity?, number?, SpellsNaN]
  | _ => simp [quantity?, number?, SpellsNaN]

theorem equalAsText_self_iff {v : Value} : v.equalAsText v = true ↔ ¬ v.SpellsNaN := by
  rw [← exists_quantity?_iff]
  unfold equalAsText
  cases v.quantity? with
  | none => simp
  | some x => simp

/-- Every value is equal to itself, except one that is read as no number. -/
theorem looselyEqual_self_iff (v : Value) : v.looselyEqual v = true ↔ ¬ v.SpellsNaN := by
  cases v with
  | null => simp [looselyEqual, SpellsNaN]
  | bool b => simp [looselyEqual, truth?, SpellsNaN]
  | int i => exact equalAsText_self_iff (v := int i)
  | float x => exact equalAsText_self_iff (v := float x)
  | text s => exact equalAsText_self_iff (v := text s)
  | array items => exact equalAsText_self_iff (v := array items)
  | object entries => exact equalAsText_self_iff (v := object entries)

end Value

/-- A filter for each of the columns, with the cell that the row has there. -/
def ownFilters (row : Row) (columns : List String) : List (Filter Value) :=
  columns.map fun column => ⟨column, (row.get? column).getD .null⟩

/-- A row passes the filters with its own cells exactly if each of these is equal to itself. -/
theorem passes_ownFilters_iff {row : Row} {columns : List String} :
    passes (ownFilters row columns) row = true ↔
      ∀ column ∈ columns, ∀ cell ∈ row.get? column, ¬ cell.SpellsNaN := by
  have hadmits (column : String) :
      Filter.admits ⟨column, (row.get? column).getD .null⟩ row = true ↔
        ∀ cell ∈ row.get? column, ¬ cell.SpellsNaN := by
    cases hcell : row.get? column with
    | none => simp [Filter.admits, hcell, Value.isNull]
    | some cell => simp [Filter.admits, hcell, Value.looselyEqual_self_iff]
  rw [passes, ownFilters, List.all_map, List.all_eq_true]
  exact forall₂_congr fun column _ => hadmits column

namespace Store

/-- A value is equal to itself exactly if it does not say that it is not a number. A reading with
the cells of a stored row always succeeds, and the row is among what it finds exactly if none of
these cells says so; and so it is with the rows that a connection gives for any text of this
reading. -/
theorem found_by_own_cells_iff {s : Store} {name : String} {t : Table} (ht : s.table? name = some t)
    {row : Row} (hrow : row ∈ t.rows) (columns : List String) :
    (∀ v : Value, v.looselyEqual v = true ↔ ¬ v.SpellsNaN) ∧
    let q : Select Value := ⟨name, .all, ownFilters row columns, [], none, none⟩
    ∃ rows : List Row, service (.select (.ofSelect q)) s = (.ok rows, s) ∧
      (row ∈ rows ↔ ∀ column ∈ columns, ∀ cell ∈ row.get? column, ¬ cell.SpellsNaN) ∧
      ∀ (c : Connection) (b : Bindings) (sql : String), parse b sql = .ok (.select q) →
        (c.attempt b sql .all).runOn service s = (.ok rows, s) := by
  refine ⟨Value.looselyEqual_self_iff, _, service_select_filters ht _, ?_, ?_⟩
  · rw [List.mem_filter, passes_ownFilters_iff]
    exact and_iff_right hrow
  · intro c b sql h
    rw [Connection.attempt_of_parse c .all h, runOn_respond_select_of_some c b sql .all ht,
      t.select_filters name]
    rfl

/-- The text of an infinity is a number, and null is tested for. -/
theorem found_by_own_cells_iff_infinity :
    let row : Row := .ofList [("id", .int 1), ("name", .text "-Infinity"), ("note", .null)]
    let s := (empty "id").withTable "t" [.ofList [("id", .int 1), ("name", .text "NaN")], row]
    ∃ t ∈ s.table? "t", row ∈ t.rows ∧
      (∀ column ∈ ["id", "name", "note"], ∀ cell ∈ row.get? column, ¬ cell.SpellsNaN) ∧
      ∃ rows : List Row, row ∈ rows ∧
        (Connection.standard.attempt ⟨[.int 1, .text "-Infinity"], ""⟩
          "SELECT * FROM t WHERE id = ? AND name = ? AND note IS NULL" .all).runOn service s =
            (.ok rows, s) := by
  intro row s
  have hparse : parse ⟨[.int 1, .text "-Infinity"], ""⟩
      "SELECT * FROM t WHERE id = ? AND name = ? AND note IS NULL" =
        .ok (.select ⟨"t", .all, ownFilters row ["id", "name", "note"], [], none, none⟩) := by
    with_unfolding_all rfl
  have hcells : ∀ column ∈ ["id", "name", "note"], ∀ cell ∈ row.get? column, ¬ cell.SpellsNaN := by
    decide +kernel
  have ht : s.table? "t" =
      some (.ofRows "id" [.ofList [("id", .int 1), ("name", .text "NaN")], row]) := rfl
  have hrow : row ∈ [.ofList [("id", .int 1), ("name", .text "NaN")], row] := by simp
  obtain ⟨-, rows, -, hfound, hall⟩ := found_by_own_cells_iff ht hrow ["id", "name", "note"]
  exact ⟨_, ht, hrow, hcells, rows, hfound.2 hcells, hall _ _ _ hparse⟩

/-- A row that is named `NaN` is not found by its name, for this is not equal to itself. -/
theorem not_found_by_own_name :
    let row : Row := .ofList [("id", .int 1), ("name", .text "NaN")]
    let s := (empty "id").withTable "t" [row]
    let q : Select Value := ⟨"t", .all, ownFilters row ["name"], [], none, none⟩
    row ∈ s.rows "t" ∧
      parse ⟨[.text "NaN"], ""⟩ "SELECT * FROM t WHERE name = ?" = .ok (.select q) ∧
      (Connection.standard.attempt ⟨[.text "NaN"], ""⟩ "SELECT * FROM t WHERE name = ?" .all).runOn
        service s = (.ok [], s) ∧
      (Value.text "NaN").looselyEqual (.text "NaN") = false := by
  intro row s q
  have hparse : parse ⟨[.text "NaN"], ""⟩ "SELECT * FROM t WHERE name = ?" = .ok (.select q) := by
    with_unfolding_all rfl
  have ht : s.table? q.table = some (.ofRows "id" [row]) := rfl
  have hfails : passes q.filters row = false := by decide +kernel
  have hnone : [row].filter (passes q.filters) = [] := List.filter_cons_of_neg (by simp [hfails])
  refine ⟨List.mem_singleton.2 rfl, hparse, ?_, by decide +kernel⟩
  rw [Connection.attempt_of_parse .standard .all hparse,
    runOn_respond_select_of_some .standard _ _ .all ht, Table.select_filters]
  exact congrArg (fun rows => (Except.ok rows, s)) hnone

end Store

end TableSql
