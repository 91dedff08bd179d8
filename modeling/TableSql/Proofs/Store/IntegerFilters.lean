import TableSql.Proofs.Decimal.Nearest
import TableSql.Proofs.Store.Changes

/-!
# Filters on integers

A filter compares an integer cell with an integer as floating-point numbers. So the row is hit by
the filter exactly if both integers are rounded to the same one of 53 binary digits. If one of them
has no more digits than that, this says that they are equal. Of larger integers the filter hits the
neighbours too, and whoever removes the row with a large key may remove others with it.

## Main results

* `passes_integer_iff` — which integer cells pass a filter on an integer.
* `Store.integer_filter_hits_iff` — which rows are read, changed and removed.
* `Store.delete_removes_neighbour` — a row that is removed under the key of another one.
-/

namespace TableSql

open Decimal

theorem natAbs_lt_of_isSigned {i : Int} (h : isSigned i = true) : i.natAbs < 2 ^ 64 := by
  simp only [isSigned, Bool.and_eq_true, decide_eq_true_eq] at h
  omega

/-- A row with an integer in a column passes a filter with an integer on this column exactly if both
are rounded to the same integer. -/
theorem passes_integer_iff {row : Row} {column : String} {i j : Int}
    (hcell : row.get? column = some (.int i)) (hi : isSigned i = true) (hj : isSigned j = true) :
    passes [⟨column, .int j⟩] row = true ↔ nearestInt i = nearestInt j := by
  have hequal : (Value.int i).looselyEqual (.int j) = (floatOfInt i == floatOfInt j) := rfl
  have hpasses : passes [⟨column, .int j⟩] row = (floatOfInt i == floatOfInt j) := by
    simp [passes, Filter.admits, hcell, hequal]
  rw [hpasses, floatOfInt_beq_iff (natAbs_lt_of_isSigned hi) (natAbs_lt_of_isSigned hj)]

/-- What a predicate keeps of a row and those around it. -/
theorem filter_append_cons (p : Row → Bool) (before after : List Row) (row : Row) :
    (before ++ row :: after).filter p =
      before.filter p ++ (if p row then [row] else []) ++ after.filter p := by
  rw [List.filter_append, List.filter_cons]
  split <;> simp

namespace Store

/-- A filter with an integer reads, changes and removes a row with an integer in the column exactly
if both integers are rounded to the same one of 53 binary digits, wherever the row stands in its
table. If one of them has no more digits, this means that they are equal. -/
theorem integer_filter_hits_iff {s : Store} {name column : String} {t : Table}
    (ht : s.table? name = some t) {before after : List Row} {row : Row}
    (hrows : t.rows = before ++ row :: after) {i j : Int}
    (hcell : row.get? column = some (.int i)) (hi : isSigned i = true) (hj : isSigned j = true)
    (values : Row) :
    let filters : List (Filter Value) := [⟨column, .int j⟩]
    let hit : Row → Bool := passes filters
    let change := fun r : Row => if hit r then r.override values else r
    (service (.select (.ofSelect ⟨name, .all, filters, [], none, none⟩)) s =
      (.ok (before.filter hit ++ (if nearestInt i = nearestInt j then [row] else []) ++
        after.filter hit), s)) ∧
    (∃ report behind, service (.update name filters values) s = (.ok report, behind) ∧
      behind.rows name = before.map change ++
        (if nearestInt i = nearestInt j then row.override values else row) :: after.map change) ∧
    (∃ n behind, service (.delete name filters) s = (.ok (some n), behind) ∧
      behind.rows name = before.filter (!hit ·) ++
        (if nearestInt i = nearestInt j then [] else [row]) ++ after.filter (!hit ·)) ∧
    (i.natAbs < 2 ^ 53 ∨ j.natAbs < 2 ^ 53 → (nearestInt i = nearestInt j ↔ i = j)) := by
  intro filters hit change
  have hhit : hit row = decide (nearestInt i = nearestInt j) :=
    Bool.eq_iff_iff.2 ((passes_integer_iff hcell hi hj).trans decide_eq_true_iff.symm)
  have hshown : t.rows.filter hit = before.filter hit ++
      (if nearestInt i = nearestInt j then [row] else []) ++ after.filter hit := by
    simp only [hrows, filter_append_cons, hhit, decide_eq_true_eq]
  have hkept : t.rows.filter (!hit ·) = before.filter (!hit ·) ++
      (if nearestInt i = nearestInt j then [] else [row]) ++ after.filter (!hit ·) := by
    simp only [hrows, filter_append_cons, hhit, Bool.not_eq_true', decide_eq_false_iff_not,
      ite_not]
  have hchanged : t.rows.map change = before.map change ++
      (if nearestInt i = nearestInt j then row.override values else row) :: after.map change := by
    have hrow : change row = if nearestInt i = nearestInt j then row.override values else row := by
      simp [change, hhit]
    rw [hrows, List.map_append, List.map_cons, hrow]
  refine ⟨?_, ⟨_, _, service_update ht filters values, ?_⟩,
    ⟨_, _, service_delete ht filters, ?_⟩, ?_⟩
  · rw [← hshown]
    exact service_select_filters ht filters
  · rw [← hchanged]
    exact rows_replace ht _
  · rw [← hkept]
    exact rows_replace ht _
  · rintro (h | h)
    · exact nearestInt_eq_iff_of_lt h
    · rw [eq_comm, nearestInt_eq_iff_of_lt h, eq_comm]

/-- The greatest integer of 53 digits is told from the one in front of it. -/
theorem integer_filter_hits_iff_greatest :
    let other : Row := .ofList [("id", .int 9007199254740990)]
    let row : Row := .ofList [("id", .int 9007199254740991)]
    let s := (empty "id").withTable "t" [other, row]
    service (.select (.ofSelect
      ⟨"t", .all, [⟨"id", .int 9007199254740991⟩], [], none, none⟩)) s = (.ok [row], s) ∧
      ∃ n behind, service (.delete "t" [⟨"id", .int 9007199254740991⟩]) s = (.ok (some n), behind) ∧
        behind.rows "t" = [other] := by
  intro other row s
  have ht : s.table? "t" = some (.ofRows "id" [other, row]) := rfl
  have hcell : row.get? "id" = some (.int 9007199254740991) := rfl
  have hother : passes [⟨"id", .int 9007199254740991⟩] other = false := by decide +kernel
  have hplace : (Table.ofRows "id" [other, row]).rows = [other] ++ row :: [] := rfl
  have hsigned : isSigned 9007199254740991 = true := by decide
  obtain ⟨hselect, -, ⟨n, behind, hdelete, hrows⟩, -⟩ :=
    integer_filter_hits_iff ht hplace hcell hsigned hsigned .empty
  refine ⟨?_, n, behind, hdelete, ?_⟩
  · rw [hselect]
    simp [hother]
  · rw [hrows]
    simp [hother]

/-- The row with the key `2 ^ 53 + 1` is read, changed and removed under the key `2 ^ 53`. -/
theorem delete_removes_neighbour :
    let row : Row := .ofList [("id", .int 9007199254740993)]
    let s := (empty "id").withTable "t" [row]
    let filters : List (Filter Value) := [⟨"id", .int 9007199254740992⟩]
    let values : Row := .single "note" .null
    row.get? "id" = some (.int 9007199254740993) ∧
      s.rows "t" = [row] ∧
      service (.select (.ofSelect ⟨"t", .all, filters, [], none, none⟩)) s = (.ok [row], s) ∧
      (service (.update "t" filters values) s).2.rows "t" = [row.override values] ∧
      (service (.delete "t" filters) s).2.rows "t" = [] := by
  intro row s filters values
  have ht : s.table? "t" = some (.ofRows "id" [row]) := rfl
  have hhit : passes filters row = true := by decide +kernel
  refine ⟨rfl, rfl, ?_, ?_, ?_⟩
  · rw [service_select_filters ht]
    exact congrArg (fun shown => (Except.ok shown, s)) (List.filter_cons_of_pos hhit)
  · rw [service_update ht, rows_replace ht]
    simp [Table.update, Table.ofRows, hhit]
  · rw [service_delete ht, rows_replace ht]
    simp [Table.delete, Table.ofRows, hhit]

end Store

end TableSql
