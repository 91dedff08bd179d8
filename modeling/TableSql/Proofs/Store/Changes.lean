import Mathlib.Data.List.Forall2
import Mathlib.Data.List.Nodup
import TableSql.Proofs.Store.Rows

/-!
# Changes of rows made twice

A change overrides the rows that pass its filters with its values. A row overridden twice is the
same as overridden once, and a row that was not overridden did not pass the filters, so it does not
pass them the second time either. Hence the second of two equal changes leaves the store as it is.
It may report fewer rows than the first, for the values may have taken rows away from the filters;
if no filter looks at a column that is assigned, it reports the same.

## Main definitions

* `Overrides` — a row with the values of another one.
* `changedRow` — what a change makes of a row.
* `Table.Changed`, `Table.reportOf` — the rows of a table and the report after a change.

## Main results

* `Record.ext_get?` — a record is determined by the values of its names.
* `changedRow_changedRow` — a row changed twice.
* `Table.changed_update` — what one change does.
* `Table.update_update`, `Table.reportOf_update` — the second change.
* `Store.update_twice` — both of them in a store.
-/

namespace TableSql

/-! ### Records -/

namespace Record

variable {α : Type}

theorem nodup_names (r : Record α) : r.names.Nodup := by
  refine List.pairwise_map.2 (r.sorted.imp fun {a b} hlt heq => ?_)
  rw [heq] at hlt
  exact String.lt_irrefl _ hlt

theorem mem_entries_iff {r : Record α} {name : String} {v : α} :
    (name, v) ∈ r.entries ↔ r.get? name = some v := by
  constructor
  · intro hmem
    have hfound : (r.entries.find? fun e => e.1 = name).isSome :=
      List.find?_isSome.2 ⟨_, hmem, decide_eq_true rfl⟩
    obtain ⟨e, he⟩ := Option.isSome_iff_exists.1 hfound
    have hname : e.1 = name := by simpa using List.find?_some he
    have heq := List.inj_on_of_nodup_map r.nodup_names (List.mem_of_find?_eq_some he) hmem hname
    rw [get?, he, heq]
    rfl
  · intro hget
    obtain ⟨e, he, rfl⟩ := Option.map_eq_some_iff.1 hget
    have hname : e.1 = name := by simpa using List.find?_some he
    exact hname ▸ List.mem_of_find?_eq_some he

/-- A record is determined by the values of its names. -/
theorem ext_get? {r s : Record α} (h : ∀ name, r.get? name = s.get? name) : r = s := by
  have hnodup (r : Record α) : r.entries.Nodup := .of_map _ r.nodup_names
  have hperm : r.entries.Perm s.entries :=
    (List.perm_ext_iff_of_nodup (hnodup r) (hnodup s)).2 fun e => by
      rw [mem_entries_iff, mem_entries_iff, h]
  refine ext (hperm.eq_of_pairwise (fun a b _ _ hab hba => ?_) r.sorted s.sorted)
  exact absurd (String.lt_trans hab hba) (String.lt_irrefl _)

end Record

/-! ### Rows -/

/-- The row `new` is the row `old` with the values: a column has its value among them if there is
one, and what it had before otherwise. -/
def Overrides (values old new : Row) : Prop :=
  ∀ column, new.get? column = (values.get? column).or (old.get? column)

theorem overrides_override (old values : Row) : Overrides values old (old.override values) :=
  Record.get?_override old values

/-- What is assigned already may be assigned again. -/
theorem override_override (row values : Row) :
    (row.override values).override values = row.override values := by
  refine Record.ext_get? fun column => ?_
  rw [Record.get?_override, Record.get?_override, ← Option.or_assoc, Option.or_self]

/-- Filters do not see values in other columns. -/
theorem passes_override {filters : List (Filter Value)} {values : Row}
    (h : ∀ f ∈ filters, values.get? f.column = none) (row : Row) :
    passes filters (row.override values) = passes filters row := by
  have hadmits : ∀ f ∈ filters, f.admits (row.override values) = f.admits row := by
    intro f hf
    simp only [Filter.admits, Record.get?_override, h f hf, Option.none_or]
  rw [Bool.eq_iff_iff, passes, passes, List.all_eq_true, List.all_eq_true]
  exact forall₂_congr fun f hf => by rw [hadmits f hf]

/-- The row that a change leaves in the place of another one. -/
def changedRow (filters : List (Filter Value)) (values row : Row) : Row :=
  if passes filters row then row.override values else row

section ChangedRow

variable {filters : List (Filter Value)} {values row : Row}

theorem changedRow_of_passes (h : passes filters row = true) :
    changedRow filters values row = row.override values :=
  if_pos h

theorem changedRow_of_fails (h : ¬ passes filters row = true) :
    changedRow filters values row = row :=
  if_neg h

/-- A row that passes the filters behind a change passed them before it. -/
theorem passes_of_passes_changedRow (h : passes filters (changedRow filters values row) = true) :
    passes filters row = true := by
  by_contra hfails
  rw [changedRow_of_fails hfails] at h
  exact hfails h

/-- If no filter looks at a column that is assigned, a change takes no row away from the filters. -/
theorem passes_changedRow (h : ∀ f ∈ filters, values.get? f.column = none) :
    passes filters (changedRow filters values row) = passes filters row := by
  unfold changedRow
  split
  · exact passes_override h row
  · rfl

/-- The second of two equal changes finds nothing to change. -/
theorem changedRow_changedRow :
    changedRow filters values (changedRow filters values row) = changedRow filters values row := by
  by_cases hpasses : passes filters (changedRow filters values row) = true
  · rw [changedRow_of_passes hpasses, changedRow_of_passes (passes_of_passes_changedRow hpasses),
      override_override]
  · exact changedRow_of_fails hpasses

end ChangedRow

/-! ### Tables -/

namespace Table

/-- The table `after` is the table `before` with the values in the rows that pass the filters, and
`report` has these rows and their number. -/
structure Changed (filters : List (Filter Value)) (values : Row) (before after : Table)
    (report : UpdateReport) : Prop where
  /-- Row by row, in the same order. -/
  rows : List.Forall₂ (fun old new => (passes filters old = true → Overrides values old new) ∧
    (passes filters old = false → new = old)) before.rows after.rows
  /-- The next key to give out. -/
  nextKey : after.nextKey = before.nextKey
  /-- The rows of the report. -/
  reported : List.Forall₂ (Overrides values) (before.rows.filter (passes filters)) report.rows
  /-- Their number. -/
  count : report.count = some (before.rows.filter (passes filters)).length

/-- What a change reports. -/
def reportOf (t : Table) (filters : List (Filter Value)) (values : Row) : UpdateReport :=
  ⟨(t.update filters values).1, some (t.update filters values).1.length⟩

variable (t : Table) (filters : List (Filter Value)) (values : Row)

theorem rows_update :
    (t.update filters values).2.rows = t.rows.map (changedRow filters values) := rfl

theorem count_reportOf :
    (t.reportOf filters values).count = some (t.rows.filter (passes filters)).length := by
  simp [reportOf, update]

theorem changed_update :
    Changed filters values t (t.update filters values).2 (t.reportOf filters values) where
  rows := by
    rw [rows_update]
    refine List.forall₂_map_right_iff.2 (List.forall₂_same.2 fun row _ => ⟨?_, ?_⟩)
    · intro hpasses
      rw [changedRow_of_passes hpasses]
      exact overrides_override row values
    · intro hfails
      exact changedRow_of_fails (Bool.not_eq_true _ ▸ hfails)
  nextKey := rfl
  reported := List.forall₂_map_right_iff.2 (List.forall₂_same.2 fun row _ =>
    overrides_override row values)
  count := count_reportOf t filters values

/-- The second of two equal changes leaves the table as it is. -/
theorem update_update : ((t.update filters values).2.update filters values).2 =
    (t.update filters values).2 := by
  have hrows : ((t.update filters values).2.update filters values).2.rows =
      (t.update filters values).2.rows := by
    rw [rows_update, rows_update, List.map_map]
    exact List.map_congr_left fun row _ => changedRow_changedRow
  exact congrArg (Table.mk · t.nextKey) hrows

/-- It does not report more rows than the first. -/
theorem length_filter_update_le :
    ((t.update filters values).2.rows.filter (passes filters)).length ≤
      (t.rows.filter (passes filters)).length := by
  rw [rows_update, List.filter_map, List.length_map, ← List.countP_eq_length_filter,
    ← List.countP_eq_length_filter]
  exact List.countP_mono_left fun row _ => passes_of_passes_changedRow

/-- It reports the same rows if no filter looks at a column that is assigned. -/
theorem reportOf_update (h : ∀ f ∈ filters, values.get? f.column = none) :
    (t.update filters values).2.reportOf filters values = t.reportOf filters values := by
  have hpasses : passes filters ∘ changedRow filters values = passes filters :=
    funext fun row => passes_changedRow h
  have hrows : ((t.update filters values).2.update filters values).1 =
      (t.update filters values).1 := by
    show ((t.update filters values).2.rows.filter (passes filters)).map (·.override values) =
      (t.rows.filter (passes filters)).map (·.override values)
    rw [rows_update, List.filter_map, hpasses, List.map_map]
    refine List.map_congr_left fun row hrow => ?_
    rw [Function.comp_apply, changedRow_of_passes (List.mem_filter.1 hrow).2, override_override]
  rw [reportOf, hrows, reportOf]

end Table

/-! ### Stores -/

namespace Store

variable {s : Store} {name : String}

theorem replace_replace (s : Store) (name : String) (t t' : Table) :
    (s.replace name t).replace name t' = s.replace name t' := by
  have hentry (e : String × Table) :
      (if (if e.1 = name then (name, t) else e).1 = name then (name, t')
        else if e.1 = name then (name, t) else e) = if e.1 = name then (name, t') else e := by
    by_cases h : e.1 = name <;> simp [h]
  simp only [replace, List.map_map, Function.comp_def, hentry]

theorem service_update {t : Table} (ht : s.table? name = some t) (filters : List (Filter Value))
    (values : Row) : service (.update name filters values) s =
      (.ok (t.reportOf filters values), s.replace name (t.update filters values).2) := by
  simp [service, onTable, ht]
  rfl

/-- Of two equal changes the first one changes the rows that pass its filters, and nothing else. The
second one changes nothing and reports no more rows than the first, and the same rows if no filter
looks at a column that is assigned. -/
theorem update_twice {t : Table} (ht : s.table? name = some t) (filters : List (Filter Value))
    (values : Row) :
    ∃ t' report report' behind,
      service (.update name filters values) s = (.ok report, behind) ∧
      behind.table? name = some t' ∧ Table.Changed filters values t t' report ∧
      (∀ other, other ≠ name → behind.table? other = s.table? other) ∧
      behind.keyColumn = s.keyColumn ∧
      service (.update name filters values) behind = (.ok report', behind) ∧
      (∃ n n', report.count = some n ∧ report'.count = some n' ∧ n' ≤ n) ∧
      ((∀ f ∈ filters, values.get? f.column = none) → report' = report) := by
  have htable : (s.replace name (t.update filters values).2).table? name =
      some (t.update filters values).2 := by simp [table?_replace, ht]
  have hsecond := service_update htable filters values
  rw [Table.update_update, replace_replace] at hsecond
  refine ⟨_, _, _, _, service_update ht filters values, htable, t.changed_update filters values,
    fun other hother => ?_, rfl, hsecond, ?_, t.reportOf_update filters values⟩
  · simp [table?_replace, hother]
  · exact ⟨_, _, t.count_reportOf filters values, Table.count_reportOf _ _ _,
      t.length_filter_update_le filters values⟩

/-- A change that takes the rows that it changes away from its filter finds none the second time. -/
theorem update_twice_none_left :
    let s := (empty "id").withTable "t" [.ofList [("a", .int 1)], .ofList [("b", .null)],
      .ofList [("a", .text "1"), ("b", .text "x")]]
    let call : Call := .update "t" [⟨"a", .bool true⟩] (.ofList [("a", .null)])
    ∃ t ∈ s.table? "t", ∃ t' report report' behind,
      service call s = (.ok report, behind) ∧ behind.table? "t" = some t' ∧
        Table.Changed [⟨"a", .bool true⟩] (.ofList [("a", .null)]) t t' report ∧
        service call behind = (.ok report', behind) ∧
        report.count = some 2 ∧ report'.count = some 0 := by
  intro s call
  obtain ⟨t, ht⟩ : ∃ t, s.table? "t" = some t := Option.isSome_iff_exists.1 (by decide +kernel)
  obtain ⟨t', report, report', behind, hfirst, ht', hchanged, -, -, hsecond, -⟩ :=
    update_twice ht [⟨"a", .bool true⟩] (.ofList [("a", .null)])
  have hcount : (service call s).1.toOption.map UpdateReport.count = some (some 2) := by
    decide +kernel
  have hcount' : (service call (service call s).2).1.toOption.map UpdateReport.count =
      some (some 0) := by
    decide +kernel
  refine ⟨t, ht, t', report, report', behind, hfirst, ht', hchanged, hsecond, ?_, ?_⟩
  · rw [hfirst] at hcount
    exact Option.some.inj hcount
  · rw [hfirst, hsecond] at hcount'
    exact Option.some.inj hcount'

end Store

end TableSql
