import Mathlib.Data.List.Induction
import Mathlib.Order.Lattice
import TableSql.Proofs.Service.Calls
import TableSql.Proofs.Store.Rows

/-!
# Keys that a store gives out

A row that comes without a key gets the next key of its table. No row of the table has it already if
the next key is greater than every key that is stored. The rows that a table starts with, rows that
come in and removals all see to that. A change of rows does not: it leaves the next key where it is,
so a key that it assigns has to be smaller.

## Main definitions

* `Table.Fresh`, `Store.Fresh` — the next key is greater than every key that is stored.
* `Call.Rekeys` — a change that gives a row a key that is not below the next one.
* `Store.Seeded` — stores as they are before their first call.

## Main results

* `Table.fresh_ofRows`, `Table.fresh_insert`, `Table.fresh_delete`, `Table.fresh_update_iff`.
* `Store.fresh_service_iff` — one call.
* `Store.fresh_along_iff` — all calls of a run.
* `Store.update_repeats_key` — a key that is given out twice.
-/

namespace TableSql

/-! ### Keys of rows -/

theorem keyOf?_insert (key : String) (row : Row) (v : Value) :
    keyOf? key (row.insert key v) = v.signed? := by
  simp [keyOf?, Record.get?_insert]

/-- An assigned key takes the place of the one of the row. -/
theorem keyOf?_override (key : String) (row values : Row) :
    keyOf? key (row.override values) =
      match values.get? key with
      | some v => v.signed?
      | none => keyOf? key row := by
  unfold keyOf?
  rw [Record.get?_override]
  cases values.get? key <;> rfl

theorem keyOf?_override_of_mem {key : String} {values : Row} {k : Int} (h : k ∈ keyOf? key values)
    (row : Row) : k ∈ keyOf? key (row.override values) := by
  obtain ⟨v, hv, hk⟩ := Option.bind_eq_some_iff.1 h
  rw [keyOf?_override, hv]
  exact hk

theorem mem_or_mem_of_mem_keyOf?_override {key : String} {row values : Row} {k : Int}
    (h : k ∈ keyOf? key (row.override values)) : k ∈ keyOf? key values ∨ k ∈ keyOf? key row := by
  rw [keyOf?_override] at h
  cases hv : values.get? key with
  | none => exact .inr (by simpa [hv] using h)
  | some v => exact .inl (by simpa [keyOf?, hv] using h)

/-! ### Tables -/

namespace Table

/-- The next key of the table is greater than every key in it. -/
def Fresh (key : String) (t : Table) : Prop :=
  ∀ row ∈ t.rows, ∀ k ∈ keyOf? key row, k < t.nextKey

variable {key : String} {t : Table}

/-- The rows that a table starts with. -/
theorem fresh_ofRows (key : String) (rows : List Row) : (ofRows key rows).Fresh key := by
  intro row hrow k hk
  have hmem : k ∈ rows.filterMap (keyOf? key) := List.mem_filterMap.2 ⟨row, hrow, hk⟩
  cases hmax : (rows.filterMap (keyOf? key)).max? with
  | none =>
    rw [List.max?_eq_none_iff.1 hmax] at hmem
    simp at hmem
  | some greatest =>
    have hle : k ≤ greatest := (List.max?_eq_some_iff.1 hmax).2 k hmem
    have hnext : (ofRows key rows).nextKey = greatest + 1 := by simp [ofRows, hmax]
    omega

/-- One more row whose key is below the next key. -/
theorem Fresh.append (h : t.Fresh key) {row : Row} {next : Int} (hnext : t.nextKey ≤ next)
    (hrow : ∀ k ∈ keyOf? key row, k < next) : Fresh key ⟨t.rows ++ [row], next⟩ := by
  intro r hr k hk
  rcases List.mem_append.1 hr with hr | hr
  · exact lt_of_lt_of_le (h r hr k hk) hnext
  · obtain rfl := List.mem_singleton.1 hr
    exact hrow k hk

/-- A row that comes in moves the next key beyond its own. -/
theorem fresh_insert (h : t.Fresh key) (row : Row) : (t.insert key row).2.Fresh key := by
  unfold insert
  cases hkey : keyOf? key row with
  | some k =>
    refine h.append (le_max_left _ _) fun k' hk' => ?_
    obtain rfl : k = k' := Option.some.inj (hkey.symm.trans hk')
    exact lt_of_lt_of_le (Int.lt_succ k) (le_max_right _ _)
  | none =>
    by_cases hcontains : row.contains key = true
    · simp only [hcontains, if_true]
      exact h.append (le_refl _) fun k hk => by simp [hkey] at hk
    · simp only [hcontains]
      refine h.append (Int.le_of_lt (Int.lt_succ _)) fun k hk => ?_
      rw [keyOf?_insert] at hk
      obtain ⟨-, rfl⟩ : _ ∧ t.nextKey = k := by simpa [Value.signed?] using hk
      exact Int.lt_succ _

theorem fresh_delete (h : t.Fresh key) (filters : List (Filter Value)) :
    (t.delete filters).2.Fresh key := fun row hrow =>
  h row (List.mem_filter.1 hrow).1

/-- A change keeps the next key fresh exactly if the key that it assigns, if any, is below it. -/
theorem fresh_update_iff (h : t.Fresh key) (filters : List (Filter Value)) (values : Row) :
    (t.update filters values).2.Fresh key ↔
      ∀ row ∈ t.rows, passes filters row = true → ∀ k ∈ keyOf? key values, k < t.nextKey := by
  constructor
  · intro hfresh row hrow hpasses k hk
    refine hfresh (row.override values) (List.mem_map.2 ⟨row, hrow, ?_⟩) k
      (keyOf?_override_of_mem hk row)
    simp [hpasses]
  · intro hbelow changed hchanged k hk
    obtain ⟨row, hrow, rfl⟩ := List.mem_map.1 hchanged
    by_cases hpasses : passes filters row = true
    · rw [if_pos hpasses] at hk
      rcases mem_or_mem_of_mem_keyOf?_override hk with hk | hk
      · exact hbelow row hrow hpasses k hk
      · exact h row hrow k hk
    · rw [if_neg hpasses] at hk
      exact h row hrow k hk

/-- The key that a row without a key gets is the next key, which no row has yet. -/
theorem insert_generates (h : t.Fresh key) {row : Row} (hrow : row.get? key = none)
    (hnext : Decimal.isSigned t.nextKey = true) :
    keyOf? key (t.insert key row).1 = some t.nextKey ∧
      ∀ old ∈ t.rows, keyOf? key old ≠ some t.nextKey := by
  have hkey : keyOf? key row = none := by simp [keyOf?, hrow]
  have hcontains : row.contains key = false := by simp [Record.contains_eq_isSome, hrow]
  constructor
  · simp [insert, hkey, hcontains, keyOf?_insert, Value.signed?, hnext]
  · intro old hold hsame
    exact lt_irrefl _ (h old hold _ hsame)

end Table

/-! ### Calls of a store -/

/-- The call gives some row of a table a key that is not below the next key of the table. -/
inductive Call.Rekeys (s : Store) : Call → Prop
  | update {name : String} {filters : List (Filter Value)} {values row : Row} {t : Table} {k : Int}
      (htable : t ∈ s.table? name) (hrow : row ∈ t.rows) (hpasses : passes filters row = true)
      (hkey : k ∈ keyOf? s.keyColumn values) (hnext : t.nextKey ≤ k) :
      Rekeys s (.update name filters values)

namespace Store

/-- The next key of every table is greater than every key in it. -/
def Fresh (s : Store) : Prop :=
  ∀ name, ∀ t ∈ s.table? name, t.Fresh s.keyColumn

variable {s : Store}

section OneTable

variable {α : Type} {name : String} {act : Table → Except ServiceError α × Table}

theorem keyColumn_onTable : (s.onTable name act).2.keyColumn = s.keyColumn := by
  unfold onTable
  cases s.table? name <;> rfl

/-- What is done to one table keeps all tables fresh exactly if it keeps this one so. -/
theorem fresh_onTable_iff (h : s.Fresh) :
    (s.onTable name act).2.Fresh ↔ ∀ t ∈ s.table? name, (act t).2.Fresh s.keyColumn := by
  unfold onTable
  cases ht : s.table? name with
  | none => simpa using h
  | some t =>
    have htable (other : String) : (s.replace name (act t).2).table? other =
        if other = name then some (act t).2 else s.table? other := by
      rw [table?_replace]
      by_cases hother : other = name
      · simp [hother, ht]
      · simp [hother]
    constructor
    · intro hfresh t' ht'
      obtain rfl : t = t' := Option.some.inj ht'
      exact hfresh name _ (by simp [htable])
    · intro hfresh other t' ht'
      simp only [htable] at ht'
      by_cases hother : other = name
      · obtain rfl : (act t).2 = t' := by simpa [hother] using ht'
        exact hfresh t rfl
      · exact h other t' (by simpa [hother] using ht')

end OneTable

/-- The key column stays the same. -/
theorem keyColumn_service (call : Call) (s : Store) :
    (service call s).2.keyColumn = s.keyColumn := by
  cases call with
  | select q => rfl
  | rawSql sql => rfl
  | _ => exact keyColumn_onTable

theorem keyColumn_after (s : Store) (calls : List Call) :
    (service.after s calls).keyColumn = s.keyColumn := by
  induction calls generalizing s with
  | nil => rfl
  | cons call calls ih => exact (ih _).trans (keyColumn_service call s)

/-- One call keeps the next keys fresh exactly if it does not assign a key beyond them. -/
theorem fresh_service_iff (h : s.Fresh) (call : Call) :
    (service call s).2.Fresh ↔ ¬ call.Rekeys s := by
  cases call with
  | select q => exact iff_of_true h nofun
  | rawSql sql => exact iff_of_true h nofun
  | insert name row =>
    exact iff_of_true ((fresh_onTable_iff h).2 fun t ht => Table.fresh_insert (h name t ht) row)
      nofun
  | delete name filters =>
    exact iff_of_true
      ((fresh_onTable_iff h).2 fun t ht => Table.fresh_delete (h name t ht) filters) nofun
  | update name filters values =>
    refine (fresh_onTable_iff h).trans ?_
    constructor
    · rintro hfresh ⟨htable, hrow, hpasses, hkey, hnext⟩
      have hlt := (Table.fresh_update_iff (h name _ htable) filters values).1 (hfresh _ htable)
        _ hrow hpasses _ hkey
      omega
    · intro hrekeys t ht
      refine (Table.fresh_update_iff (h name t ht) filters values).2 fun row hrow hpasses k hk => ?_
      exact Int.not_le.1 fun hle => hrekeys (.update ht hrow hpasses hk hle)

/-! ### Runs -/

theorem table?_withTable (s : Store) (name other : String) (rows : List Row) :
    (s.withTable name rows).table? other =
      if other = name then some (.ofRows s.keyColumn rows) else s.table? other := by
  unfold withTable table?
  by_cases h : other = name
  · simp [h]
  · have hname : (fun e : String × Table => !decide (e.1 = name) && decide (e.1 = other)) =
        fun e => decide (e.1 = other) := by
      funext e
      by_cases he : e.1 = other <;> simp [he, h]
    simp [h, Ne.symm h, List.find?_filter, hname]

/-- A store as it is before its first call: tables are put in with their rows, and the key column
is not changed any more once there are rows. -/
inductive Seeded : Store → Prop
  | empty (keyColumn : String) : Seeded (empty keyColumn)
  | withTable {s : Store} (h : Seeded s) (name : String) (rows : List Row) :
      Seeded (s.withTable name rows)
  | withKeyColumn {s : Store} (h : Seeded s) (hrows : ∀ name, s.rows name = [])
      (keyColumn : String) : Seeded { s with keyColumn := keyColumn }

theorem Seeded.fresh (h : s.Seeded) : s.Fresh := by
  induction h with
  | empty keyColumn =>
    intro name t ht
    cases ht
  | withTable _ name rows ih =>
    intro other t ht
    rw [table?_withTable] at ht
    by_cases hother : other = name
    · obtain rfl : Table.ofRows _ rows = t := by simpa [hother] using ht
      exact Table.fresh_ofRows _ rows
    · exact ih other t (by simpa [hother] using ht)
  | @withKeyColumn s _ hrows keyColumn _ =>
    intro name t ht row hrow
    have ht : s.table? name = some t := ht
    have hnil : t.rows = [] := by simpa [rows, ht] using hrows name
    simp [hnil] at hrow

/-- Along a run the next keys stay greater than all keys that are stored exactly if no call of the
run assigns a key beyond them. And as long as they are, a row that comes without a key gets one that
no row of its table has. -/
theorem fresh_along_iff (hs : s.Seeded) (calls : List Call) :
    ((∀ before, before <+: calls → (service.after s before).Fresh) ↔
      ∀ before call, before ++ [call] <+: calls → ¬ call.Rekeys (service.after s before)) ∧
    let behind := service.after s calls
    behind.Fresh → ∀ name row, ∀ t ∈ behind.table? name, row.get? s.keyColumn = none →
      Decimal.isSigned t.nextKey = true →
      ∃ stored, (service (.insert name row) behind).1 = .ok (some stored) ∧
        keyOf? s.keyColumn stored = some t.nextKey ∧
        ∀ old ∈ t.rows, keyOf? s.keyColumn old ≠ some t.nextKey := by
  have hstep (before : List Call) (call : Call) : service.after s (before ++ [call]) =
      (service call (service.after s before)).2 := by simp [Service.after]
  refine ⟨⟨fun hfresh before call hcall => ?_, fun hrekeys before hbefore => ?_⟩, ?_⟩
  · have hfirst := hfresh before ((List.prefix_append before [call]).trans hcall)
    rw [← fresh_service_iff hfirst, ← hstep]
    exact hfresh _ hcall
  · induction before using List.reverseRecOn with
    | nil => exact hs.fresh
    | append_singleton before call ih =>
      have hfirst := ih ((List.prefix_append before [call]).trans hbefore)
      rw [hstep, fresh_service_iff hfirst]
      exact hrekeys before call hbefore
  · intro behind hfresh name row t ht hrow hnext
    have hkey : behind.keyColumn = s.keyColumn := keyColumn_after s calls
    have hinsert : (service (.insert name row) behind).1 =
        .ok (some (t.insert behind.keyColumn row).1) := by
      simp [service, onTable, Option.mem_def.1 ht]
    refine ⟨_, hinsert, ?_⟩
    rw [hkey]
    exact Table.insert_generates (hkey ▸ hfresh name t ht) hrow hnext

/-- Behind a row that came in with the key 7 the next key is 8. -/
theorem fresh_along_iff_insert :
    let s := (empty "id").withTable "t" [.ofList [("id", .int 3)]]
    let behind := service.after s [.insert "t" (.ofList [("id", .int 7)])]
    s.Seeded ∧ behind.Fresh ∧ ∃ stored,
      (service (.insert "t" .empty) behind).1 = .ok (some stored) ∧
        keyOf? "id" stored = some 8 ∧ ∀ old ∈ behind.rows "t", keyOf? "id" old ≠ some 8 := by
  intro s behind
  have hs : s.Seeded := .withTable (.empty "id") "t" _
  obtain ⟨hiff, hgenerates⟩ := fresh_along_iff hs [.insert "t" (.ofList [("id", .int 7)])]
  have hfresh : behind.Fresh := by
    refine hiff.2 (fun before call hcall => ?_) _ List.prefix_rfl
    obtain rfl : call = _ := List.mem_singleton.1 (hcall.subset (by simp))
    exact nofun
  have htable : ∃ t ∈ behind.table? "t", t.nextKey = 8 := by decide +kernel
  obtain ⟨t, ht, hnext⟩ := htable
  obtain ⟨stored, hstored, hkey, hrows⟩ :=
    hgenerates hfresh "t" .empty t ht rfl (by rw [hnext]; decide)
  refine ⟨hs, hfresh, stored, hstored, hnext ▸ hkey, ?_⟩
  have hbehind : behind.rows "t" = t.rows := by simp [rows, Option.mem_def.1 ht]
  rw [hbehind, ← hnext]
  exact hrows

/-- A change that gives a row the next key lets the key be given out once more. -/
theorem update_repeats_key :
    let s := (empty "id").withTable "t" [.ofList [("a", .text "x"), ("id", .int 1)]]
    let behind := service.after s [.update "t" [⟨"a", .text "x"⟩] (.ofList [("id", .int 2)])]
    s.Seeded ∧ ¬ behind.Fresh ∧
      (∃ stored ∈ (service (.insert "t" .empty) behind).1.toOption.join,
        keyOf? "id" stored = some 2) ∧
      ∃ old ∈ behind.rows "t", keyOf? "id" old = some 2 := by
  intro s behind
  refine ⟨.withTable (.empty "id") "t" _, fun hfresh => ?_, by decide +kernel, by decide +kernel⟩
  have htable : ∃ t ∈ behind.table? "t", t.nextKey = 2 ∧
      ∃ row ∈ t.rows, keyOf? "id" row = some 2 := by decide +kernel
  obtain ⟨t, ht, hnext, row, hrow, hkey⟩ := htable
  have hlt : 2 < t.nextKey := hfresh "t" t ht row hrow 2 hkey
  omega

end Store

end TableSql
