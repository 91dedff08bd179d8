import TableSql.Proofs.Decimal.Binary64
import TableSql.Proofs.Store.Rows

/-!
# Sorted rows

The rows of a reading are sorted by the first of its keys that tells two of them apart. Of two cells
the smaller number comes first if both are or spell numbers, else the smaller text, and null and
missing cells are greater than all others. As the cells of a column are compared as numbers or as
texts, whichever they have in common, their order need not be transitive. Where it is, for every key
on its own, the order of rows is a total preorder too, and the rows come out in it.

It is a preorder only on the rows that are sorted, so they are sorted here together with the fact
that they are among these rows.

## Main definitions

* `CellLess` — the order of cells.
* `Sortable` — the cells of a column are in a total preorder.
* `SortKey.Ties`, `SortKey.Before`, `Precedes` — the order of rows, key by key.
* `Lacks`, `SortKey.Bounds` — rows without a cell, and where a key puts them.
* `SortedBy` — rows in the order of keys.

## Main results

* `compareCells_eq_lt_iff`, `compareCells_eq_eq_iff` — what the comparison of two cells says.
* `compareRows_eq_eq_iff`, `compareRows_eq_lt_iff` — what the comparison of two rows says.
* `transCmp_compareRows` — the comparison of rows is a total preorder.
* `sortedBy_sortRows` — sorted rows.
* `SortedBy.eq_of_precedes` — rows of which each precedes the later ones are in the only order.
* `Store.reading_in_order` — the rows of a reading.
-/

namespace TableSql

/-! ### The order of cells -/

/-- The first cell is less than the second one. -/
inductive CellLess : Option Value → Option Value → Prop
  /-- Both are or spell numbers, and its number is less. -/
  | number {a b : Value} {x y : Float} (ha : a.quantity? = some x) (hb : b.quantity? = some y)
      (hlt : x < y) : CellLess (some a) (some b)
  /-- Not both are or spell numbers, and its text is less. -/
  | text {a b : Value} (ha : a ≠ .null) (hb : b ≠ .null)
      (hnumbers : a.quantity? = none ∨ b.quantity? = none) (hlt : a.display < b.display) :
      CellLess (some a) (some b)
  /-- It is there and not null, and the second one is missing or null. -/
  | lacking {a : Value} {b : Option Value} (ha : a ≠ .null) (hb : ∀ v ∈ b, v = .null) :
      CellLess (some a) b

section Cells

variable {a b : Value}

theorem compareNumbers_eq_lt_iff {x y : Float} : compareNumbers x y = .lt ↔ x < y := by
  unfold compareNumbers
  split
  · rename_i hlt
    simp [hlt]
  · rename_i hlt
    split <;> simp [hlt]

/-- Two numbers are compared as numbers. -/
theorem compareValues_of_numbers {x y : Float} (ha : a.quantity? = some x)
    (hb : b.quantity? = some y) : compareValues a b = .lt ↔ x < y := by
  rw [compareValues, ha, hb]
  exact compareNumbers_eq_lt_iff

/-- Two values that are not both numbers are compared as texts. -/
theorem compareValues_of_texts (h : a.quantity? = none ∨ b.quantity? = none) :
    compareValues a b = .lt ↔ a.display < b.display := by
  have htext : compareValues a b = compare a.display b.display := by
    rcases h with h | h
    · rw [compareValues, h]
    · rw [compareValues, h]
      cases a.quantity? <;> rfl
  rw [htext, compare_lt_iff_lt]

theorem ne_null_of_quantity? {x : Float} (h : a.quantity? = some x) : a ≠ .null := by
  rintro rfl
  cases h

theorem isNull_iff : a.isNull = true ↔ a = .null := by
  cases a <;> simp [Value.isNull]

theorem filter_isNull_eq_some_iff {cell : Option Value} :
    cell.filter (!·.isNull) = some a ↔ cell = some a ∧ a ≠ .null := by
  simp [Option.filter_eq_some_iff, ← isNull_iff]

theorem filter_isNull_eq_none_iff {cell : Option Value} :
    cell.filter (!·.isNull) = none ↔ ∀ v ∈ cell, v = .null := by
  simp [Option.filter_eq_none_iff, isNull_iff]

/-- The comparison of cells finds the first one less exactly if it is. -/
theorem compareCells_eq_lt_iff {a b : Option Value} : compareCells a b = .lt ↔ CellLess a b := by
  constructor
  · intro h
    unfold compareCells at h
    split at h
    · cases h
    · cases h
    · rename_i x ha hb
      obtain ⟨rfl, hx⟩ := filter_isNull_eq_some_iff.1 ha
      exact .lacking hx (filter_isNull_eq_none_iff.1 hb)
    · rename_i x y ha hb
      obtain ⟨rfl, hx⟩ := filter_isNull_eq_some_iff.1 ha
      obtain ⟨rfl, hy⟩ := filter_isNull_eq_some_iff.1 hb
      by_cases hnumbers : x.quantity? = none ∨ y.quantity? = none
      · exact .text hx hy hnumbers ((compareValues_of_texts hnumbers).1 h)
      · obtain ⟨hp, hq⟩ := not_or.1 hnumbers
        obtain ⟨p, hp⟩ := Option.ne_none_iff_exists'.1 hp
        obtain ⟨q, hq⟩ := Option.ne_none_iff_exists'.1 hq
        exact .number hp hq ((compareValues_of_numbers hp hq).1 h)
  · intro h
    unfold compareCells
    cases h with
    | number ha hb hlt =>
      rw [filter_isNull_eq_some_iff.2 ⟨rfl, ne_null_of_quantity? ha⟩,
        filter_isNull_eq_some_iff.2 ⟨rfl, ne_null_of_quantity? hb⟩]
      exact (compareValues_of_numbers ha hb).2 hlt
    | text ha hb hnumbers hlt =>
      rw [filter_isNull_eq_some_iff.2 ⟨rfl, ha⟩, filter_isNull_eq_some_iff.2 ⟨rfl, hb⟩]
      exact (compareValues_of_texts hnumbers).2 hlt
    | lacking ha hb =>
      rw [filter_isNull_eq_some_iff.2 ⟨rfl, ha⟩, filter_isNull_eq_none_iff.2 hb]

instance : DecidableRel CellLess := fun _ _ =>
  decidable_of_iff _ compareCells_eq_lt_iff

end Cells

theorem compareNumbers_swap (x y : Float) : (compareNumbers x y).swap = compareNumbers y x := by
  unfold compareNumbers
  by_cases hxy : x < y
  · simp [hxy, not_lt_of_lt hxy]
  · by_cases hyx : y < x <;> simp [hxy, hyx]

theorem compareValues_swap (a b : Value) : (compareValues a b).swap = compareValues b a := by
  have htext : (compare a.display b.display).swap = compare b.display a.display :=
    Std.OrientedCmp.eq_swap.symm
  unfold compareValues
  cases a.quantity? <;> cases b.quantity? <;> simp only [htext, compareNumbers_swap]

/-- Of two cells one comes first, or they count as equal. -/
theorem compareCells_swap (a b : Option Value) : (compareCells a b).swap = compareCells b a := by
  unfold compareCells
  cases a.filter (!·.isNull) <;> cases b.filter (!·.isNull)
  case some.some x y => exact compareValues_swap x y
  all_goals rfl

theorem SortKey.compare_swap (k : SortKey) (a b : Row) : (k.compare a b).swap = k.compare b a := by
  unfold compare
  cases k.direction <;> simp only [compareCells_swap]

theorem compareCells_eq_gt_iff {a b : Option Value} : compareCells a b = .gt ↔ CellLess b a := by
  rw [← Ordering.swap_eq_lt, compareCells_swap, compareCells_eq_lt_iff]

/-- The comparison of cells finds them equal exactly if none of them is less. -/
theorem compareCells_eq_eq_iff {a b : Option Value} :
    compareCells a b = .eq ↔ ¬ CellLess a b ∧ ¬ CellLess b a := by
  rw [← compareCells_eq_lt_iff, ← compareCells_eq_gt_iff]
  cases compareCells a b <;> simp

theorem isLE_compareCells_iff {a b : Option Value} :
    (compareCells a b).isLE = true ↔ ¬ CellLess b a := by
  rw [← compareCells_eq_gt_iff, Ordering.isLE_iff_ne_gt]

/-- The cells that the rows have in a column are in a total preorder: a cell that is not greater
than a second one is not greater either than a third one that the second one is not greater than.
Of two cells one is not greater in any case. -/
def Sortable (column : String) (rows : List Row) : Prop :=
  ∀ a ∈ rows, ∀ b ∈ rows, ∀ c ∈ rows,
    ¬ CellLess (b.get? column) (a.get? column) → ¬ CellLess (c.get? column) (b.get? column) →
      ¬ CellLess (c.get? column) (a.get? column)

instance (column : String) (rows : List Row) : Decidable (Sortable column rows) :=
  inferInstanceAs (Decidable (∀ a ∈ rows, ∀ b ∈ rows, ∀ c ∈ rows, _ → _ → _))

/-! ### The order of rows -/

/-- The key does not tell the rows apart: none of their cells is less. -/
def SortKey.Ties (k : SortKey) (a b : Row) : Prop :=
  ¬ CellLess (a.get? k.column) (b.get? k.column) ∧ ¬ CellLess (b.get? k.column) (a.get? k.column)

/-- The key puts the first row before the second one. -/
def SortKey.Before (k : SortKey) (a b : Row) : Prop :=
  match k.direction with
  | .ascending => CellLess (a.get? k.column) (b.get? k.column)
  | .descending => CellLess (b.get? k.column) (a.get? k.column)

/-- The first key that tells the rows apart puts the first row before the second one. -/
def Precedes (keys : List SortKey) (a b : Row) : Prop :=
  ∃ ties k rest, keys = ties ++ k :: rest ∧ (∀ j ∈ ties, j.Ties a b) ∧ k.Before a b

namespace SortKey

variable {k : SortKey} {a b : Row}

theorem compare_eq_eq_iff : k.compare a b = .eq ↔ k.Ties a b := by
  rw [Ties, ← compareCells_eq_eq_iff]
  unfold compare
  cases k.direction <;> simp

theorem compare_eq_lt_iff : k.compare a b = .lt ↔ k.Before a b := by
  unfold compare Before
  cases k.direction with
  | ascending => exact compareCells_eq_lt_iff
  | descending => exact Ordering.swap_eq_lt.trans compareCells_eq_gt_iff

end SortKey

section Rows

variable {keys : List SortKey} {a b : Row}

theorem compareRows_swap : (compareRows keys a b).swap = compareRows keys b a := by
  induction keys with
  | nil => rfl
  | cons k ks ih => rw [compareRows, Ordering.swap_then, k.compare_swap, ih, compareRows]

theorem compareRows_eq_eq_iff : compareRows keys a b = .eq ↔ ∀ k ∈ keys, k.Ties a b := by
  induction keys with
  | nil => simp [compareRows]
  | cons k ks ih => simp [compareRows, SortKey.compare_eq_eq_iff, ih]

theorem precedes_cons {k : SortKey} :
    Precedes (k :: keys) a b ↔ k.Before a b ∨ k.Ties a b ∧ Precedes keys a b := by
  constructor
  · rintro ⟨ties, j, rest, hkeys, hties, hbefore⟩
    cases ties with
    | nil =>
      obtain ⟨rfl, -⟩ := List.cons.inj hkeys
      exact .inl hbefore
    | cons i ties =>
      obtain ⟨rfl, hrest⟩ := List.cons.inj hkeys
      obtain ⟨htie, hties⟩ := List.forall_mem_cons.1 hties
      exact .inr ⟨htie, ties, j, rest, hrest, hties, hbefore⟩
  · rintro (hbefore | ⟨htie, ties, j, rest, rfl, hties, hbefore⟩)
    · exact ⟨[], k, keys, rfl, List.forall_mem_nil _, hbefore⟩
    · exact ⟨k :: ties, j, rest, rfl, List.forall_mem_cons.2 ⟨htie, hties⟩, hbefore⟩

theorem compareRows_eq_lt_iff : compareRows keys a b = .lt ↔ Precedes keys a b := by
  induction keys with
  | nil => simp [compareRows, Precedes]
  | cons k ks ih =>
    rw [compareRows, Ordering.then_eq_lt, SortKey.compare_eq_lt_iff, SortKey.compare_eq_eq_iff, ih,
      precedes_cons]

instance : DecidableRel (Precedes keys) := fun _ _ =>
  decidable_of_iff _ compareRows_eq_lt_iff

/-- A row is not behind another one exactly if this one does not precede it. -/
theorem isLE_compareRows_iff : (compareRows keys a b).isLE = true ↔ ¬ Precedes keys b a := by
  rw [← compareRows_eq_lt_iff, ← compareRows_swap, Ordering.isLE_iff_ne_gt,
    Ordering.swap_eq_gt]

/-- Of two rows at most one precedes the other. -/
theorem Precedes.asymm (h : Precedes keys a b) : ¬ Precedes keys b a := by
  rw [← isLE_compareRows_iff, compareRows_eq_lt_iff.2 h]
  rfl

end Rows

/-! ### Null and missing cells -/

/-- The row has no cell in the column, or null. -/
def Lacks (column : String) (row : Row) : Prop :=
  ∀ cell ∈ row.get? column, cell = .null

/-- A cell that is there is less than one that is not. -/
theorem cellLess_of_lacks {column : String} {a b : Row} (ha : ¬ Lacks column a)
    (hb : Lacks column b) : CellLess (a.get? column) (b.get? column) := by
  unfold Lacks at ha
  push Not at ha
  obtain ⟨cell, hcell, hnull⟩ := ha
  rw [hcell]
  exact .lacking hnull hb

/-- Where the key puts the rows without a cell: behind the others if it is ascending, in front of
them if it is descending. -/
def SortKey.Bounds (k : SortKey) (earlier later : Row) : Prop :=
  match k.direction with
  | .ascending => Lacks k.column earlier → Lacks k.column later
  | .descending => Lacks k.column later → Lacks k.column earlier

theorem SortKey.bounds_of_not_before {k : SortKey} {earlier later : Row}
    (h : ¬ k.Before later earlier) : k.Bounds earlier later := by
  unfold Before at h
  unfold Bounds
  cases hdirection : k.direction with
  | ascending =>
    rw [hdirection] at h
    exact fun hearlier => by_contra fun hlater => h (cellLess_of_lacks hlater hearlier)
  | descending =>
    rw [hdirection] at h
    exact fun hlater => by_contra fun hearlier => h (cellLess_of_lacks hearlier hlater)

/-! ### Sorted rows -/

/-- The rows `after` are the rows `before` in the order of the keys. -/
structure SortedBy (keys : List SortKey) (before after : List Row) : Prop where
  /-- They are the same rows. -/
  perm : after.Perm before
  /-- No row precedes an earlier one. -/
  ordered : after.Pairwise fun earlier later => ¬ Precedes keys later earlier
  /-- Rows that no key tells apart keep their order. -/
  stable (ties : List Row) : ties.Sublist before →
    (ties.Pairwise fun a b => ∀ k ∈ keys, k.Ties a b) → ties.Sublist after
  /-- Rows without a cell for the first key are on the side where this key puts them. -/
  bounded (k : SortKey) (rest : List SortKey) : keys = k :: rest → after.Pairwise k.Bounds
  /-- Without keys nothing moves. -/
  unsorted : keys = [] → after = before

section Sorted

variable {keys : List SortKey} {rows : List Row}

theorem SortKey.transCmp_compare {k : SortKey} (h : Sortable k.column rows) :
    Std.TransCmp fun a b : {row // row ∈ rows} => k.compare a b := by
  have hcells : Std.TransCmp fun a b : {row // row ∈ rows} =>
      compareCells (a.1.get? k.column) (b.1.get? k.column) :=
    { eq_swap := (compareCells_swap _ _).symm
      isLE_trans := fun {a b c} hab hbc => isLE_compareCells_iff.2
        (h a a.2 b b.2 c c.2 (isLE_compareCells_iff.1 hab) (isLE_compareCells_iff.1 hbc)) }
  unfold compare
  cases k.direction with
  | ascending => exact hcells
  | descending =>
    simp only [compareCells_swap]
    exact hcells.opposite

/-- The comparison of rows is a total preorder if the comparison of their cells is one for every
key. -/
theorem transCmp_compareRows (h : ∀ k ∈ keys, Sortable k.column rows) :
    Std.TransCmp fun a b : {row // row ∈ rows} => compareRows keys a b := by
  induction keys with
  | nil => exact { eq_swap := rfl, isLE_trans := fun _ _ => rfl }
  | cons k ks ih =>
    obtain ⟨hk, hks⟩ := List.forall_mem_cons.1 h
    have hfirst := SortKey.transCmp_compare hk
    have hrest := ih hks
    -- One key after another is the lexicographic comparison, a preorder as both of its parts are.
    exact inferInstanceAs (Std.TransCmp (compareLex
      (fun a b : {row // row ∈ rows} => k.compare a b) fun a b => compareRows ks a b))

/-- Whether one of the given rows is not behind another. The comparison of rows is a preorder on
these rows, and need not be one on all rows. -/
def notBehind (keys : List SortKey) (rows : List Row) (a b : {row // row ∈ rows}) : Bool :=
  (compareRows keys a b).isLE

theorem notBehind_trans (h : ∀ k ∈ keys, Sortable k.column rows) (a b c : {row // row ∈ rows}) :
    notBehind keys rows a b = true → notBehind keys rows b c = true →
      notBehind keys rows a c = true :=
  (transCmp_compareRows h).isLE_trans

theorem notBehind_total (a b : {row // row ∈ rows}) :
    (notBehind keys rows a b || notBehind keys rows b a) = true := by
  unfold notBehind
  rw [← compareRows_swap]
  cases compareRows keys b a <;> rfl

theorem map_val_mergeSort_attach (keys : List SortKey) (rows : List Row) :
    (rows.attach.mergeSort (notBehind keys rows)).map Subtype.val = sortRows keys rows := by
  calc (rows.attach.mergeSort (notBehind keys rows)).map Subtype.val
      = (rows.attach.map Subtype.val).mergeSort fun a b => (compareRows keys a b).isLE :=
        List.map_mergeSort fun _ _ _ _ => rfl
    _ = sortRows keys rows := by rw [List.attach_map_subtype_val, sortRows]

theorem pairwise_sortRows (h : ∀ k ∈ keys, Sortable k.column rows) :
    (sortRows keys rows).Pairwise fun earlier later => ¬ Precedes keys later earlier := by
  have hsorted := List.pairwise_mergeSort (notBehind_trans h) notBehind_total rows.attach
  rw [← map_val_mergeSort_attach, List.pairwise_map]
  exact hsorted.imp isLE_compareRows_iff.1

/-- Rows that are in order already keep their order. -/
theorem sublist_sortRows (h : ∀ k ∈ keys, Sortable k.column rows) {ties : List Row}
    (hties : ties.Sublist rows) (hordered : ties.Pairwise fun a b => ¬ Precedes keys b a) :
    ties.Sublist (sortRows keys rows) := by
  rw [← List.attach_map_subtype_val rows] at hties
  obtain ⟨ties, hsublist, rfl⟩ := List.sublist_map_iff.1 hties
  have hle : ties.Pairwise fun a b => notBehind keys rows a b = true :=
    (List.pairwise_map.1 hordered).imp isLE_compareRows_iff.2
  have hkept := List.sublist_mergeSort (notBehind_trans h) notBehind_total hle hsublist
  rw [← map_val_mergeSort_attach]
  exact hkept.map Subtype.val

/-- Rows that no key tells apart do not precede each other. -/
theorem not_precedes_of_ties {a b : Row} (h : ∀ k ∈ keys, k.Ties a b) : ¬ Precedes keys b a := by
  rw [← compareRows_eq_eq_iff] at h
  rw [← isLE_compareRows_iff, h]
  rfl

/-- Sorting under keys whose cells are in a total preorder. -/
theorem sortedBy_sortRows (h : ∀ k ∈ keys, Sortable k.column rows) :
    SortedBy keys rows (sortRows keys rows) where
  perm := List.mergeSort_perm _ _
  ordered := pairwise_sortRows h
  stable _ hties hequal := sublist_sortRows h hties (hequal.imp not_precedes_of_ties)
  bounded k _ hkeys := (pairwise_sortRows h).imp fun hordered =>
    k.bounds_of_not_before fun hbefore => hordered (hkeys ▸ precedes_cons.2 (.inl hbefore))
  unsorted hkeys := hkeys ▸ List.mergeSort_of_pairwise (List.pairwise_of_forall fun _ _ => rfl)

/-- If of some rows each precedes all later ones, sorted rows stand as they do. -/
theorem SortedBy.eq_of_precedes {before after strict : List Row} (h : SortedBy keys before after)
    (hperm : strict.Perm before) (hstrict : strict.Pairwise (Precedes keys)) : after = strict := by
  have hsame : after.Perm strict := h.perm.trans hperm.symm
  have hordered : strict.Pairwise fun earlier later => ¬ Precedes keys later earlier :=
    hstrict.imp Precedes.asymm
  have heither : strict.Pairwise fun a b => Precedes keys a b ∨ Precedes keys b a :=
    hstrict.imp .inl
  have hsymm : Std.Symm fun a b => Precedes keys a b ∨ Precedes keys b a :=
    ⟨fun _ _ => Or.symm⟩
  refine hsame.eq_of_pairwise (fun a b ha hb hab hba => ?_) h.ordered hordered
  by_contra hne
  rcases heither.forall (hsame.mem_iff.1 ha) hb hne with hless | hless
  · exact hba hless
  · exact hab hless

end Sorted

/-! ### Readings -/

namespace Store

/-- A reading of all columns without limit and offset shows the rows that pass its filters, in the
order of its keys, whenever the cells of these rows are in a total preorder for every key. -/
theorem reading_in_order {s : Store} {name : String} {t : Table} {filters : List (Filter Value)}
    {order : List SortKey} (ht : s.table? name = some t)
    (h : ∀ k ∈ order, Sortable k.column (t.rows.filter (passes filters))) :
    ∃ rows, service (.select ⟨⟨name, .all, filters, order, none, none⟩, false⟩) s = (.ok rows, s) ∧
      SortedBy order (t.rows.filter (passes filters)) rows := by
  refine ⟨sortRows order (t.rows.filter (passes filters)), ?_, sortedBy_sortRows h⟩
  have hproject : Columns.all.project = id := rfl
  simp [service, select, ht, Table.select, hproject]
  rfl

/-- The order is a total preorder among the amounts, which are numbers, the text of one and null,
and among the names, of which one is missing. Null comes first, then the two amounts of ten by their
names, then the nine. -/
theorem reading_in_order_amounts :
    let ten : Row := .ofList [("id", .int 1), ("amount", .text "10"), ("name", .text "b")]
    let unknown : Row := .ofList [("id", .int 2), ("amount", .null), ("name", .text "c")]
    let nine : Row := .ofList [("id", .int 3), ("amount", .int 9)]
    let alike : Row := .ofList [("id", .int 4), ("amount", .float 10.0), ("name", .text "a")]
    let s := (empty "id").withTable "subs" [ten, unknown, nine, alike]
    let order : List SortKey := [⟨"amount", .descending⟩, ⟨"name", .ascending⟩]
    ∃ t ∈ s.table? "subs", (∀ k ∈ order, Sortable k.column (t.rows.filter (passes []))) ∧
      service (.select ⟨⟨"subs", .all, [], order, none, none⟩, false⟩) s =
        (.ok [unknown, alike, ten, nine], s) ∧
      SortedBy order (t.rows.filter (passes [])) [unknown, alike, ten, nine] := by
  intro ten unknown nine alike s order
  have hsortable : ∀ k ∈ order,
      Sortable k.column ([ten, unknown, nine, alike].filter (passes [])) := by
    decide +kernel
  have hstrict : [unknown, alike, ten, nine].Pairwise (Precedes order) := by decide +kernel
  have hperm : [unknown, alike, ten, nine].Perm [ten, unknown, nine, alike] :=
    (List.perm_middle : ([unknown, alike] ++ ten :: [nine]).Perm _).trans
      (((List.Perm.swap nine alike []).cons unknown).cons ten)
  have ht : s.table? "subs" = some (.ofRows "id" [ten, unknown, nine, alike]) := rfl
  obtain ⟨rows, hread, hsorted⟩ := reading_in_order ht hsortable
  obtain rfl : rows = [unknown, alike, ten, nine] := hsorted.eq_of_precedes hperm hstrict
  exact ⟨_, ht, hsortable, hread, hsorted⟩

end Store

end TableSql
