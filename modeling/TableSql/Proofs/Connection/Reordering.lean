import TableSql.Proofs.Connection.Agreement
import TableSql.Proofs.Statement.Reordering

/-!
# Filters in another order

A row passes all filters or it does not, whatever their order is. So a reading finds the same rows
in the same order if its filters are put into another one, a change changes the same rows, and a
removal takes away the same ones. Over a store in memory, two texts that differ in the order of the
conjuncts behind `WHERE` have the same outcome at every entry, and they leave the same store.

## Main results

* `passes_perm` — the rows that pass do not depend on the order of the filters.
* `Table.select_perm`, `Store.update_perm`, `Store.delete_perm` — what a store does stays the same.
* `Statement.Reordered.runOn_respond` — statements with their filters in another order.
* `conjuncts_in_any_order` — texts with their conjuncts in another order.
-/

namespace TableSql

/-! ### Stores -/

theorem passes_perm {fs fs' : List (Filter Value)} (h : fs.Perm fs') : passes fs = passes fs' :=
  funext fun _ => h.all_eq

section Calls

variable {fs fs' : List (Filter Value)} {table : String} (s : Store)

/-- A reading with its filters in another order has the same rows in the same order. -/
theorem Table.select_perm (t : Table) {q : Select Value} (h : q.filters.Perm fs) :
    t.select { q with filters := fs } = t.select q := by
  simp only [select, passes_perm h]

theorem Store.update_perm (values : Row) (h : fs.Perm fs') :
    Store.service (.update table fs' values) s = Store.service (.update table fs values) s := by
  have hupdate (t : Table) : t.update fs' values = t.update fs values := by
    simp only [Table.update, passes_perm h]
  simp only [service, hupdate]
  rfl

theorem Store.delete_perm (h : fs.Perm fs') :
    Store.service (.delete table fs') s = Store.service (.delete table fs) s := by
  have hdelete (t : Table) : t.delete fs' = t.delete fs := by
    simp only [Table.delete, passes_perm h]
  simp only [service, hdelete]
  rfl

end Calls

/-! ### Statements -/

/-- Over a store in memory, statements that say the same with their filters in another order have
the same outcome and leave the same store. -/
theorem Statement.Reordered.runOn_respond {p p' : Statement Value} (h : p.Reordered p')
    (c : Connection) (b : Bindings) (sql sql' : String) (entry : Entry) (s : Store) :
    (c.respond b sql' entry p').runOn Store.service s =
      (c.respond b sql entry p).runOn Store.service s := by
  cases h with
  | @select q fs h =>
    cases ht : s.table? q.table with
    | none =>
      rw [Store.runOn_respond_select_of_none c b sql entry ht]
      exact Store.runOn_respond_select_of_none c b sql' entry ht
    | some t =>
      rw [Store.runOn_respond_select_of_some c b sql entry ht, ← t.select_perm h]
      exact Store.runOn_respond_select_of_some c b sql' entry ht
  | @update table values fs fs' h =>
    have hupdate : (Connection.update table values fs').runOn Store.service s =
        (Connection.update table values fs).runOn Store.service s := by
      simp only [Connection.update, Attempt.runOn_callOr, s.update_perm values h]
      rcases Store.service (.update table fs values) s with ⟨e | r, s'⟩
      · cases e <;> rfl
      · rfl
    exact (Attempt.runOn_bind_pure ..).trans
      ((congrArg _ hupdate).trans (Attempt.runOn_bind_pure ..).symm)
  | @delete table fs fs' h =>
    have hdelete : (Connection.delete table fs').runOn Store.service s =
        (Connection.delete table fs).runOn Store.service s := by
      simp only [Connection.delete, Attempt.runOn_callOr, s.delete_perm h]
      rcases Store.service (.delete table fs) s with ⟨e | n, s'⟩
      · cases e <;> rfl
      · rfl
    exact (Attempt.runOn_bind_pure ..).trans
      ((congrArg _ hdelete).trans (Attempt.runOn_bind_pure ..).symm)

/-! ### Texts -/

/-- A `SELECT`, an `UPDATE` or a `DELETE` in which no marker stands in turn may have the conjuncts
behind its `WHERE` in another order. It is accepted or not as before, its filters are the same ones
in another order, and over a store in memory every entry has the same outcome and leaves the same
store. -/
theorem conjuncts_in_any_order (b : Bindings) {sql sql' : String} {s s' : Scan}
    (hs : scanTrimmed sql = .ok s) (hs' : scanTrimmed sql' = .ok s')
    (hkind : kindOfTokens s.tokens ∈ [.select, .update, .delete])
    (hnext : .marker .next ∉ s.tokens) (h : Reorders s.tokens s'.tokens) :
    ((∃ p, parse b sql = .ok p) ↔ ∃ p', parse b sql' = .ok p') ∧
      ∀ p p', parse b sql = .ok p → parse b sql' = .ok p' → p.Reordered p' ∧
        ∀ (c : Connection) (entry : Entry) (store : Store),
          (c.attempt b sql' entry).runOn Store.service store =
            (c.attempt b sql entry).runOn Store.service store := by
  have hby : (Cursor.start (.detect s.tokens)).ByNumber s.tokens := .inr hnext
  refine ⟨⟨?_, ?_⟩, ?_⟩
  · rintro ⟨p, hp⟩
    obtain ⟨p', hp', -⟩ := exists_parse_of_reorders hs hs' h hkind hby hp
    exact ⟨p', hp'⟩
  · rintro ⟨p', hp'⟩
    rw [h.kindOfTokens_eq] at hkind
    have hby' := h.byNumber hby
    rw [h.detect_eq] at hby'
    obtain ⟨p, hp, -⟩ := exists_parse_of_reorders hs' hs h.symm hkind hby' hp'
    exact ⟨p, hp⟩
  · intro p p' hp hp'
    obtain ⟨_, hparse, hreordered⟩ := exists_parse_of_reorders hs hs' h hkind hby hp
    cases hp'.symm.trans hparse
    refine ⟨hreordered, fun c entry store => ?_⟩
    rw [c.attempt_of_parse entry hp, c.attempt_of_parse entry hp']
    exact hreordered.runOn_respond c b sql sql' entry store

/-- A condition that is not understood stands last or first, and the marker that names its parameter
has other conditions behind it or in front of it. -/
theorem conjuncts_in_any_order_update :
    ∃ p p',
      parse ⟨[.int 7, .text "x"], ""⟩
          "UPDATE t SET b = $2 WHERE a = $1 AND d IS NULL AND (b = 2 OR c = 3)" = .ok p ∧
        parse ⟨[.int 7, .text "x"], ""⟩
            "UPDATE t SET b = $2 WHERE (b = 2 OR c = 3) AND d IS NULL AND a = $1" = .ok p' ∧
          p.filters.map Filter.display = ["a = 7", "d IS NULL"] ∧
            p'.filters.map Filter.display = ["d IS NULL", "a = 7"] ∧ p.Reordered p' := by
  let head : List Token := [.word "UPDATE", .word "t", .word "SET", .word "b", .equals,
    .marker (.numbered 2)]
  let equality : List Token := [.word "a", .equals, .marker (.numbered 1)]
  let test : List Token := [.word "d", .word "IS", .word "NULL"]
  let disjunction : List Token := [.openParen, .word "b", .equals, .number "2", .word "OR",
    .word "c", .equals, .number "3", .closeParen]
  have hfirst : ∃ s ∈ (scanTrimmed
        "UPDATE t SET b = $2 WHERE a = $1 AND d IS NULL AND (b = 2 OR c = 3)").toOption,
      s.tokens = head ++ .word "WHERE" :: ((equality ++ .word "AND" :: (test ++ .word "AND" ::
        disjunction)) ++ []) := by decide +kernel
  have hsecond : ∃ s ∈ (scanTrimmed
        "UPDATE t SET b = $2 WHERE (b = 2 OR c = 3) AND d IS NULL AND a = $1").toOption,
      s.tokens = head ++ .word "WHERE" :: ((disjunction ++ .word "AND" :: (test ++ .word "AND" ::
        equality)) ++ []) := by decide +kernel
  have hfilters : ∃ p ∈ (parse ⟨[.int 7, .text "x"], ""⟩
        "UPDATE t SET b = $2 WHERE a = $1 AND d IS NULL AND (b = 2 OR c = 3)").toOption,
      p.filters.map Filter.display = ["a = 7", "d IS NULL"] := by decide +kernel
  have hfilters' : ∃ p' ∈ (parse ⟨[.int 7, .text "x"], ""⟩
        "UPDATE t SET b = $2 WHERE (b = 2 OR c = 3) AND d IS NULL AND a = $1").toOption,
      p'.filters.map Filter.display = ["d IS NULL", "a = 7"] := by decide +kernel
  obtain ⟨s, hs, htokens⟩ := hfirst
  obtain ⟨s', hs', htokens'⟩ := hsecond
  obtain ⟨p, hp, hdisplay⟩ := hfilters
  obtain ⟨p', hp', hdisplay'⟩ := hfilters'
  have hperm : [equality, test, disjunction].Perm [disjunction, test, equality] :=
    (List.reverse_perm _).symm
  have hreorders : Reorders s.tokens s'.tokens := by
    rw [htokens, htokens']
    refine .mk (by decide) (by decide) (by decide) hperm ?_ ?_ (by decide)
    · exact .and _ (by decide) (.and _ (by decide) (.last _))
    · exact .and _ (by decide) (.and _ (by decide) (.last _))
  have hall := conjuncts_in_any_order ⟨[.int 7, .text "x"], ""⟩ (eq_ok_of_mem_toOption hs)
    (eq_ok_of_mem_toOption hs') (by rw [htokens]; decide) (by rw [htokens]; decide) hreorders
  exact ⟨p, p', eq_ok_of_mem_toOption hp, eq_ok_of_mem_toOption hp', hdisplay, hdisplay',
    (hall.2 p p' (eq_ok_of_mem_toOption hp) (eq_ok_of_mem_toOption hp')).1⟩

end TableSql
