import TableSql.Proofs.Connection.Calls
import TableSql.Proofs.Store.Rows

/-!
# How far a write reaches

A write has an effect on the rows that pass its filters, and its filters are those of the
comparisons among the conjuncts of its `WHERE` clause. So no row is reached that fails one of the
comparisons. A conjunct of another form has no filter, and rows that fail it are reached if they
pass the others; if no conjunct is a comparison the text is refused.

## Main results

* `Store.spares_of_writes`, `Store.table?_of_writes` — what the call of a write does to a store.
* `Connection.write_keeps_to_comparisons` — what a write does, said by its text.
* `Connection.delete_passes_over_inequality` — a row that fails a conjunct of another form.
-/

namespace TableSql

namespace Store

variable {call : Call} {table other : String} {filters : List (Filter Value)}

/-- The call of a write keeps to its filters. -/
theorem spares_of_writes (h : call.Writes table filters) (s : Store) :
    Spares filters (s.rows table) ((Store.service call s).2.rows table) := by
  cases h with
  | update => exact spares_onTable fun t => t.spares_update filters _
  | delete => exact spares_onTable fun t => t.spares_delete filters

/-- The call of a write leaves other tables as they are. -/
theorem table?_of_writes (h : call.Writes table filters) (s : Store) (hother : other ≠ table) :
    (Store.service call s).2.table? other = s.table? other := by
  cases h with
  | update => exact table?_onTable_of_ne hother
  | delete => exact table?_onTable_of_ne hother

end Store

namespace Connection

/-- A write has one filter for each comparison among its conjuncts, on its column and in the same
order, and there is one at least; every conjunct has its filter exactly if all are comparisons. The
filters have the values of the comparisons, unless a marker that stands in turn is tested for null.
The write leaves other tables as they are, and in its own every row that fails one of the
filters. -/
theorem write_keeps_to_comparisons {b : Bindings} {sql : String} {statement : Statement Value}
    {table : String} {filters : List (Filter Value)} (h : parse b sql = .ok statement)
    (hw : statement.Writes table filters) :
    ∃ scan spans fs, scanTrimmed sql = .ok scan ∧ HasConjuncts scan.byNumber.tokens spans ∧
      Keeps spans fs ∧ filters ≠ [] ∧ filters.map Filter.column = fs.map Filter.column ∧
      (scan.Untested → filters = fs.map (Filter.map b.value)) ∧
      (filters.length = spans.length ↔ ∀ span ∈ spans, ∃ f, Compares span f) ∧
      ∀ (c : Connection) (entry : Entry) (s : Store),
        let after := ((c.attempt b sql entry).runOn Store.service s).2
        Spares filters (s.rows table) (after.rows table) ∧
          ∀ other, other ≠ table → after.table? other = s.table? other := by
  obtain ⟨scan, spans, fs, hscan, hspans, hkeeps, -, hcolumns, hvalues⟩ :=
    exists_conjuncts_of_parse h hw
  refine ⟨scan, spans, fs, hscan, hspans, hkeeps, filters_ne_nil_of_parse h hw, hcolumns, hvalues,
    ?_, fun c entry s => ?_⟩
  · have hlength : filters.length = fs.length := by simpa using congrArg List.length hcolumns
    rw [hlength]
    exact hkeeps.length_eq_iff
  · obtain ⟨call, hcall, -, hstate⟩ := exists_call_of_writes Store.service c entry s b sql hw
    rw [attempt_of_parse c entry h]
    dsimp only
    rw [hstate]
    exact ⟨Store.spares_of_writes hcall s, fun other => Store.table?_of_writes hcall s⟩

/-- Two of the three conjuncts of this change are comparisons, and it spares every row that fails
one of the two. -/
theorem write_keeps_to_comparisons_update :
    let b : Bindings := ⟨[.text "x", .text "k"], ""⟩
    let sql := "UPDATE t SET a = ? WHERE id = ? AND b IS NULL AND c > 3"
    ∃ table values filters, parse b sql = .ok (.update table values filters) ∧
      filters.map Filter.display = ["id = \"k\"", "b IS NULL"] ∧
      ∀ s : Store, Spares filters (s.rows table)
        (((standard.attempt b sql .run).runOn Store.service s).2.rows table) := by
  intro b sql
  have hparse : ∃ statement ∈ (parse b sql).toOption, statement.kind = .update ∧
      statement.filters.map Filter.display = ["id = \"k\"", "b IS NULL"] := by decide +kernel
  obtain ⟨statement, hstatement, hkind, hfilters⟩ := hparse
  cases statement <;> cases hkind
  case update table values filters =>
    have h := eq_ok_of_mem_toOption hstatement
    obtain ⟨_, _, _, -, -, -, -, -, -, -, hstore⟩ := write_keeps_to_comparisons h .update
    exact ⟨table, values, filters, h, hfilters, fun s => (hstore standard .run s).1⟩

/-- A conjunct that is no comparison has no filter, and a row that fails it is removed. -/
theorem delete_passes_over_inequality :
    let b : Bindings := ⟨[], ""⟩
    let sql := "DELETE FROM t WHERE a = 'x' AND b <> 'y'"
    let s := (Store.empty "id").withTable "t" [.ofList [("a", .text "x"), ("b", .text "y")]]
    (∃ scan, scanTrimmed sql = .ok scan ∧ HasConjuncts scan.tokens
      [[.word "a", .equals, .string "x"], [.word "b", .operator "<>", .string "y"]]) ∧
    (∃ statement ∈ (parse b sql).toOption,
      statement.filters.map Filter.display = ["a = \"x\""]) ∧
    (s.rows "t").length = 1 ∧
    (((standard.attempt b sql .run).runOn Store.service s).2.rows "t").length = 0 := by
  refine ⟨?_, by decide +kernel, by decide +kernel, by decide +kernel⟩
  have hscan : ∃ scan ∈ (scanTrimmed "DELETE FROM t WHERE a = 'x' AND b <> 'y'").toOption,
      takeSpan (Token.isKeyword .WHERE) 0 scan.tokens =
        ([.word "DELETE", .word "FROM", .word "t"],
          [.word "WHERE", .word "a", .equals, .string "x", .word "AND", .word "b", .operator "<>",
            .string "y"]) := by decide +kernel
  obtain ⟨scan, hscan, htake⟩ := hscan
  refine ⟨scan, eq_ok_of_mem_toOption hscan, hasConjuncts_iff.2 ⟨_, _, _, [], htake, ?_, ?_, ?_⟩⟩
  · decide +kernel
  · exact eq_ok_of_mem_toOption (by decide +kernel)
  · simp

end Connection

end TableSql
