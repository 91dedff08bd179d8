import TableSql.Proofs.Connection.Counting
import TableSql.Proofs.Statement.Paging

/-!
# Recomputed aggregates with a limit and an offset

An aggregate that a service refuses is computed by a recipe, and its result is one row. A limit and
an offset say how much of this result is wanted: all of it if the limit is not zero and the offset
is, and nothing otherwise. But they are not kept in the shape of an aggregate, so the row is given
whatever they are.

## Main results

* `Connection.exists_recipe_of_runOn` — a result in spite of a refusal is that of a recipe.
* `Connection.paging_leaves_recomputed_row` — a limit and an offset do not change the result of a
  recipe.
-/

namespace TableSql

/-- Of a single row a limit and an offset leave all or nothing. -/
theorem take_drop_singleton {α : Type} (l o : Nat) (r : α) :
    ([r].drop o).take l = if 1 ≤ l ∧ o = 0 then [r] else [] := by
  cases o with
  | zero => cases l <;> simp
  | succ o => simp

namespace Entry

/-- An entry that fetches rows tells one row from none. -/
theorem ofRows_eq_iff {entry : Entry} (h : entry ≠ .run) (r : Row) (p : Prop) [Decidable p] :
    entry.ofRows [r] = entry.ofRows (if p then [r] else []) ↔ p := by
  split
  · simp [*]
  · refine iff_of_false (fun heq => ?_) ‹_›
    cases entry with
    | get => cases heq
    | all => cases heq
    | run => exact h rfl

end Entry

namespace Connection

variable {σ : Type} (service : Service σ) {c : Connection} {plan : AggregatePlan Value}
  {b : Bindings} {sql sql' : String} {s s' : Scan} {l o : Nat} {r : Row} {before after final : σ}

/-- An aggregate that succeeds although its text is refused has a recipe, whose result it is. -/
theorem exists_recipe_of_runOn (hparse : parse b sql = .ok (.aggregate plan)) {e : ServiceError}
    (hrefused : service (.rawSql plan.remoteSql) before = (.error e, after))
    (hrun : (c.attempt b sql .all).runOn service before = (.ok [r], final)) :
    ∃ shape recipe, c.recipe? plan = some (shape, recipe) ∧
      (recompute shape recipe).runOn service after = (.ok [r], final) := by
  rw [(attempt_of_refused service c hparse .all hrefused).2, fallback] at hrun
  rcases hrecipe : c.recipe? plan with _ | ⟨shape, recipe⟩
  · rw [hrecipe] at hrun
    cases congrArg Prod.fst hrun
  · rw [hrecipe] at hrun
    dsimp only at hrun
    refine ⟨shape, recipe, rfl, ?_⟩
    rcases hrows : (recompute shape recipe).runOn service after with ⟨e | rows, state⟩
    · rw [hrows] at hrun
      cases congrArg Prod.fst hrun
    · rw [hrows] at hrun
      cases hrun
      rfl

/-- If a service refuses the text of an aggregate and a recipe gives a row for it, then with a limit
and an offset appended every entry gives this row, whatever they are. So what an entry that fetches
rows gives is what the limit and the offset leave of the row exactly if they leave it. -/
theorem paging_leaves_recomputed_row (hs : scanTrimmed sql = .ok s)
    (hs' : scanTrimmed sql' = .ok s') (hpages : Pages l o s.lexemes s'.lexemes)
    (hkind : kindOfTokens s.tokens = .aggregate) (hunpaged : s.Unpaged b.count?)
    (hrefuses : ∀ text, ∃ e, service (.rawSql text) before = (.error e, after))
    (hrun : (c.attempt b sql .all).runOn service before = (.ok [r], final)) :
    (∀ entry : Entry,
      (c.attempt b sql' entry).runOn service before = (.ok (entry.ofRows [r]), final)) ∧
    ∀ entry : Entry, entry ≠ .run →
      ((c.attempt b sql' entry).runOn service before =
        (.ok (entry.ofRows (([r].drop o).take l)), final) ↔ 1 ≤ l ∧ o = 0) := by
  obtain ⟨plan, hparse⟩ : ∃ plan, parse b sql = .ok (.aggregate plan) := by
    rw [parse_of_scan hs b, Scan.prepareTokens_aggregate hkind]
    exact ⟨_, rfl⟩
  obtain ⟨e, hrefused⟩ := hrefuses _
  obtain ⟨shape, recipe, hrecipe, hrows⟩ := exists_recipe_of_runOn service hparse hrefused hrun
  obtain ⟨hshape, hfind⟩ := of_recipe? hrecipe
  obtain ⟨hexact, -, -⟩ := Registry.of_find? hfind
  obtain ⟨plan', hparse', hshape'⟩ :=
    exists_parse_of_pages hs hs' hpages hunpaged hparse hshape hexact
  have hrecipe' : c.recipe? plan' = some (shape, recipe) := by
    rw [recipe?, hshape', ← hshape]
    exact hrecipe
  have hall (entry : Entry) :
      (c.attempt b sql' entry).runOn service before = (.ok (entry.ofRows [r]), final) := by
    obtain ⟨e', hrefused'⟩ := hrefuses plan'.remoteSql
    rw [(attempt_of_refused service c hparse' entry hrefused').2, fallback, hrecipe']
    dsimp only
    rw [hrows]
    rfl
  refine ⟨hall, fun entry hentry => ?_⟩
  rw [hall entry, take_drop_singleton, Prod.mk.injEq, Except.ok.injEq, and_iff_left rfl]
  exact Entry.ofRows_eq_iff hentry r _

/-- A count over a store gives the number of the rows that pass its filters. -/
theorem runOn_attempt_count {s : Store} {name : String} {n : Nat} (hcount :
      ∃ plan ∈ (parse b sql).toOption.bind Statement.plan?, ∃ found ∈ standard.recipe? plan,
        found.2.id = Recipe.rowCount.id ∧ found.1.resultName.getD "count" = name ∧
          ∃ t ∈ s.table? found.1.table, (t.rows.filter (passes found.1.filters)).length = n)
    (hsmall : n < 2 ^ 53) (entry : Entry) :
    (standard.attempt b sql entry).runOn Store.service s =
      (.ok (entry.ofRows [.single name (.int n)]), s) := by
  obtain ⟨plan, hplan, ⟨shape, recipe⟩, hrecipe, hid, rfl, t, ht, rfl⟩ := hcount
  have hparse := parse_of_mem_plan? hplan
  obtain rfl : recipe = .rowCount := by
    have hmem : recipe ∈ Registry.standard.recipes := (Registry.of_find? (of_recipe? hrecipe).2).2.1
    rw [Registry.recipes_standard, List.mem_pair] at hmem
    rcases hmem with rfl | rfl
    · exact absurd hid (show "monthly_spend" ≠ "row_count" by decide)
    · rfl
  have hrows : t.select (sourceOf shape .rowCount) = t.rows.filter (passes shape.filters) :=
    t.select_filters shape.table shape.filters
  rw [Store.runOn_attempt_of_recipe? s hparse hrecipe entry, ht]
  dsimp only
  rw [hrows, Recipe.fold_rowCount hsmall]
  rfl

/-- Two rows are counted. The offset is behind the only row of the result, which is given all the
same. -/
theorem paging_leaves_recomputed_row_offset :
    let b : Bindings := ⟨[], ""⟩
    let s := (Store.empty "id").withTable "t" [.ofList [("a", .int 1)], .ofList [("a", .int 2)]]
    let sql := "SELECT COUNT(*) FROM t ORDER BY a;"
    let sql' := "SELECT COUNT(*) FROM t ORDER BY a LIMIT 7 OFFSET 1"
    (standard.attempt b sql .all).runOn Store.service s = (.ok [.single "count" (.int 2)], s) ∧
      (∀ entry : Entry, (standard.attempt b sql' entry).runOn Store.service s =
        (.ok (entry.ofRows [.single "count" (.int 2)]), s)) ∧
      ∀ entry : Entry, entry ≠ .run →
        (standard.attempt b sql' entry).runOn Store.service s ≠ (.ok (entry.ofRows []), s) := by
  intro b s sql sql'
  have hscan : ∃ scan ∈ (scanTrimmed sql).toOption,
      kindOfTokens scan.tokens = .aggregate ∧ scan.Unpaged b.count? ∧
        (∀ t ∈ ((scan.lexemes.take 10).map Lexeme.token).getLast?, t ≠ .semicolon) ∧
          ∀ t ∈ (scan.lexemes.drop 10).map Lexeme.token, t = .semicolon := by decide +kernel
  have hscan' : ∃ scan' ∈ (scanTrimmed sql').toOption,
      ((scan'.lexemes.drop 10).take 4).map Lexeme.token =
          [.word "LIMIT", .number "7", .word "OFFSET", .number "1"] ∧
        ∀ t ∈ ((scan'.lexemes.drop 10).drop 4).map Lexeme.token, t = .semicolon := by
    decide +kernel
  have htake : ∀ scan ∈ (scanTrimmed sql).toOption, ∀ scan' ∈ (scanTrimmed sql').toOption,
      scan'.lexemes.take 10 = scan.lexemes.take 10 := by decide +kernel
  obtain ⟨scan, hscan, hkind, hunpaged, hbody, hends⟩ := hscan
  obtain ⟨scan', hscan', hpaging, hends'⟩ := hscan'
  have hclauses : PagingClauses 7 1 (((scan'.lexemes.drop 10).take 4).map Lexeme.token) := by
    rw [hpaging]
    exact .mk (by decide) (by decide) (by decide) (by decide)
  have hrun : (standard.attempt b sql .all).runOn Store.service s =
      (.ok [.single "count" (.int 2)], s) :=
    runOn_attempt_count (n := 2) (by decide +kernel) (by decide) .all
  have hrefuses (text : String) : ∃ e, Store.service (.rawSql text) s = (.error e, s) :=
    ⟨.rawSqlUnavailable, rfl⟩
  obtain ⟨hall, hiff⟩ := paging_leaves_recomputed_row Store.service (eq_ok_of_mem_toOption hscan)
    (eq_ok_of_mem_toOption hscan')
    (.of_take (htake scan hscan scan' hscan') hbody hclauses hends hends') hkind hunpaged hrefuses
    hrun
  exact ⟨hrun, hall, fun entry hentry hnone => absurd ((hiff entry hentry).1 hnone).2 (by decide)⟩

/-- A limit of zero rows leaves the row of a count. -/
theorem count_with_zero_limit :
    let b : Bindings := ⟨[], ""⟩
    let s := (Store.empty "id").withTable "t" [.ofList [("id", .int 1)]]
    let limited := (standard.attempt b "SELECT COUNT(*) FROM t LIMIT 0 OFFSET 0" .all).runOn
      Store.service s
    (standard.attempt b "SELECT COUNT(*) FROM t" .all).runOn Store.service s =
        (.ok [.single "count" (.int 1)], s) ∧
      limited = (.ok [.single "count" (.int 1)], s) ∧ limited ≠ (.ok [], s) := by
  intro b s limited
  have hlimited : limited = (.ok [.single "count" (.int 1)], s) :=
    runOn_attempt_count (n := 1) (by decide +kernel) (by decide) .all
  refine ⟨runOn_attempt_count (n := 1) (by decide +kernel) (by decide) .all, hlimited, ?_⟩
  rw [hlimited]
  nofun

end Connection

end TableSql
