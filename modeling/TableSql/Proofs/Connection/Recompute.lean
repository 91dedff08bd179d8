import TableSql.Proofs.Connection.Calls
import TableSql.Proofs.Statement.Reading
import TableSql.Store

/-!
# What is read for an aggregate

If a service refuses the text of an aggregate, a recipe may compute it from rows. These have to be
the rows that the statement is about, neither more nor fewer. A recipe is only taken if every
conjunct of the conditions became a filter, and a shape is only there if the statement has nothing
behind its conditions that would change its rows or their number. So the reading that is made has
the table of the statement and one filter for each of its conjuncts. Where there is no recipe the
aggregate fails, with its text and its parameters.

## Main definitions

* `Recipe.Reads` — the reading of a recipe for the text of an aggregate.

## Main results

* `Registry.find?_standard` — what the recipes that are always there are taken for.
* `exists_selects_of_parse` — the form of an aggregate whose conditions all became filters.
* `Connection.attempt_refused` — what follows if a service refuses the text of an aggregate.
-/

namespace TableSql

/-! ### Recipes that are found -/

namespace Registry

theorem of_find? {g : Registry} {shape : AggregateShape Value} {r : Recipe}
    (h : g.find? shape = some r) :
    shape.exact = true ∧ r ∈ g.recipes ∧ r.applies shape = true := by
  unfold find? at h
  split at h
  · rename_i hexact
    exact ⟨hexact, List.mem_of_find?_eq_some h, by simpa using List.find?_some h⟩
  · cases h

/-- The recipes that are always there are taken for a sum or a count that is alone in its list. -/
theorem find?_standard {shape : AggregateShape Value} {r : Recipe}
    (h : standard.find? shape = some r) :
    shape.function ∈ ["SUM", "COUNT"] ∧ shape.bare = true := by
  obtain ⟨-, hmem, happlies⟩ := of_find? h
  have hrecognises := (Bool.and_eq_true_iff.1 happlies).1
  rw [recipes_standard, List.mem_pair] at hmem
  rcases hmem with rfl | rfl
  · simp only [Recipe.monthlySpend, Bool.and_eq_true, decide_eq_true_eq] at hrecognises
    simp [hrecognises]
  · simp only [Recipe.rowCount, Bool.and_eq_true, decide_eq_true_eq] at hrecognises
    simp [hrecognises]

end Registry

/-! ### Aggregates whose conditions all became filters -/

/-- If its markers name their parameters, an aggregate whose conditions all became filters is a
reading from one table with a comparison for each filter. -/
theorem Scan.exists_selects_of_prepareTokens {s : Scan} {read : Grammar.CountReader}
    {plan : AggregatePlan Operand} {shape : AggregateShape Operand}
    (hs : (Cursor.start (.detect s.tokens)).ByNumber s.tokens)
    (h : s.prepareTokens read = .ok (.aggregate plan)) (hshape : plan.shape = some shape)
    (hexact : shape.exact = true) :
    ∃ list spans, Selects list shape.table spans s.tokens ∧
      Grammar.aggregateSpans s.tokens = .ok spans ∧ List.Forall₂ Compares spans shape.filters ∧
      (shape.bare = true → IsCall [shape.function] list) := by
  rw [(aggregate_of_prepareTokens h).1] at hshape
  obtain ⟨p, hp, rfl⟩ := Option.map_eq_some_iff.1 hshape
  obtain ⟨spans, hselects, hspans, hconditions, hcall, hlength⟩ :=
    Grammar.selects_of_aggregatePieces? hp
  have hby : ((Cursor.start (.detect s.tokens)).skipAll p.list).ByNumber spans.flatten :=
    hs.of_subset hselects.flatten_subset (Cursor.mode_skipAll _ _)
  have hkeeps : Keeps spans p.source.filters := by
    rw [Grammar.Source.filters, hconditions]
    exact keeps_conditions hby
  have hall : ∀ span ∈ spans, ∃ f, Compares span f := by
    rw [← Cursor.all_isSome_conditions_iff, ← hconditions]
    exact hexact
  exact ⟨p.list, spans, hselects, hspans, hkeeps.forall₂ hall,
    Grammar.isCall_of_bare hcall hlength⟩

/-- Comparisons test no markers for null. -/
theorem testedMarkers_of_forall₂ {spans : List (List Token)} {fs : List (Filter Operand)}
    (h : List.Forall₂ Compares spans fs) : testedMarkers spans = [] := by
  induction h with
  | nil => rfl
  | cons hspan _ ih => rw [testedMarkers, List.filterMap_cons, hspan.testedMarker?]; exact ih

/-- An aggregate whose conditions all became filters is a reading from one table. Each filter is
that of the conjunct at its place, with its own parameter. -/
theorem exists_selects_of_parse {b : Bindings} {sql : String} {plan : AggregatePlan Value}
    {shape : AggregateShape Value} (h : parse b sql = .ok (.aggregate plan))
    (hshape : plan.shape = some shape) (hexact : shape.exact = true) :
    ∃ scan list spans fs, scanTrimmed sql = .ok scan ∧
      Selects list shape.table spans scan.byNumber.tokens ∧ List.Forall₂ Compares spans fs ∧
      shape.filters = fs.map (Filter.map b.value) ∧
      (shape.bare = true → IsCall [shape.function] list) := by
  obtain ⟨s, p, hscan, hp, hmap⟩ := exists_of_parse_eq_ok h
  obtain ⟨plan, rfl⟩ : ∃ plan, p = .aggregate plan := by
    cases p <;> first | exact ⟨_, rfl⟩ | cases hmap
  cases hmap
  obtain ⟨shape, hshape', rfl⟩ := Option.map_eq_some_iff.1 hshape
  cases hmode : MarkerMode.detect s.tokens with
  | numbered =>
    obtain ⟨list, spans, hselects, -, hfilters, hbare⟩ :=
      Scan.exists_selects_of_prepareTokens (.inl hmode) hp hshape' hexact
    refine ⟨s, list, spans, _, hscan, ?_, hfilters, rfl, hbare⟩
    rwa [Scan.byNumber, hmode]
  | sequential =>
    rw [Scan.prepareTokens_numbered hmode] at hp
    obtain ⟨p', hp', heq⟩ := exists_of_map_eq_ok hp
    obtain ⟨plan', rfl⟩ : ∃ plan', p' = .aggregate plan' := by
      cases p' <;> first | exact ⟨_, rfl⟩ | cases heq
    cases heq
    obtain ⟨shape', hshape'', rfl⟩ := Option.map_eq_some_iff.1 hshape'
    have hs : (Cursor.start (.detect s.numbered.tokens)).ByNumber s.numbered.tokens := by
      rw [Scan.tokens_numbered]
      exact .inr (next_notMem_numberFrom 0 s.tokens)
    obtain ⟨list, spans, hselects, hspans, hfilters, hbare⟩ :=
      Scan.exists_selects_of_prepareTokens hs hp' hshape'' hexact
    have htested : s.tested = [] := by
      have hkind := Scan.kindOfTokens_of_prepareTokens hp'
      simp only [Scan.tested, Grammar.conditionSpans, hkind, Statement.kind, hspans]
      exact testedMarkers_of_forall₂ hfilters
    refine ⟨s, list, spans, _, hscan, ?_, hfilters, ?_, hbare⟩
    · rwa [Scan.byNumber, hmode]
    · have hid : Operand.slipped [] = id := funext Operand.slipped_nil
      rw [htested, hid]
      simp [AggregateShape.map, Filter.map]

/-! ### Refused aggregates -/

/-- The query reads for the text of an aggregate what a recipe needs: the text is a reading from one
table, every conjunct of its conditions is a comparison, and the query reads the columns of the
recipe from this table, with the filters of the comparisons in their order, and neither sorts its
rows nor leaves any out. -/
inductive Recipe.Reads (recipe : Recipe) (b : Bindings) (sql : String) (list : List Token) :
    TableQuery → Prop
  | mk {scan : Scan} {table : String} {spans : List (List Token)} {fs : List (Filter Operand)}
      (hscan : scanTrimmed sql = .ok scan)
      (hselects : Selects list table spans scan.byNumber.tokens)
      (hfilters : List.Forall₂ Compares spans fs) :
      Reads recipe b sql list
        ⟨⟨table, recipe.columns, fs.map (Filter.map b.value), [], none, none⟩, false⟩

namespace Connection

variable {σ : Type} (service : Service σ) (c : Connection) {b : Bindings} {sql : String}
  {plan : AggregatePlan Value}

/-- A recipe is found for the shape of an aggregate, and by it alone. -/
theorem of_recipe? {c : Connection} {plan : AggregatePlan Value} {shape : AggregateShape Value}
    {recipe : Recipe} (h : c.recipe? plan = some (shape, recipe)) :
    plan.shape = some shape ∧ c.recipes.find? shape = some recipe := by
  obtain ⟨shape', hshape, hfound⟩ := Option.bind_eq_some_iff.1 h
  obtain ⟨recipe', hfind, heq⟩ := Option.map_eq_some_iff.1 hfound
  cases heq
  exact ⟨hshape, hfind⟩

/-- A recipe that is found for an aggregate reads what its text says. -/
theorem reads_of_recipe? {shape : AggregateShape Value} {recipe : Recipe}
    (h : parse b sql = .ok (.aggregate plan)) (hrecipe : c.recipe? plan = some (shape, recipe)) :
    recipe ∈ c.recipes.recipes ∧
      ∃ list, recipe.Reads b sql list ⟨sourceOf shape recipe, false⟩ ∧
        (c.recipes = .standard → IsCall ["SUM", "COUNT"] list) := by
  obtain ⟨hshape, hfind⟩ := of_recipe? hrecipe
  obtain ⟨hexact, hmem, -⟩ := Registry.of_find? hfind
  obtain ⟨scan, list, spans, fs, hscan, hselects, hcompares, hfilters, hcall⟩ :=
    exists_selects_of_parse h hshape hexact
  refine ⟨hmem, list, ?_, fun hstandard => ?_⟩
  · rw [sourceOf, hfilters]
    exact .mk hscan hselects hcompares
  · rw [hstandard] at hfind
    obtain ⟨hfunction, hbare⟩ := Registry.find?_standard hfind
    cases hcall hbare with
    | mk hw hargs hlabel => exact .mk (List.mem_singleton.1 hw ▸ hfunction) hargs hlabel

/-- The text of an aggregate that a service refuses is followed by what its recipe asks for. -/
theorem attempt_of_refused (h : parse b sql = .ok (.aggregate plan)) (entry : Entry) {s s' : σ}
    {e : ServiceError} (hrefused : service (.rawSql plan.remoteSql) s = (.error e, s')) :
    (c.attempt b sql entry).calls service s =
        .rawSql plan.remoteSql :: (c.sourceCall? plan).toList ∧
      (c.attempt b sql entry).runOn service s =
        ((c.fallback plan sql b.params).runOn service s').map (Except.map entry.ofRows) id := by
  rw [attempt_of_parse c entry h]
  simpa only [hrefused] using attempt_aggregate service c entry s plan

/-- If a service refuses the text of an aggregate, then either no further call is made and the
aggregate is unsupported, or one reading is made for a recipe. This reading is the one that the text
says, and if it succeeds the result is a single row with a single column. The recipes that are
always there make it only for a sum or a count that is alone in its list. -/
theorem attempt_refused (h : parse b sql = .ok (.aggregate plan)) (entry : Entry) {s s' : σ}
    {e : ServiceError} (hrefused : service (.rawSql plan.remoteSql) s = (.error e, s')) :
    ((c.attempt b sql entry).calls service s = [.rawSql plan.remoteSql] ∧
        (c.attempt b sql entry).runOn service s =
          (.error (.unsupportedAggregate sql b.params), s')) ∨
      ∃ recipe ∈ c.recipes.recipes, ∃ list query name, recipe.Reads b sql list query ∧
        (c.recipes = .standard → IsCall ["SUM", "COUNT"] list) ∧
        (c.attempt b sql entry).calls service s = [.rawSql plan.remoteSql, .select query] ∧
        (c.attempt b sql entry).runOn service s =
          match service (.select query) s' with
          | (.ok rows, s'') => (.ok (entry.ofRows [.single name (recipe.fold rows)]), s'')
          | (.error e, s'') => (.error (.service e), s'') := by
  obtain ⟨hcalls, hrun⟩ := attempt_of_refused service c h entry hrefused
  rw [hcalls, hrun]
  unfold sourceCall? fallback
  rcases hrecipe : c.recipe? plan with _ | ⟨shape, recipe⟩
  · exact .inl ⟨rfl, rfl⟩
  · right
    obtain ⟨hmem, list, hreads, hcall⟩ := c.reads_of_recipe? h hrecipe
    refine ⟨recipe, hmem, list, _, shape.resultName.getD recipe.defaultAlias, hreads, hcall, rfl,
      ?_⟩
    dsimp only
    rw [runOn_recompute]
    rcases service (.select ⟨sourceOf shape recipe, false⟩) s' with ⟨e | rows, s''⟩ <;> rfl

/-- A store runs no raw SQL, so the rows of a count are read from it. -/
theorem attempt_refused_count :
    ∃ plan, parse ⟨[.int 1], ""⟩ "SELECT COUNT(*) FROM t WHERE a = ?" = .ok (.aggregate plan) ∧
      Store.service (.rawSql plan.remoteSql) (.empty "id") =
        (.error .rawSqlUnavailable, .empty "id") ∧
      ∃ recipe ∈ Registry.standard.recipes, ∃ list query,
        recipe.Reads ⟨[.int 1], ""⟩ "SELECT COUNT(*) FROM t WHERE a = ?" list query ∧
          IsCall ["SUM", "COUNT"] list ∧
          (standard.attempt ⟨[.int 1], ""⟩ "SELECT COUNT(*) FROM t WHERE a = ?" .all).calls
              Store.service (.empty "id") = [.rawSql plan.remoteSql, .select query] := by
  have hplan : ∃ plan ∈ (parse ⟨[.int 1], ""⟩
      "SELECT COUNT(*) FROM t WHERE a = ?").toOption.bind Statement.plan?,
      (standard.recipe? plan).isSome = true := by decide +kernel
  obtain ⟨plan, hmem, hrecipe⟩ := hplan
  have hparse := parse_of_mem_plan? hmem
  have hrefused : Store.service (.rawSql plan.remoteSql) (.empty "id") =
      (.error .rawSqlUnavailable, .empty "id") := rfl
  refine ⟨plan, hparse, hrefused, ?_⟩
  rcases attempt_refused Store.service standard hparse .all hrefused with
    ⟨hcalls, -⟩ | ⟨recipe, hmem, list, query, name, hreads, hcall, hcalls, -⟩
  · obtain ⟨found, hfound⟩ := Option.isSome_iff_exists.1 hrecipe
    rw [(attempt_of_refused Store.service standard hparse .all hrefused).1, sourceCall?,
      hfound] at hcalls
    cases hcalls
  · exact ⟨recipe, hmem, list, query, hreads, hcall rfl, hcalls⟩

end Connection

end TableSql
