import TableSql.Proofs.Connection.Recompute
import TableSql.Proofs.Recipe.Counting
import TableSql.Proofs.Write.Removal

/-!
# A count gives the number of rows that a reading shows

A count of the rows of a table and a reading of all columns that have the same text behind `WHERE`
take different ways. The count is an aggregate: a store does not run its text, so a recipe is looked
for, the rows are read once more and a one is added up for each of them. Both texts fall into the
same tokens from `WHERE` on, and so the rows that are counted are those that the reading shows, as
long as every condition became a filter. If one did not, the reading shows too many rows, and the
count is refused.

## Main definitions

* `countText` — the text of a count.
* `CountsRows` — the arguments of a count of rows, and their tokens.

## Main results

* `toOption_tokens_scanTrimmed_countText` — the tokens of a count.
* `Grammar.aggregatePieces?_countHead` — the pieces of its shape.
* `Registry.find?_standard_count` — when the recipe that counts rows is taken.
* `exists_count_of_reading` — a count asks for the rows that the reading asks for.
* `Connection.count_agrees_with_reading` — the count gives the number of rows, or is refused.
-/

namespace TableSql

/-- The text of a count of rows of a table, with a text behind `WHERE`. -/
def countText (argument table conditions : String) : String :=
  "SELECT COUNT(" ++ argument ++ ") FROM \"" ++ table ++ "\" WHERE " ++ conditions

/-- The arguments with which a count is one of rows, and their tokens. -/
inductive CountsRows : String → Token → Prop
  | star : CountsRows "*" .star
  | one : CountsRows "1" (.number "1")

/-- The tokens of a count behind the name of its function, up to its conditions. -/
def countTail (argument : Token) (table : String) : List Token :=
  [.openParen, argument, .closeParen, Keyword.FROM.token, .quotedName table, Keyword.WHERE.token]

/-- The tokens of a count up to its conditions. -/
def countHead (argument : Token) (table : String) : List Token :=
  Keyword.SELECT.token :: .word "COUNT" :: countTail argument table

/-- The lexemes of a count up to its conditions. No blank stands behind the name of its function. -/
def countLexemes (argument : Token) (table : String) : List Lexeme :=
  ⟨[], "SELECT".toList, Keyword.SELECT.token, 0⟩ :: ⟨[' '], "COUNT".toList, .word "COUNT", 0⟩ ::
    laidOut none (countTail argument table)

/-! ### Tokens -/

section Tokens

variable {argument table : String} {t : Token}

theorem exists_countsRows (h : argument ∈ ["*", "1"]) : ∃ t, CountsRows argument t := by
  rcases List.mem_pair.1 h with rfl | rfl
  · exact ⟨_, .star⟩
  · exact ⟨_, .one⟩

theorem CountsRows.printed (h : CountsRows argument t) : t.Printed := by
  cases h with
  | star => exact .star
  | one =>
    have hone : Decimal.text 1 = "1" := by decide +kernel
    exact hone ▸ .count 1

theorem printed_countTail (h : CountsRows argument t) (htable : IsName table) :
    ∀ u ∈ countTail t table, u.Printed := by
  simpa [countTail] using ⟨Token.Printed.openParen, h.printed, Token.Printed.closeParen,
    Token.Printed.keyword .FROM, Token.Printed.name htable, Token.Printed.keyword .WHERE⟩

theorem neat_countTail (h : CountsRows argument t) (htable : IsName table) :
    ∀ u ∈ countTail t table, u.Neat :=
  fun u hu => (printed_countTail h htable u hu).neat

theorem map_token_countLexemes (t : Token) (table : String) :
    (countLexemes t table).map Lexeme.token = countHead t table := by
  simp [countLexemes, countHead]

theorem spelled_countLexemes (h : CountsRows argument t) (htable : IsName table) :
    Spelled (countLexemes t table) := by
  have hblank : IsGap [' '] := isGap_cons_of_isLineBlank rfl isGap_nil
  have hcount : (Token.word "COUNT").Spells "COUNT".toList := (Token.neat_word (by decide)).spells
  exact List.forall_mem_cons.2 ⟨⟨isGap_nil, (Token.Printed.keyword .SELECT).neat.spells⟩,
    List.forall_mem_cons.2 ⟨⟨hblank, hcount⟩, spelled_laidOut (neat_countTail h htable) none⟩⟩

theorem apart_countLexemes (h : CountsRows argument t) (htable : IsName table)
    {behind : List Char} (hb : ∀ c ∈ behind.head?, c = ' ') :
    Apart behind (countLexemes t table) := by
  refine ⟨?_, ?_, apart_laidOut (neat_countTail h htable) none fun c hc => .inl (hb c hc)⟩
  · refine (Token.Printed.keyword .SELECT).neat.joins_eq_false ?_
    simp
  · simp only [countTail, laidOut, source_cons]
    rfl

theorem toList_countText (h : CountsRows argument t) (table conditions : String) :
    (countText argument table conditions).toList =
      Scan.source ⟨countLexemes t table, []⟩ ++ ' ' :: conditions.toList := by
  have happend (s₁ s₂ s₃ s₄ s₅ s₆ : String) : (s₁ ++ s₂ ++ s₃ ++ s₄ ++ s₅ ++ s₆).toList =
      s₁.toList ++ (s₂.toList ++ (s₃.toList ++ (s₄.toList ++ (s₅.toList ++ s₆.toList)))) := by simp
  refine (happend _ _ _ _ _ _).trans ?_
  simp only [countLexemes, countTail, laidOut, source_cons, source_nil, Token.spelling,
    List.append_assoc, List.cons_append]
  cases h <;> rfl

/-- A count is scanned as its tokens up to the conditions and those of the text behind. -/
theorem toOption_tokens_scanTrimmed_countText (h : CountsRows argument t) (htable : IsName table)
    (conditions : String) :
    (scanTrimmed (countText argument table conditions)).toOption.map Scan.tokens =
      ((scan (Text.trimEnd (' ' :: conditions.toList))).toOption.map Scan.tokens).map
        (countHead t table ++ ·) := by
  rw [← map_token_countLexemes]
  exact toOption_tokens_scanTrimmed_of_apart (spelled_countLexemes h htable) ⟨_, rfl, rfl⟩
    (fun _ hb => apart_countLexemes h htable hb) (toList_countText h table conditions)

end Tokens

/-! ### Readers -/

theorem kindOfTokens_countHead (t : Token) (table : String) (ts : List Token) :
    kindOfTokens (countHead t table ++ ts) = .aggregate := by
  have hcall : hasAggregateCall (.word "COUNT" :: .openParen :: t :: .closeParen ::
      Keyword.FROM.token :: .quotedName table :: Keyword.WHERE.token :: ts) = true := by
    have hword : (Token.word "COUNT").isAggregateWord = true := by decide
    rw [hasAggregateCall_cons, hword]
    rfl
  simp only [countHead, countTail, List.cons_append, List.nil_append]
  rw [Keyword.token, kindOfTokens, if_pos]
  rw [hasAggregateCall_cons, hcall, Bool.or_true]

theorem detect_countHead {argument table : String} {t : Token} (h : CountsRows argument t)
    (ts : List Token) :
    MarkerMode.detect (countHead t table ++ ts) = MarkerMode.detect ts := by
  cases h <;> rfl

namespace Grammar

variable {argument table : String} {t : Token} {read : CountReader} {c : Cursor} {ts : List Token}

/-- The list of a count ends in front of its `FROM`. -/
theorem takeSpan_countHead (h : CountsRows argument t) (us : List Token) :
    takeSpan (Token.isKeyword .FROM) 0
        (.word "COUNT" :: .openParen :: t :: .closeParen :: Keyword.FROM.token :: us) =
      ([.word "COUNT", .openParen, t, .closeParen], Keyword.FROM.token :: us) := by
  refine takeSpan_eq_iff.2 ⟨rfl, ?_, ?_⟩
  · have hword : endsSpan (Token.isKeyword .FROM) (.word "COUNT") = false := by decide
    refine uncut_cons.2 ⟨fun _ => hword, uncut_cons.2 ⟨fun _ => rfl, ?_⟩⟩
    refine uncut_cons.2 ⟨nofun, ?_⟩
    cases h <;> exact uncut_cons.2 ⟨nofun, uncut_nil _ _⟩
  · intro u hu
    cases hu
    cases h <;> exact ⟨rfl, by decide⟩

/-- The pieces of a count, with the clauses behind its `FROM`. -/
def countPieces (argument : Token) (source : Source) : AggregatePieces :=
  ⟨[.word "COUNT", .openParen, argument, .closeParen], source,
    ⟨0, "COUNT", [argument, .closeParen]⟩, 1⟩

/-- The pieces of a count are found if the clauses behind its `FROM` are read. -/
theorem aggregatePieces?_countHead (h : CountsRows argument t) {source : Source}
    (hsource : Source.read read c (.quotedName table :: Keyword.WHERE.token :: ts) = .ok source) :
    aggregatePieces? read c (countHead t table ++ ts) = some (countPieces t source) := by
  have hcursor : c.skipAll [.word "COUNT", .openParen, t, .closeParen] = c := by
    cases h <;> rfl
  have hcall : firstCall? [.word "COUNT", .openParen, t, .closeParen] =
      some ⟨0, "COUNT", [t, .closeParen]⟩ := by
    rw [firstCall?_cons, if_pos ⟨rfl, by decide⟩]
    rfl
  have hlength : closing? 0 [t, .closeParen] = some 1 := by
    cases h <;> rfl
  exact aggregatePieces?_eq_some (keyword_token .SELECT _) (takeSpan_countHead h _)
    (keyword_token .FROM _) (hcursor.symm ▸ hsource) hcall hlength

/-- A reading of all columns that is accepted has the clauses that are read behind its `FROM`. -/
theorem exists_read_of_select {q : Select Operand}
    (h : select read c (readingHead table ++ ts) = .ok q) :
    ∃ source, Source.read read c (.quotedName table :: Keyword.WHERE.token :: ts) = .ok source ∧
      q = ⟨source.table, .all, source.filters, source.order, source.limit, source.offset⟩ := by
  simp only [readingHead, List.cons_append, List.nil_append, select, keyword_token, bind_ok,
    columns] at h
  obtain ⟨source, hsource, h⟩ := exists_of_bind_eq_ok h
  cases h
  exact ⟨source, hsource, rfl⟩

/-- The conjuncts of a reading of all columns, from the clauses behind its `FROM`. -/
theorem exists_selects_readingHead {source : Source}
    (h : Source.read read c (.quotedName table :: Keyword.WHERE.token :: ts) = .ok source) :
    source.table = table ∧ ∃ spans, Selects [.star] table spans (readingHead table ++ ts) ∧
      (source.conditions.all Option.isSome = true ↔ ∀ span ∈ spans, ∃ f, Compares span f) := by
  obtain ⟨spans, hreads, -, hconditions⟩ := readsFrom_of_read h
  have htable : source.table = table := by
    cases hreads with
    | all ht => exact (Option.some.inj ht).symm
    | filtered ht => exact (Option.some.inj ht).symm
  have hcut : Cut (Token.isKeyword .FROM) 0 [.star]
      (Keyword.FROM.token :: .quotedName table :: Keyword.WHERE.token :: ts) := by
    refine ⟨(closed_singleton (by simp) (by simp) rfl).uncut, fun t ht => ?_⟩
    cases ht
    exact ⟨rfl, by decide⟩
  rw [htable] at hreads
  refine ⟨htable, spans, .mk (by decide) hcut (by decide) hreads, ?_⟩
  rw [hconditions, Cursor.all_isSome_conditions_iff]

end Grammar

/-! ### The recipe for a count -/

/-- Of the recipes that are always there, a count of rows takes the one that counts rows, and none
if a condition became no filter. -/
theorem Registry.find?_standard_count {shape : AggregateShape Value}
    (hfunction : shape.function = "COUNT") (hbare : shape.bare = true)
    (hargument : ["*", "1"].contains (Text.trimmed shape.argument) = true) :
    standard.find? shape = if shape.exact then some .rowCount else none := by
  have hspend : (Recipe.monthlySpend .subscriptions).applies shape = false := by
    simp [Recipe.applies, Recipe.monthlySpend, hfunction]
  have hcount : Recipe.rowCount.applies shape = true := by
    simp only [Recipe.applies, Recipe.rowCount, hfunction, hbare, hargument]
    rfl
  rw [find?, recipes_standard, List.find?_cons, hspend, List.find?_cons, hcount]

/-- The shape of a count of rows is taken by the recipe that counts rows. -/
theorem Scan.find?_standard_countPieces {s : Scan} (hs : Spelled s.lexemes)
    {argument table : String} {t : Token} {ts : List Token} (h : CountsRows argument t)
    (htokens : s.tokens = countHead t table ++ ts) (source : Grammar.Source)
    (f : Operand → Value) :
    Registry.standard.find? (((Grammar.countPieces t source).shape s.excerpt).map f) =
      if source.conditions.all Option.isSome then some .rowCount else none := by
  refine Registry.find?_standard_count rfl rfl ?_
  show ["*", "1"].contains (Text.trimmed (s.excerpt 3 1)) = true
  rw [contains_trimmed_excerpt hs, htokens]
  cases h <;> rfl

/-! ### Texts -/

section Texts

variable {b : Bindings} {argument table conditions : String} {t : Token} {q : Select Value}

/-- What is read from the text of a reading that is accepted. -/
theorem exists_read_of_readingText (htable : IsName table)
    (h : parse b (readingText table conditions) = .ok (.select q)) :
    ∃ s ts source, scanTrimmed (readingText table conditions) = .ok s ∧
      s.tokens = readingHead table ++ ts ∧
      (scan (Text.trimEnd (' ' :: conditions.toList))).toOption.map Scan.tokens = some ts ∧
      Grammar.Source.read b.count? (.start (.detect ts))
        (.quotedName table :: Keyword.WHERE.token :: ts) = .ok source ∧
      q = ⟨source.table, .all, source.filters.map (Filter.map b.value), source.order,
        source.limit, source.offset⟩ := by
  obtain ⟨s, prepared, hscan, hselect, rfl⟩ := exists_select_of_parse h
  have htokens := toOption_tokens_scanTrimmed_append (printed_readingHead htable)
    (List.cons_ne_nil _ _) conditions
  rw [← readingText_eq, hscan] at htokens
  obtain ⟨ts, hts, hs⟩ := Option.map_eq_some_iff.1 htokens.symm
  rw [← hs, detect_append_of_printed (printed_readingHead htable)] at hselect
  obtain ⟨source, hsource, rfl⟩ := Grammar.exists_read_of_select hselect
  exact ⟨s, ts, source, hscan, hs.symm, hts, hsource, rfl⟩

/-- The text of a count is an aggregate whose shape has the clauses that the reading has. -/
theorem exists_parse_countText (hargument : CountsRows argument t) (htable : IsName table)
    {ts : List Token}
    (hts : (scan (Text.trimEnd (' ' :: conditions.toList))).toOption.map Scan.tokens = some ts)
    {source : Grammar.Source}
    (hsource : Grammar.Source.read b.count? (.start (.detect ts))
      (.quotedName table :: Keyword.WHERE.token :: ts) = .ok source) :
    ∃ plan shape, parse b (countText argument table conditions) = .ok (.aggregate plan) ∧
      plan.shape = some shape ∧
      Registry.standard.find? shape =
        (if source.conditions.all Option.isSome then some .rowCount else none) ∧
      Connection.sourceOf shape .rowCount =
        ⟨source.table, .all, source.filters.map (Filter.map b.value), [], none, none⟩ ∧
      shape.resultName = none := by
  have htokens := toOption_tokens_scanTrimmed_countText hargument htable conditions
  rw [hts] at htokens
  obtain ⟨s, hscan, hs⟩ := Option.map_eq_some_iff.1 htokens
  have hscan := eq_ok_of_mem_toOption hscan
  have hkind : kindOfTokens s.tokens = .aggregate := by
    rw [hs]
    exact kindOfTokens_countHead t table ts
  have hpieces : Grammar.aggregatePieces? b.count? (.start (.detect s.tokens)) s.tokens =
      some (Grammar.countPieces t source) := by
    rw [hs, detect_countHead hargument]
    exact Grammar.aggregatePieces?_countHead hargument hsource
  have hparse := parse_of_scan hscan b
  rw [Scan.prepareTokens_aggregate hkind, hpieces] at hparse
  exact ⟨_, _, hparse, rfl,
    Scan.find?_standard_countPieces (of_scanFrom hscan).1 hargument hs source b.value, rfl, rfl⟩

/-- If a reading without sort keys, limit and offset is accepted, so is the count. The recipe that
counts rows asks for the rows that the reading asks for, and it is taken exactly if every conjunct
is a comparison. -/
theorem exists_count_of_reading (hargument : argument ∈ ["*", "1"]) (htable : IsName table)
    (h : parse b (readingText table conditions) = .ok (.select q)) (horder : q.order = [])
    (hlimit : q.limit = none) (hoffset : q.offset = none) :
    ∃ scan spans plan shape, scanTrimmed (readingText table conditions) = .ok scan ∧
      Selects [.star] table spans scan.tokens ∧
      parse b (countText argument table conditions) = .ok (.aggregate plan) ∧
      plan.shape = some shape ∧ shape.resultName = none ∧ q.table = table ∧
      Connection.sourceOf shape .rowCount = q ∧
      ((∀ span ∈ spans, ∃ f, Compares span f) →
        Registry.standard.find? shape = some .rowCount) ∧
      ((∃ span ∈ spans, ∀ f, ¬Compares span f) → Registry.standard.find? shape = none) := by
  obtain ⟨scan, ts, source, hscan, htokens, hts, hsource, rfl⟩ :=
    exists_read_of_readingText htable h
  obtain ⟨t, ht⟩ := exists_countsRows hargument
  obtain ⟨plan, shape, hcount, hshape, hfind, hrows, hname⟩ :=
    exists_parse_countText ht htable hts hsource
  obtain ⟨hsourceTable, spans, hselects, hexact⟩ := Grammar.exists_selects_readingHead hsource
  dsimp only at horder hlimit hoffset
  refine ⟨scan, spans, plan, shape, hscan, htokens ▸ hselects, hcount, hshape, hname, hsourceTable,
    ?_, fun hall => ?_, fun ⟨span, hspan, hnot⟩ => ?_⟩
  · rw [hrows, horder, hlimit, hoffset]
  · rw [hfind, if_pos (hexact.2 hall)]
  · refine hfind.trans (if_neg fun hall => ?_)
    obtain ⟨f, hf⟩ := hexact.1 hall span hspan
    exact hnot f hf

end Texts

/-! ### Stores -/

namespace Store

variable {s : Store} {c : Connection} {b : Bindings} {sql : String} {plan : AggregatePlan Value}
  {shape : AggregateShape Value} {recipe : Recipe}

/-- A reading of a table that the store has gives its rows. -/
theorem runOn_attempt_select_of_some (c : Connection) {q : Select Value} {t : Table}
    (h : parse b sql = .ok (.select q)) (ht : s.table? q.table = some t) (entry : Entry) :
    (c.attempt b sql entry).runOn service s = (.ok (entry.ofRows (t.select q)), s) := by
  rw [Connection.attempt_of_parse c entry h, runOn_respond_select_of_some c b sql entry ht]

/-- A reading of a table that the store does not have fails. -/
theorem runOn_attempt_select_of_none (c : Connection) {q : Select Value}
    (h : parse b sql = .ok (.select q)) (ht : s.table? q.table = none) (entry : Entry) :
    (c.attempt b sql entry).runOn service s = (.error (.service (missingTable q.table)), s) := by
  rw [Connection.attempt_of_parse c entry h, runOn_respond_select_of_none c b sql entry ht]

/-- A store runs no text, so an aggregate is what follows a refusal. -/
theorem runOn_attempt_aggregate (s : Store) (c : Connection)
    (h : parse b sql = .ok (.aggregate plan)) (entry : Entry) :
    (c.attempt b sql entry).runOn service s =
      ((c.fallback plan sql b.params).runOn service s).map (Except.map entry.ofRows) id :=
  (Connection.attempt_of_refused service c h entry rfl).2

/-- Without a recipe an aggregate over a store is unsupported. -/
theorem runOn_attempt_of_recipe?_eq_none (s : Store) (h : parse b sql = .ok (.aggregate plan))
    (hrecipe : c.recipe? plan = none) (entry : Entry) :
    (c.attempt b sql entry).runOn service s =
      (.error (.unsupportedAggregate sql b.params), s) := by
  rw [runOn_attempt_aggregate s c h, Connection.fallback, hrecipe]
  rfl

/-- With a recipe it is folded from the rows of its table. -/
theorem runOn_attempt_of_recipe? (s : Store) (h : parse b sql = .ok (.aggregate plan))
    (hrecipe : c.recipe? plan = some (shape, recipe)) (entry : Entry) :
    (c.attempt b sql entry).runOn service s =
      match s.table? shape.table with
      | some t =>
        (.ok (entry.ofRows [.single (shape.resultName.getD recipe.defaultAlias)
          (recipe.fold (t.select (Connection.sourceOf shape recipe)))]), s)
      | none => (.error (.service (missingTable shape.table)), s) := by
  have hservice : service (.select ⟨Connection.sourceOf shape recipe, false⟩) s =
      (s.select ⟨Connection.sourceOf shape recipe, false⟩, s) := rfl
  rw [runOn_attempt_aggregate s c h, Connection.fallback, hrecipe]
  dsimp only
  rw [Connection.runOn_recompute, hservice]
  cases ht : s.table? shape.table with
  | none =>
    have hselect : s.select ⟨Connection.sourceOf shape recipe, false⟩ =
        .error (missingTable shape.table) := by simp [select, Connection.sourceOf, ht]
    rw [hselect]
    rfl
  | some t =>
    have hselect : s.select ⟨Connection.sourceOf shape recipe, false⟩ =
        .ok (t.select (Connection.sourceOf shape recipe)) := by
      simp [select, Connection.sourceOf, ht]
    rw [hselect]
    rfl

end Store

namespace Connection

/-- If a reading without sort keys, limit and offset is accepted, then the count of rows with the
same table and the same text behind `WHERE` gives the number of the rows that the reading shows, or
both fail because the store does not have the table. This is so if every conjunct is a comparison;
if one is not, the count is refused. -/
theorem count_agrees_with_reading {c : Connection} (hc : c.recipes = .standard)
    {argument table conditions : String} (hargument : argument ∈ ["*", "1"])
    (htable : IsName table) {b : Bindings} {q : Select Value}
    (h : parse b (readingText table conditions) = .ok (.select q)) (horder : q.order = [])
    (hlimit : q.limit = none) (hoffset : q.offset = none) {s : Store}
    (hsmall : (s.rows table).length < 2 ^ 53) :
    let reading := (c.attempt b (readingText table conditions) .all).runOn Store.service s
    let count := fun entry =>
      (c.attempt b (countText argument table conditions) entry).runOn Store.service s
    ∃ scan spans, scanTrimmed (readingText table conditions) = .ok scan ∧
      Selects [.star] table spans scan.tokens ∧
      ((∀ span ∈ spans, ∃ f, Compares span f) →
        (∃ rows : List Row, reading = (.ok rows, s) ∧
          ∀ entry : Entry,
            count entry = (.ok (entry.ofRows [.single "count" (.int rows.length)]), s)) ∨
        (s.table? table = none ∧ reading = (.error (.service (Store.missingTable table)), s) ∧
          ∀ entry : Entry, count entry = (.error (.service (Store.missingTable table)), s))) ∧
      ((∃ span ∈ spans, ∀ f, ¬Compares span f) → ∀ entry : Entry, count entry =
        (.error (.unsupportedAggregate (countText argument table conditions) b.params), s)) := by
  intro reading count
  obtain ⟨scan, spans, plan, shape, hscan, hselects, hcount, hshape, hname, hqtable, hquery, hfound,
    hnone⟩ := exists_count_of_reading hargument htable h horder hlimit hoffset
  refine ⟨scan, spans, hscan, hselects, fun hall => ?_, fun hsome entry => ?_⟩
  · have hrecipe : c.recipe? plan = some (shape, .rowCount) := by
      simp [recipe?, hshape, hc, hfound hall]
    -- The rows that are counted are those of the reading, by `hquery`.
    have hrun (entry : Entry) := Store.runOn_attempt_of_recipe? s hcount hrecipe entry
    have hshapeTable : shape.table = table := (congrArg Select.table hquery).trans hqtable
    simp only [hshapeTable, hname, hquery] at hrun
    cases ht : s.table? table with
    | none =>
      right
      simp only [ht] at hrun
      exact ⟨rfl, hqtable ▸ Store.runOn_attempt_select_of_none c h (hqtable ▸ ht) .all, hrun⟩
    | some t =>
      left
      have hrows : s.rows table = t.rows := by simp [Store.rows, ht]
      have hfold : Recipe.rowCount.fold (t.select q) = .int (t.select q).length :=
        Recipe.fold_rowCount ((t.length_select_le q).trans_lt (hrows ▸ hsmall))
      simp only [ht, hfold] at hrun
      exact ⟨t.select q, Store.runOn_attempt_select_of_some c h (hqtable ▸ ht) .all, hrun⟩
  · have hrecipe : c.recipe? plan = none := by
      simp [recipe?, hshape, hc, hnone hsome]
    exact Store.runOn_attempt_of_recipe?_eq_none s hcount hrecipe entry

/-- Two of the three rows have the value, and the count gives two. -/
theorem count_agrees_with_reading_rows :
    let b : Bindings := ⟨[.text "x"], ""⟩
    let conditions := "a = ? -- mine"
    let s := (Store.empty "id").withTable "my table"
      [.ofList [("a", .text "x")], .ofList [("a", .text "y")], .ofList [("a", .text "x")]]
    ∃ rows : List Row, rows.length = 2 ∧
      (standard.attempt b (readingText "my table" conditions) .all).runOn Store.service s =
        (.ok rows, s) ∧
      (standard.attempt b (countText "*" "my table" conditions) .get).runOn Store.service s =
        (.ok (some (.single "count" (.int 2))), s) := by
  intro b conditions s
  have hparse : ∃ statement ∈ (parse b (removalText "my table" conditions)).toOption,
      statement.kind = .delete ∧ ∃ t ∈ s.table? "my table",
        (t.rows.filter (passes statement.filters)).length = 2 := by decide +kernel
  have hcounted : ((standard.attempt b (countText "*" "my table" conditions) .get).runOn
      Store.service s).1.toOption.isSome = true := by decide +kernel
  obtain ⟨statement, hstatement, hkind, t, ht, hlength⟩ := hparse
  cases statement <;> cases hkind
  case delete name filters =>
    have hstar : "*" ∈ ["*", "1"] := by decide
    have hsmall : (s.rows "my table").length < 2 ^ 53 := by decide
    obtain ⟨-, hreading⟩ := parse_readingText (by decide) (eq_ok_of_mem_toOption hstatement)
    obtain ⟨scan, spans, -, -, hexact, hdropped⟩ := count_agrees_with_reading (c := standard) rfl
      hstar (by decide) hreading rfl rfl rfl hsmall
    by_cases hall : ∀ span ∈ spans, ∃ f, Compares span f
    · obtain ⟨rows, hrows, hcount⟩ | ⟨hnone, -⟩ := hexact hall
      · have htwo : rows.length = 2 := by
          have hshown := Store.runOn_attempt_select_of_some standard hreading ht .all
          rw [Table.select_filters] at hshown
          cases hrows.symm.trans hshown
          exact hlength
        have hanswer := hcount .get
        rw [htwo] at hanswer
        exact ⟨rows, htwo, hrows, hanswer⟩
      · cases hnone
    · have hrefused := hdropped (by simpa using hall) .get
      dsimp only at hrefused
      rw [hrefused] at hcounted
      cases hcounted

end Connection

end TableSql
