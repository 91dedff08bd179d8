import TableSql.Proofs.Inlining
import TableSql.Proofs.Statement.Reading

/-!
# Filters and literals take the same parameters

An aggregate is read twice. The reader of its shape cuts out its conditions and passes over the
markers in front of them. The text for a service of raw SQL is written in one pass over all lexemes.
Each of the two counts the markers that stand in turn by a cursor of its own, and a service that
computes the aggregate answers the question that a recipe answers only if both give a marker the
same parameter.

They do if every condition became a filter. In front of every condition both cursors have then
passed over the same markers, so the value of a filter is the one that is written in the place of
its marker.

## Main definitions

* `MarkerMode.Replaces` — the markers in whose places literals are written.
* `Scan.SameOutsideMarkers` — scans that differ in these places only.
* `conditionPlace` — where a condition stands among the tokens.

## Main results

* `inlinedLexemes_append` — the cursor of the text has passed over all markers in front.
* `Cursor.getElem?_conditions` — so has the cursor of the conditions, if they became filters.
* `filters_in_remoteSql` — the values of filters stand in the places of their markers.
-/

namespace TableSql

/-- A literal is written in the place of the token: it is a marker, but not a bare `?` among
numbered ones. -/
def MarkerMode.Replaces (mode : MarkerMode) (t : Token) : Prop :=
  ∃ m, t = .marker m ∧ ¬(mode = .numbered ∧ m = .next)

/-- The scans have the same gaps and the same lexemes, except for the texts of lexemes whose marker
is replaced in the first scan. -/
structure Scan.SameOutsideMarkers (s s' : Scan) : Prop where
  lexemes : List.Forall₂
    (fun l l' => l'.gap = l.gap ∧
      (¬(MarkerMode.detect s.tokens).Replaces l.token → l'.source = l.source)) s.lexemes s'.lexemes
  trailing : s'.trailing = s.trailing

/-- How many tokens stand in front of a condition: `SELECT`, the list, `FROM`, the table and
`WHERE`, and the conditions before it, each with an `AND` behind it. -/
def conditionPlace (list : List Token) (spans : List (List Token)) (i : Nat) : Nat :=
  list.length + 4 + ((spans.take i).flatten.length + i)

/-! ### The cursor of the text -/

namespace Cursor

theorem replacement?_of_marker {c : Cursor} {m : Marker} (h : ¬(c.mode = .numbered ∧ m = .next)) :
    c.replacement? (.marker m) = some (c.take m) :=
  if_neg h

/-- What is replaced is a marker, and takes its operand. -/
theorem of_replacement? {c : Cursor} {t : Token} {r : Operand × Cursor}
    (h : c.replacement? t = some r) : c.mode.Replaces t ∧ r.2.mode = c.mode := by
  cases t with
  | marker m =>
    by_cases hm : c.mode = .numbered ∧ m = .next
    · simp [replacement?, Token.marker?, hm] at h
    · rw [replacement?_of_marker hm] at h
      cases h
      exact ⟨⟨m, rfl, hm⟩, mode_take c m⟩
  | _ => cases h

/-- The cursor behind a token has passed over its marker, whether it is replaced or not. -/
theorem skipAll_singleton (c : Cursor) (t : Token) :
    c.skipAll [t] = ((c.replacement? t).map Prod.snd).getD c := by
  cases t with
  | marker m =>
    by_cases hm : c.mode = .numbered ∧ m = .next
    · simp only [replacement?, Token.marker?, if_pos hm]
      exact take_of_numbered hm.1 m
    · rw [replacement?_of_marker hm]
      rfl
  | _ => rfl

end Cursor

theorem inlinedLexemes_append (b : Bindings) (c : Cursor) (ls ls' : List Lexeme) :
    inlinedLexemes b c (ls ++ ls') =
      inlinedLexemes b c ls ++ inlinedLexemes b (c.skipAll (ls.map Lexeme.token)) ls' := by
  induction ls generalizing c with
  | nil => rfl
  | cons l ls ih =>
    have hcursor : c.skipAll ((l :: ls).map Lexeme.token) =
        (c.skipAll [l.token]).skipAll (ls.map Lexeme.token) :=
      c.skipAll_append [l.token] (ls.map Lexeme.token)
    rw [hcursor, Cursor.skipAll_singleton, List.cons_append, inlinedLexemes, inlinedLexemes]
    cases c.replacement? l.token with
    | none => simp [ih]
    | some r => simp [ih]

theorem length_inlinedLexemes (b : Bindings) (c : Cursor) (ls : List Lexeme) :
    (inlinedLexemes b c ls).length = ls.length := by
  have h := congrArg List.length (map_gap_inlinedLexemes b c ls)
  rwa [List.length_map, List.length_map] at h

/-- In the place of a marker stands the literal of its operand. -/
theorem map_source_inlinedLexemes {b : Bindings} {c : Cursor} {ls ls' : List Lexeme} {l : Lexeme}
    {r : Operand × Cursor}
    (h : (c.skipAll (ls.map Lexeme.token)).replacement? l.token = some r) :
    (inlinedLexemes b c (ls ++ l :: ls'))[ls.length]?.map Lexeme.source =
      some (b.value r.1).sqlLiteral.toList := by
  rw [inlinedLexemes_append, inlinedLexemes, h]
  simp [length_inlinedLexemes]

theorem map_source_placed (start : Nat) (ls : List Lexeme) :
    (placed start ls).map Lexeme.source = ls.map Lexeme.source := by
  induction ls generalizing start with
  | nil => rfl
  | cons l ls ih => simp [placed, ih]

/-- Only the texts of markers that are replaced differ. -/
theorem sameOutside_inlinedLexemes (b : Bindings) {mode : MarkerMode} {c : Cursor}
    (hc : c.mode = mode) (start : Nat) (ls : List Lexeme) :
    List.Forall₂
      (fun l l' => l'.gap = l.gap ∧ (¬mode.Replaces l.token → l'.source = l.source)) ls
      (placed start (inlinedLexemes b c ls)) := by
  induction ls generalizing c start with
  | nil => exact .nil
  | cons l ls ih =>
    rw [inlinedLexemes]
    cases hl : c.replacement? l.token with
    | none => exact .cons ⟨rfl, fun _ => rfl⟩ (ih hc _)
    | some r =>
      obtain ⟨hreplaces, hmode⟩ := Cursor.of_replacement? hl
      rw [hc] at hreplaces hmode
      exact .cons ⟨rfl, fun hkeep => absurd hreplaces hkeep⟩ (ih hmode _)

theorem Scan.sameOutsideMarkers_inlined (s : Scan) (b : Bindings) :
    s.SameOutsideMarkers (s.inlined b) :=
  ⟨sameOutside_inlinedLexemes b (c := .start (.detect s.tokens)) rfl 0 s.lexemes, rfl⟩

/-! ### The cursor of the conditions -/

theorem marker?_eq_none_of_name? {t : Token} {w : String} (h : t.name? = some w) :
    t.marker? = none := by
  cases t <;> first | rfl | cases h

namespace Cursor

variable {c : Cursor} {span : List Token}

/-- A value passes over all its markers. -/
theorem snd_value (c : Cursor) (span : List Token) : (c.value span).2 = c.skipAll span := by
  by_cases hlength : span.length = 1
  · obtain ⟨t, rfl⟩ := List.length_eq_one_iff.1 hlength
    cases t <;> rfl
  · rw [value_of_length hlength]
    split
    · rename_i hcall
      exact skipAll_of_markers_eq (markers_of_ofSpan? hcall) c
    · rfl

/-- A condition that becomes a filter passes over all its markers. -/
theorem snd_condition (h : (c.condition span).1.isSome = true) :
    (c.condition span).2 = c.skipAll span := by
  obtain ⟨f, hf⟩ := isSome_condition_iff.1 h
  cases hf with
  | @equals column name span a hcolumn hspan =>
    obtain ⟨t, ts, rfl⟩ := List.exists_cons_of_ne_nil hspan.ne_nil
    have hmarkers : markers (column :: .equals :: t :: ts) = markers (t :: ts) := by
      rw [markers_cons_of_none (marker?_eq_none_of_name? hcolumn), markers_cons_of_none rfl]
    rw [condition_of_equals, hcolumn]
    exact (snd_value c _).trans (skipAll_of_markers_eq hmarkers.symm c)
  | @null column is null name hcolumn his hnull =>
    have hmarkers : markers [column, is, null] = markers [] := by
      rw [markers_cons_of_none (marker?_eq_none_of_name? hcolumn),
        markers_cons_of_none (marker?_eq_none_of_isKeyword his),
        markers_cons_of_none (marker?_eq_none_of_isKeyword hnull)]
    rw [condition_of_test (by rintro rfl; cases his), if_pos ⟨his, hnull⟩]
    exact (skipAll_of_markers_eq hmarkers c).symm

/-- If all conditions became filters, the cursor in front of each has passed over all markers of
those before it. -/
theorem getElem?_conditions {spans : List (List Token)}
    (h : (c.conditions spans).1.all Option.isSome = true) {i : Nat}
    (hspan : spans[i]? = some span) :
    (c.conditions spans).1[i]? =
      some ((c.skipAll (spans.take i).flatten).condition span).1 := by
  induction spans generalizing c i with
  | nil => cases hspan
  | cons first spans ih =>
    rw [conditions, List.all_cons, Bool.and_eq_true] at h
    cases i with
    | zero =>
      cases hspan
      rfl
    | succ i =>
      show ((c.condition first).2.conditions spans).1[i]? = _
      rw [List.take_succ_cons, List.flatten_cons, skipAll_append, ← snd_condition h.1]
      exact ih h.2 hspan

end Cursor

/-! ### The places of conditions -/

/-- A conjunct behind others stands behind their tokens and an `AND` for each. -/
theorem Conjunction.exists_append {ts rest span : List Token} {spans : List (List Token)}
    (h : Conjunction ts spans rest) {i : Nat} (hspan : spans[i]? = some span) :
    ∃ before behind, ts = before ++ (span ++ behind) ∧
      before.length = (spans.take i).flatten.length + i ∧
      markers before = markers (spans.take i).flatten := by
  induction h generalizing i with
  | @last first rest =>
    cases i with
    | zero =>
      cases hspan
      exact ⟨[], rest, rfl, rfl, rfl⟩
    | succ i => cases hspan
  | @and first t ts spans rest _ _ hand _ ih =>
    cases i with
    | zero =>
      cases hspan
      exact ⟨[], t :: ts, rfl, rfl, rfl⟩
    | succ i =>
      obtain ⟨before, behind, rfl, hlength, hmarkers⟩ := ih hspan
      refine ⟨first ++ t :: before, behind, by simp, ?_, ?_⟩
      · simp only [List.take_succ_cons, List.flatten_cons, List.length_append, List.length_cons,
          hlength]
        omega
      · rw [List.take_succ_cons, List.flatten_cons, markers_append, markers_append,
          markers_cons_of_none (marker?_eq_none_of_isKeyword hand), hmarkers]

/-- A condition of a statement stands at its place, behind the markers of the list and of the
conditions before it. -/
theorem Selects.exists_append {list span : List Token} {table : String}
    {spans : List (List Token)} {ts : List Token} (h : Selects list table spans ts) {i : Nat}
    (hspan : spans[i]? = some span) :
    ∃ before behind, ts = before ++ (span ++ behind) ∧
      before.length = conditionPlace list spans i ∧
      markers before = markers (list ++ (spans.take i).flatten) := by
  obtain @⟨select, from', source, hselect, -, hfrom, hsource⟩ := h
  cases hsource with
  | all => cases hspan
  | @filtered t w clause ending _ ht hw hspans _ =>
    obtain ⟨before, behind, rfl, hlength, hmarkers⟩ := hspans.exists_append hspan
    refine ⟨select :: (list ++ from' :: t :: w :: before), behind, by simp, ?_, ?_⟩
    · simp only [List.length_cons, List.length_append, hlength, conditionPlace]
      omega
    · rw [markers_cons_of_none (marker?_eq_none_of_isKeyword hselect), markers_append,
        markers_cons_of_none (marker?_eq_none_of_isKeyword hfrom),
        markers_cons_of_none (Grammar.marker?_eq_none_of_freeName? ht),
        markers_cons_of_none (marker?_eq_none_of_isKeyword hw), markers_append, hmarkers]

/-- The literal in the place of a marker is that of the operand which the marker has there. -/
theorem Scan.map_source_inlined {s : Scan} {before behind : List Token} {m : Marker}
    (h : s.tokens = before ++ .marker m :: behind) (b : Bindings)
    (hm : (MarkerMode.detect s.tokens).Replaces (.marker m)) :
    (s.inlined b).lexemes[before.length]?.map Lexeme.source =
      some (b.value
        (((Cursor.start (.detect s.tokens)).skipAll before).take m).1).sqlLiteral.toList := by
  obtain ⟨ls, ls', hlexemes, rfl, htail⟩ := List.map_eq_append_iff.1 h
  obtain ⟨l, ls', rfl, hl, -⟩ := List.map_eq_cons_iff.1 htail
  obtain ⟨m', heq, hm⟩ := hm
  cases heq
  have hreplaced : ((Cursor.start (.detect s.tokens)).skipAll
        (ls.map Lexeme.token)).replacement? l.token =
      some (((Cursor.start (.detect s.tokens)).skipAll (ls.map Lexeme.token)).take m) := by
    rw [hl]
    refine Cursor.replacement?_of_marker ?_
    rwa [Cursor.mode_skipAll]
  rw [inlined, ← List.getElem?_map, map_source_placed, List.getElem?_map, List.length_map, hlexemes]
  exact map_source_inlinedLexemes hreplaced

/-! ### Filters and literals -/

theorem map_some_filterMap_id {α : Type} {xs : List (Option α)}
    (h : xs.all Option.isSome = true) : (xs.filterMap id).map some = xs := by
  induction xs with
  | nil => rfl
  | cons x xs ih =>
    obtain ⟨hx, hxs⟩ := Bool.and_eq_true_iff.1 h
    obtain ⟨a, rfl⟩ := Option.isSome_iff_exists.1 hx
    exact congrArg (some a :: ·) (ih hxs)

/-- A comparison has no marker, or it compares a column with a marker, whose operand is then that
of its filter. -/
theorem markers_of_condition {c : Cursor} {span : List Token} {f : Filter Operand}
    (h : (c.condition span).1 = some f) :
    markers span = [] ∨
      ∃ column m, span = [column, .equals, .marker m] ∧ f.value = (c.take m).1 ∧
        column.marker? = none := by
  obtain ⟨g, hg⟩ := Cursor.isSome_condition_iff.1 (Option.isSome_of_mem h)
  cases hg with
  | null hcolumn his hnull =>
    left
    rw [markers_cons_of_none (marker?_eq_none_of_name? hcolumn),
      markers_cons_of_none (marker?_eq_none_of_isKeyword his),
      markers_cons_of_none (marker?_eq_none_of_isKeyword hnull), markers_nil]
  | @equals column name span a hcolumn hspan =>
    have hnone := marker?_eq_none_of_name? hcolumn
    cases hspan with
    | @token t ht =>
      cases t with
      | marker m =>
        rw [Cursor.condition_of_equals, hcolumn] at h
        cases h
        exact .inr ⟨column, m, rfl, rfl, hnone⟩
      | _ => exact .inl (by rw [markers_cons_of_none hnone]; rfl)
    | _ => exact .inl (by rw [markers_cons_of_none hnone]; rfl)

/-- The text of a statement has the operand of a filter in the place of its marker. -/
theorem Scan.filters_in_inlined {s : Scan} {read : Grammar.CountReader}
    {p : Grammar.AggregatePieces}
    (hp : Grammar.aggregatePieces? read (.start (.detect s.tokens)) s.tokens = some p)
    (hexact : p.source.conditions.all Option.isSome = true) :
    ∃ spans, Selects p.list p.source.table spans s.tokens ∧
      p.source.filters.length = spans.length ∧
      ∀ (i : Nat) (f : Filter Operand) (span : List Token), p.source.filters[i]? = some f →
        spans[i]? = some span → markers span = [] ∨
          ∃ column m, span = [column, .equals, .marker m] ∧
            s.tokens[conditionPlace p.list spans i + 2]? = some (.marker m) ∧
            ((MarkerMode.detect s.tokens).Replaces (.marker m) → ∀ b : Bindings,
              (s.inlined b).lexemes[conditionPlace p.list spans i + 2]?.map Lexeme.source =
                some (b.value f.value).sqlLiteral.toList) := by
  obtain ⟨spans, hselects, -, hconditions, -, -⟩ := Grammar.selects_of_aggregatePieces? hp
  have hfilters : p.source.filters.map some = p.source.conditions := map_some_filterMap_id hexact
  refine ⟨spans, hselects, ?_, ?_⟩
  · have hlength := congrArg List.length hfilters
    rwa [List.length_map, hconditions, Cursor.length_conditions] at hlength
  intro i f span hf hspan
  have hcondition : p.source.conditions[i]? = some (some f) := by
    rw [← hfilters, List.getElem?_map, hf]
    rfl
  rw [hconditions] at hexact hcondition
  rw [Cursor.getElem?_conditions hexact hspan] at hcondition
  rcases markers_of_condition (Option.some.inj hcondition) with
    hnone | ⟨column, m, rfl, hvalue, hcolumn⟩
  · exact .inl hnone
  · obtain ⟨before, behind, htokens, hlength, hmarkers⟩ := hselects.exists_append hspan
    have hsplit : s.tokens = (before ++ [column, .equals]) ++ .marker m :: behind := by
      rw [htokens]
      simp
    have hplace : (before ++ [column, .equals]).length = conditionPlace p.list spans i + 2 := by
      rw [List.length_append, hlength]
      rfl
    -- The text passes over all tokens in front of the marker, the conditions over the list and the
    -- conjuncts only. What stands between these has no markers.
    have hcursor : (Cursor.start (.detect s.tokens)).skipAll (before ++ [column, .equals]) =
        ((Cursor.start (.detect s.tokens)).skipAll p.list).skipAll (spans.take i).flatten := by
      rw [← Cursor.skipAll_append]
      refine Cursor.skipAll_of_markers_eq ?_ _
      rw [markers_append, hmarkers, markers_cons_of_none hcolumn, markers_cons_of_none rfl,
        markers_nil, List.append_nil]
    refine .inr ⟨column, m, rfl, ?_, fun hreplaces b => ?_⟩
    · rw [hsplit, ← hplace]
      simp
    · rw [← hplace, Scan.map_source_inlined hsplit b hreplaces, hcursor, hvalue]

/-- The text of an aggregate for a service of raw SQL is its trimmed text, byte for byte, but for
literals in the places of markers. If every condition became a filter, a filter that takes its value
from a marker has the value whose literal stands in the place of this very marker. -/
theorem filters_in_remoteSql {b : Bindings} {sql : String} {plan : AggregatePlan Value}
    {shape : AggregateShape Value} (h : parse b sql = .ok (.aggregate plan))
    (hshape : plan.shape = some shape) (hexact : shape.exact = true) :
    ∃ scan list spans, scanTrimmed sql = .ok scan ∧ Text.trim sql.toList = scan.source ∧
      plan.remoteSql.toList = (scan.inlined b).source ∧
      scan.SameOutsideMarkers (scan.inlined b) ∧
      Selects list shape.table spans scan.tokens ∧ shape.filters.length = spans.length ∧
      ∀ (i : Nat) (f : Filter Value) (span : List Token), shape.filters[i]? = some f →
        spans[i]? = some span → markers span = [] ∨
          ∃ column m, span = [column, .equals, .marker m] ∧
            scan.tokens[conditionPlace list spans i + 2]? = some (.marker m) ∧
            ((MarkerMode.detect scan.tokens).Replaces (.marker m) →
              (scan.inlined b).lexemes[conditionPlace list spans i + 2]?.map Lexeme.source =
                some f.value.sqlLiteral.toList) := by
  obtain ⟨scan, prepared, hscan, hprepared, hmap⟩ := exists_of_parse_eq_ok h
  obtain ⟨plan, rfl⟩ : ∃ plan, prepared = .aggregate plan := by
    cases prepared <;> first | exact ⟨_, rfl⟩ | cases hmap
  cases hmap
  obtain ⟨hshape', htext⟩ := Scan.aggregate_of_prepareTokens hprepared
  obtain ⟨shape, hfound, rfl⟩ := Option.map_eq_some_iff.1 hshape
  rw [hshape'] at hfound
  obtain ⟨p, hp, rfl⟩ := Option.map_eq_some_iff.1 hfound
  obtain ⟨spans, hselects, hlength, hplaces⟩ := Scan.filters_in_inlined hp hexact
  refine ⟨scan, p.list, spans, hscan, (source_scanFrom hscan).symm, ?_,
    scan.sameOutsideMarkers_inlined b, hselects, (List.length_map _).trans hlength, ?_⟩
  · rw [← Scan.toList_inline, inline, AggregatePlan.remoteSql, ← htext]
    rfl
  · intro i f span hf hspan
    obtain ⟨g, hg, rfl⟩ := Option.map_eq_some_iff.1 ((List.getElem?_map ..).symm.trans hf)
    rcases hplaces i g span hg hspan with hnone | ⟨column, m, hspan, htoken, hliteral⟩
    · exact .inl hnone
    · exact .inr ⟨column, m, hspan, htoken, fun hreplaces => hliteral hreplaces b⟩

/-- A marker in the list and one behind the conditions do not move the parameter of the condition
between them. -/
theorem filters_in_remoteSql_between :
    ∃ plan shape,
      parse ⟨[.int 2, .text "x", .int 1], ""⟩ "SELECT SUM(? * a) FROM t WHERE b = ? LIMIT ?" =
          .ok (.aggregate plan) ∧
        plan.shape = some shape ∧ shape.exact = true ∧
        shape.filters.map Filter.display = ["b = \"x\""] ∧
        plan.remoteSql = "SELECT SUM(2 * a) FROM t WHERE b = 'x' LIMIT 1" ∧
        ∃ scan list spans,
          scanTrimmed "SELECT SUM(? * a) FROM t WHERE b = ? LIMIT ?" = .ok scan ∧
            plan.remoteSql.toList = (scan.inlined ⟨[.int 2, .text "x", .int 1], ""⟩).source ∧
            Selects list shape.table spans scan.tokens ∧ shape.filters.length = spans.length := by
  have hplan : ∃ plan ∈ (parse ⟨[.int 2, .text "x", .int 1], ""⟩
        "SELECT SUM(? * a) FROM t WHERE b = ? LIMIT ?").toOption.bind Statement.plan?,
      plan.remoteSql = "SELECT SUM(2 * a) FROM t WHERE b = 'x' LIMIT 1" ∧
        ∃ shape ∈ plan.shape, shape.exact = true ∧
          shape.filters.map Filter.display = ["b = \"x\""] := by decide +kernel
  obtain ⟨plan, hmem, hremote, shape, hshape, hexact, hfilters⟩ := hplan
  have hparse := parse_of_mem_plan? hmem
  obtain ⟨scan, list, spans, hscan, -, htext, -, hselects, hlength, -⟩ :=
    filters_in_remoteSql hparse hshape hexact
  exact ⟨plan, shape, hparse, hshape, hexact, hfilters, hremote, scan, list, spans, hscan, htext,
    hselects, hlength⟩

end TableSql
