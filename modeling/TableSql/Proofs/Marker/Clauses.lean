import TableSql.Proofs.Marker.Cursor

/-!
# What clauses take

The clauses of a statement with sequential markers are compared with the same clauses after the
markers were numbered in order. Values and assignments stand in front of all conditions and take the
parameters of their own markers. Conditions and counts of rows take a parameter further in front for
every marker before them that a condition tests for null.

## Main results

* `Grammar.values_unnumbered`, `Grammar.assignments_unnumbered` — values and assignments.
* `Grammar.countClause_unnumbered` — counts of rows.
* `Grammar.Source.read_unnumbered` — the clauses of a reading.
-/

namespace TableSql

/-! ### Values in front of all conditions -/

theorem Operand.slipped_nil (a : Operand) : a.slipped [] = a := by
  cases a <;> rfl

namespace Grammar

/-- What was read with a cursor, with another cursor and without the numbers of the markers that
follow. -/
def withCursor {α : Type} (c : Cursor) (r : (α × Cursor) × List Token) :
    (α × Cursor) × List Token :=
  ((r.1.1, c), r.2.map Token.unnumbered)

section Values

variable {c : Cursor} {k : Nat} {ts : List Token}

/-- A value takes the parameters of its own markers, and so does what follows it. -/
theorem operand_unnumbered {stop : Token → Bool} (hstop : NumberBlind stop)
    (ho : InOrder k (markers ts)) :
    ∃ k', (∀ a c' rest, operand stop c ts = .ok ((a, c'), rest) →
        c' = c ∧ InOrder k' (markers rest)) ∧
      operand stop ⟨.sequential, k⟩ (ts.map Token.unnumbered) =
        (operand stop c ts).map (withCursor ⟨.sequential, k'⟩) := by
  have hmarkers := markers_of_takeSpan stop 0 ts
  have htake := takeSpan_unnumbered hstop 0 ts
  rcases hspan : takeSpan stop 0 ts with ⟨span, rest⟩
  rw [hspan] at hmarkers htake
  rw [← hmarkers, inOrder_append] at ho
  have hlag : Lag [] k k (markers span).length := (behind_nil k).lag _
  have hvalue := Cursor.value_unnumbered (c := c) ho.1 hlag
  have hcursor := Cursor.value_of_inOrder (c := c) ho.1
  refine ⟨k + (markers span).length, ?_, ?_⟩
  · intro a c' rest' h
    by_cases hne : span = []
    · subst hne
      rw [operand_of_nil hspan] at h
      cases h
    · rw [operand_of_ne_nil hspan hne] at h
      rcases hv : c.value span with ⟨_ | a', c''⟩
      · rw [hv] at h
        cases h
      · rw [hv] at h hcursor
        cases h
        exact ⟨hcursor, ho.2⟩
  · by_cases hne : span = []
    · subst hne
      rw [operand_of_nil hspan, operand_of_nil htake, List.length_map]
      rfl
    · have hne' : span.map Token.unnumbered ≠ [] := by simpa using hne
      rw [operand_of_ne_nil hspan hne, operand_of_ne_nil htake hne', hvalue, List.length_map]
      rcases c.value span with ⟨_ | a, c'⟩
      · rfl
      · exact congrArg (fun a => Except.ok ((a, _), _)) (Operand.slipped_nil a)

theorem numberBlind_endsAssignment : NumberBlind endsAssignment := by
  intro t
  simp [endsAssignment, decide_unnumbered_eq (u := .comma) rfl]

/-- The values of an insertion take the parameters of their own markers. -/
theorem values_unnumbered (ho : InOrder k (markers ts)) :
    values ⟨.sequential, k⟩ (ts.map Token.unnumbered) = (values c ts).map unnumberedRest := by
  have hstop : NumberBlind (· = .comma) := numberBlind_eq rfl
  fun_induction values c ts generalizing k with
  | case1 c ts e h =>
    obtain ⟨k', -, hu⟩ := operand_unnumbered (c := c) hstop ho
    rw [h] at hu
    exact values_of_error hu
  | case2 c ts a c' rest h as rest' hrest ih =>
    obtain ⟨k', hk', hu⟩ := operand_unnumbered (c := c) hstop ho
    obtain ⟨rfl, ho'⟩ := hk' _ _ _ h
    rw [h] at hu
    rw [values_of_comma hu, ih ho', hrest]
    rfl
  | case3 c ts a c' rest h e hrest ih =>
    obtain ⟨k', hk', hu⟩ := operand_unnumbered (c := c) hstop ho
    obtain ⟨rfl, ho'⟩ := hk' _ _ _ h
    rw [h] at hu
    rw [values_of_comma hu, ih ho', hrest]
    rfl
  | case4 c ts a c' rest hne h =>
    obtain ⟨k', -, hu⟩ := operand_unnumbered (c := c) hstop ho
    rw [h] at hu
    refine values_of_head? hu ?_
    rw [ne_eq, head?_unnumbered_eq_iff rfl]
    exact head?_ne_of_forall hne

/-- An assignment takes the parameters of its own markers, and so does what follows it. -/
theorem assignment_unnumbered (ho : InOrder k (markers ts)) :
    ∃ k', (∀ x c' rest, assignment c ts = .ok ((x, c'), rest) →
        c' = c ∧ InOrder k' (markers rest)) ∧
      assignment ⟨.sequential, k⟩ (ts.map Token.unnumbered) =
        (assignment c ts).map (withCursor ⟨.sequential, k'⟩) := by
  have hname := name_unnumbered ts
  unfold assignment
  rw [hname]
  rcases hn : name ts with e | ⟨w, ts₁⟩
  · exact ⟨k, by simp, rfl⟩
  rw [← markers_of_name hn] at ho
  have hmark := mark_unnumbered (t := .equals) rfl .assign ts₁
  simp only [Except.map, unnumberedRest, hmark]
  rcases hm : mark .equals .assign ts₁ with e | ts₂
  · exact ⟨k, by simp, rfl⟩
  rw [← markers_of_mark rfl hm] at ho
  obtain ⟨k', hk', hu⟩ := operand_unnumbered (c := c) numberBlind_endsAssignment ho
  simp only [hu]
  rcases hv : operand endsAssignment c ts₂ with e | ⟨⟨a, c'⟩, ts₃⟩
  · exact ⟨k, by simp, rfl⟩
  refine ⟨k', ?_, rfl⟩
  intro x c'' rest h
  cases h
  exact hk' _ _ _ hv

/-- The assignments of a change take the parameters of their own markers, and so does what follows
them. -/
theorem assignments_unnumbered (ho : InOrder k (markers ts)) :
    ∃ k', (∀ xs c' rest, assignments c ts = .ok ((xs, c'), rest) →
        c' = c ∧ InOrder k' (markers rest)) ∧
      assignments ⟨.sequential, k⟩ (ts.map Token.unnumbered) =
        (assignments c ts).map (withCursor ⟨.sequential, k'⟩) := by
  fun_induction assignments c ts generalizing k with
  | case1 c ts e h =>
    obtain ⟨k', -, hu⟩ := assignment_unnumbered (c := c) ho
    rw [h] at hu
    exact ⟨k', by simp, assignments_of_error hu⟩
  | case2 c ts x c' rest h xs c'' rest' hrest ih =>
    obtain ⟨k', hk', hu⟩ := assignment_unnumbered (c := c) ho
    obtain ⟨rfl, ho'⟩ := hk' _ _ _ h
    obtain ⟨k'', hk'', hu'⟩ := ih ho'
    rw [h] at hu
    refine ⟨k'', ?_, ?_⟩
    · intro ys d rest'' heq
      cases heq
      exact hk'' _ _ _ hrest
    · rw [assignments_of_comma hu, hu', hrest]
      rfl
  | case3 c ts x c' rest h e hrest ih =>
    obtain ⟨k', hk', hu⟩ := assignment_unnumbered (c := c) ho
    obtain ⟨rfl, ho'⟩ := hk' _ _ _ h
    obtain ⟨k'', -, hu'⟩ := ih ho'
    rw [h] at hu
    refine ⟨k'', by simp, ?_⟩
    rw [assignments_of_comma hu, hu', hrest]
    rfl
  | case4 c ts x c' rest hne h =>
    obtain ⟨k', hk', hu⟩ := assignment_unnumbered (c := c) ho
    rw [h] at hu
    refine ⟨k', ?_, ?_⟩
    · intro ys d rest'' heq
      cases heq
      exact hk' _ _ _ h
    · refine assignments_of_head? hu ?_
      rw [ne_eq, head?_unnumbered_eq_iff rfl]
      exact head?_ne_of_forall hne

end Values

/-! ### Conditions and counts -/

section Clauses

variable {c : Cursor} {tested : List Nat} {u k : Nat} {ts : List Token} {read : CountReader}

/-- A count takes a parameter that is further in front by the markers that were tested. -/
theorem count_unnumbered (read : CountReader) (ho : InOrder k (markers ts))
    (hb : Behind tested u k) :
    ∃ u' k', (∀ n c' rest, count (fun a => read (a.slipped tested)) c ts = .ok ((n, c'), rest) →
        c' = c ∧ InOrder k' (markers rest) ∧ Behind tested u' k') ∧
      count read ⟨.sequential, u⟩ (ts.map Token.unnumbered) =
        (count (fun a => read (a.slipped tested)) c ts).map (withCursor ⟨.sequential, u'⟩) := by
  cases ts with
  | nil => exact ⟨u, k, by simp [count], rfl⟩
  | cons t ts =>
    cases t with
    | number s =>
      refine ⟨u, k, ?_, ?_⟩
      · intro n c' rest h
        simp only [count] at h
        split at h
        · cases h
          exact ⟨rfl, ho, hb⟩
        · cases h
      · simp only [List.map_cons, Token.unnumbered, count, List.length_cons, List.length_map]
        split <;> rfl
    | marker m =>
      obtain ⟨rfl, ho⟩ := ho
      have hslip : (Operand.parameter k).slipped tested = .parameter u := by
        have := hb.lag 1 k (Nat.le_refl k) (Nat.lt_succ_self k)
        show Operand.parameter (k - slips tested k) = .parameter u
        congr 1
        omega
      refine ⟨u + 1, k + 1, ?_, ?_⟩
      · intro n c' rest h
        simp only [count, Cursor.take] at h
        split at h
        · cases h
          refine ⟨rfl, ho, fun i hi => Nat.lt_succ_of_lt (hb.lt i hi), ?_⟩
          have := hb.used_add
          omega
        · cases h
      · simp only [List.map_cons, Token.unnumbered, count, Cursor.take, List.length_cons,
          List.length_map, hslip]
        split <;> rfl
    | _ => exact ⟨u, k, by simp [count], by simp [count, Token.unnumbered, Except.map]⟩

theorem countClause_unnumbered (kw : Keyword) (read : CountReader)
    (ho : InOrder k (markers ts)) (hb : Behind tested u k) :
    ∃ u' k', (∀ n c' rest,
        countClause kw (fun a => read (a.slipped tested)) c ts = .ok ((n, c'), rest) →
        c' = c ∧ InOrder k' (markers rest) ∧ Behind tested u' k') ∧
      countClause kw read ⟨.sequential, u⟩ (ts.map Token.unnumbered) =
        (countClause kw (fun a => read (a.slipped tested)) c ts).map
          (withCursor ⟨.sequential, u'⟩) := by
  simp only [countClause, startsWith_unnumbered]
  by_cases hkw : startsWith kw ts = true
  · rw [← markers_tail_of_startsWith hkw] at ho
    obtain ⟨u', k', hk', hu⟩ := count_unnumbered (c := c) read ho hb
    rw [List.map_tail] at hu
    simp only [if_pos hkw, hu]
    rcases hcount : count (fun a => read (a.slipped tested)) c ts.tail with e | ⟨⟨n, c'⟩, rest⟩
    · exact ⟨u, k, by simp, rfl⟩
    · refine ⟨u', k', ?_, rfl⟩
      intro n' d rest' h
      cases h
      exact hk' _ _ _ hcount
  · simp only [if_neg hkw]
    refine ⟨u, k, ?_, rfl⟩
    intro n c' rest h
    cases h
    exact ⟨rfl, ho, hb⟩

/-- The conditions of a reading, from the table's name on. -/
def sourceSpans (ts : List Token) : Except Fault (List (List Token)) := do
  let (_, ts) ← name ts
  let (spans, _) ← whereClause ts
  return spans

/-- The clauses of a reading with the operands of its filters moved. -/
def Source.slipped (tested : List Nat) (s : Source) : Source :=
  ⟨s.table, s.conditions.map (Option.map (Filter.map (Operand.slipped tested))), s.order, s.limit,
    s.offset⟩

/-- A reading from a table takes parameters further in front by the markers that its conditions test
for null. -/
theorem Source.read_unnumbered (ho : InOrder k (markers ts))
    (htested : ∀ spans, sourceSpans ts = .ok spans → tested = testedMarkers spans) :
    Source.read read ⟨.sequential, k⟩ (ts.map Token.unnumbered) =
      (Source.read (fun a => read (a.slipped tested)) c ts).map (Source.slipped tested) := by
  unfold Source.read
  rw [name_unnumbered]
  rcases hname : name ts with e | ⟨table, ts₁⟩
  · rfl
  rw [← markers_of_name hname] at ho
  rw [map_ok, bind_ok, bind_ok]
  dsimp only [unnumberedRest]
  rw [whereClause_unnumbered]
  rcases hwhere : whereClause ts₁ with e | ⟨spans, ts₂⟩
  · rfl
  have hspans : sourceSpans ts = .ok spans := by
    rw [sourceSpans, hname, bind_ok]
    dsimp only
    rw [hwhere]
    rfl
  obtain rfl := htested spans hspans
  rw [markers_of_whereClause hwhere, inOrder_append] at ho
  obtain ⟨u₁, hb, hconditions⟩ := Cursor.conditions_unnumbered ho.1 (behind_nil k) c
  rw [List.nil_append] at hb hconditions
  have hcursor := Cursor.conditions_of_inOrder (c := c) ho.1
  rcases hfilters : c.conditions spans with ⟨filters, c'⟩
  rw [hfilters] at hcursor hconditions
  obtain rfl : c' = c := hcursor
  rw [map_ok, bind_ok, bind_ok]
  dsimp only [unnumberedSpans]
  rw [hconditions, hfilters, orderClause_unnumbered]
  rcases horder : orderClause ts₂ with e | ⟨order, ts₃⟩
  · rfl
  have ho := ho.2
  rw [← markers_of_orderClause horder] at ho
  rw [map_ok, bind_ok, bind_ok]
  dsimp only [unnumberedRest]
  obtain ⟨u₂, k₂, hk₂, hlimit⟩ := countClause_unnumbered (c := c') .LIMIT read ho hb
  rw [hlimit]
  rcases hlimit' : countClause .LIMIT (fun a => read (a.slipped (testedMarkers spans))) c' ts₃
    with e | ⟨⟨limit, c₂⟩, ts₄⟩
  · rfl
  obtain ⟨rfl, ho, hb⟩ := hk₂ _ _ _ hlimit'
  rw [map_ok, bind_ok, bind_ok]
  dsimp only [withCursor]
  obtain ⟨u₃, k₃, hk₃, hoffset⟩ := countClause_unnumbered (c := c₂) .OFFSET read ho hb
  rw [hoffset]
  rcases hoffset' : countClause .OFFSET (fun a => read (a.slipped (testedMarkers spans))) c₂ ts₄
    with e | ⟨⟨offset, c₃⟩, ts₅⟩
  · rfl
  rw [map_ok, bind_ok, bind_ok]
  dsimp only [withCursor]
  rw [finish_unnumbered]
  cases finish ts₅ <;> rfl

end Clauses

end Grammar

end TableSql
