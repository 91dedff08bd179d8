import TableSql.Proofs.Marker.Clauses

/-!
# Which parameters a statement takes

A statement with sequential markers is compared with itself after its markers were numbered in
order. The two are read alike, up to one exception: a condition that tests a marker for null takes
no parameter for it. So every filter and count of rows behind it takes a parameter further in front
than its marker stands, while the values of insertions and changes are not concerned.

## Main definitions

* `Scan.numbered`, `parseNumbered` — a statement with its markers numbered in order.
* `Scan.tested` — the markers that the conditions of a statement test for null.
* `Statement.mapFilters` — a statement with a function applied to what its filters compare with.

## Main results

* `Scan.prepareTokens_numbered` — what a statement takes in terms of the numbered one.
* `parse_of_sequential` — the same with parameters in place, and when they are the right ones.
-/

namespace TableSql

/-! ### Numbering a statement -/

/-- The lexemes with their markers numbered in order, behind so many others. Their texts stay as
they are written. -/
def numberedLexemes : Nat → List Lexeme → List Lexeme
  | _, [] => []
  | k, l :: ls =>
    match l.token with
    | .marker _ => ⟨l.gap, l.source, .marker (.numbered (k + 1)), l.start⟩ ::
        numberedLexemes (k + 1) ls
    | _ => l :: numberedLexemes k ls

/-- The scan with its markers numbered in order. -/
def Scan.numbered (s : Scan) : Scan :=
  ⟨numberedLexemes 0 s.lexemes, s.trailing⟩

/-- The statement of a text whose markers are numbered in order first. -/
def parseNumbered (b : Bindings) (sql : String) : Except SyntaxError (Statement Value) := do
  let s ← scanTrimmed sql
  let statement ← s.numbered.prepare b.count?
  return statement.map b.value

theorem map_token_numberedLexemes (k : Nat) (ls : List Lexeme) :
    (numberedLexemes k ls).map Lexeme.token = numberFrom k (ls.map Lexeme.token) := by
  induction ls generalizing k with
  | nil => rfl
  | cons l ls ih =>
    rcases l with ⟨gap, source, t, start⟩
    cases t <;> simp [numberedLexemes, numberFrom, ih]

theorem Scan.tokens_numbered (s : Scan) : s.numbered.tokens = numberFrom 0 s.tokens :=
  map_token_numberedLexemes 0 s.lexemes

/-- Numbering changes no text and no place. -/
theorem map_numberedLexemes {α : Type} {f : Lexeme → α}
    (hf : ∀ gap source t t' start, f ⟨gap, source, t, start⟩ = f ⟨gap, source, t', start⟩)
    (k : Nat) (ls : List Lexeme) : (numberedLexemes k ls).map f = ls.map f := by
  induction ls generalizing k with
  | nil => rfl
  | cons l ls ih =>
    rcases l with ⟨gap, source, t, start⟩
    cases t <;> simp [numberedLexemes, ih, hf gap source _ (.marker (.numbered (k + 1))) start]

theorem sourceText_eq_of_map_eq {ls ls' : List Lexeme}
    (h : ls.map (fun l => (l.gap, l.source)) = ls'.map fun l => (l.gap, l.source)) :
    sourceText ls = sourceText ls' := by
  have hflat (ls : List Lexeme) : ls.flatMap (fun l => l.gap ++ l.source) =
      (ls.map fun l => (l.gap, l.source)).flatMap fun l => l.1 ++ l.2 := by
    rw [List.flatMap_map]
  cases ls with
  | nil =>
    rw [List.map_nil, eq_comm, List.map_eq_nil_iff] at h
    rw [h]
  | cons l ls =>
    cases ls' with
    | nil => cases h
    | cons l' ls' =>
      rw [List.map_cons, List.map_cons, List.cons.injEq, Prod.mk.injEq] at h
      rw [sourceText, sourceText, hflat, hflat, h.1.2, h.2]

theorem Scan.excerpt_numbered (s : Scan) : s.numbered.excerpt = s.excerpt := by
  funext index count
  refine congrArg String.ofList (sourceText_eq_of_map_eq ?_)
  rw [List.map_take, List.map_drop, List.map_take, List.map_drop, numbered,
    map_numberedLexemes (fun _ _ _ _ _ => rfl)]

theorem Scan.position_numbered (s : Scan) (index : Nat) :
    s.numbered.position index = s.position index := by
  have hstart : (s.numbered.lexemes[index]?).map Lexeme.start =
      (s.lexemes[index]?).map Lexeme.start := by
    rw [← List.getElem?_map, ← List.getElem?_map, numbered,
      map_numberedLexemes (fun _ _ _ _ _ => rfl)]
  have hsource : s.numbered.source = s.source := by
    rw [source, source, List.flatMap_def, List.flatMap_def, numbered,
      map_numberedLexemes (fun _ _ _ _ _ => rfl)]
  rw [position, position, hsource]
  cases h : s.numbered.lexemes[index]? <;> cases h' : s.lexemes[index]? <;> simp_all

/-- A fault is found at the same place of the numbered statement. -/
theorem Fault.locate_numbered (s : Scan) : Fault.locate s.numbered = Fault.locate s := by
  have hlength : s.numbered.lexemes.length = s.lexemes.length := by
    have h := congrArg List.length
      (map_numberedLexemes (f := Lexeme.start) (fun _ _ _ _ _ => rfl) 0 s.lexemes)
    rwa [List.length_map, List.length_map] at h
  funext fault
  cases fault <;>
    simp only [locate, Scan.position_numbered, Scan.excerpt_numbered, hlength]

/-- The text of an aggregate has the operands of its markers in their order. -/
theorem lexemeFragments_numbered {ls : List Lexeme}
    (h : ∀ t ∈ ls.map Lexeme.token, MarkerMode.isNumbered t = false) (k : Nat) (c : Cursor) :
    lexemeFragments c (numberedLexemes k ls) = lexemeFragments ⟨.sequential, k⟩ ls := by
  induction ls generalizing k with
  | nil => rfl
  | cons l ls ih =>
    obtain ⟨hl, hls⟩ := List.forall_mem_cons.1 h
    rcases l with ⟨gap, source, t, start⟩
    cases t with
    | marker m =>
      cases m with
      | next =>
        have hne : ¬(c.mode = .numbered ∧ Marker.numbered (k + 1) = .next) := by simp
        have hnext : lexemeFragments ⟨.sequential, k⟩ (⟨gap, source, .marker .next, start⟩ :: ls) =
            .verbatim gap :: .operand (.parameter k) ::
              lexemeFragments ⟨.sequential, k + 1⟩ ls := rfl
        rw [hnext]
        simp only [numberedLexemes, lexemeFragments, Token.marker?, if_neg hne, Cursor.take, ih hls]
      | numbered n => cases hl
    | _ => simp only [numberedLexemes, lexemeFragments, Token.marker?, ih hls]

/-! ### Conditions and what they test -/

namespace Grammar

/-- The conditions of a reading of rows. -/
def selectSpans (ts : List Token) : Except Fault (List (List Token)) := do
  let ts ← keyword .SELECT ts
  let (_, ts) ← columns ts
  let ts ← keyword .FROM ts
  sourceSpans ts

/-- The conditions of an aggregate. -/
def aggregateSpans (ts : List Token) : Except Fault (List (List Token)) := do
  let ts ← keyword .SELECT ts
  let (_, ts) := takeSpan (Token.isKeyword .FROM) 0 ts
  let ts ← keyword .FROM ts
  sourceSpans ts

/-- The conditions of a write, from `WHERE` on. -/
def writeSpans (ts : List Token) : Except Fault (List (List Token)) := do
  let ts ← keyword .WHERE ts
  let (spans, _) ← conjuncts ts
  return spans

/-- The conditions of a change. -/
def updateSpans (c : Cursor) (ts : List Token) : Except Fault (List (List Token)) := do
  let ts ← keyword .UPDATE ts
  let (_, ts) ← name ts
  let ts ← keyword .SET ts
  let (_, ts) ← assignments c ts
  writeSpans ts

/-- The conditions of a removal. -/
def deleteSpans (ts : List Token) : Except Fault (List (List Token)) := do
  let ts ← keyword .DELETE ts
  let ts ← keyword .FROM ts
  let (_, ts) ← name ts
  writeSpans ts

/-- The conditions of a statement, as far as they can be read. -/
def conditionSpans (c : Cursor) (ts : List Token) : Except Fault (List (List Token)) :=
  match kindOfTokens ts with
  | .select => selectSpans ts
  | .aggregate => aggregateSpans ts
  | .update => updateSpans c ts
  | .delete => deleteSpans ts
  | _ => .ok []

end Grammar

/-- The markers that the conditions of a statement test for null, as indices among its markers. -/
def Scan.tested (s : Scan) : List Nat :=
  let ts := s.numbered.tokens
  testedMarkers ((Grammar.conditionSpans (.start (.detect ts)) ts).toOption.getD [])

/-! ### Statements -/

/-- The statement with a function applied to what its filters compare with. The text of an aggregate
stays as it is. -/
def Statement.mapFilters {α : Type} (f : α → α) : Statement α → Statement α
  | select q => select (q.map f)
  | insert table values => insert table values
  | update table values filters => update table values (filters.map (Filter.map f))
  | delete table filters => delete table (filters.map (Filter.map f))
  | aggregate plan => aggregate ⟨plan.shape.map (AggregateShape.map f), plan.text⟩
  | schema keyword => schema keyword

namespace Grammar

section Statements

variable {c : Cursor} {tested : List Nat} {ts : List Token} {read : CountReader}

theorem filters_slipped (s : Source) (tested : List Nat) :
    (s.slipped tested).filters = s.filters.map (Filter.map (Operand.slipped tested)) :=
  filterMap_id_map _ s.conditions

theorem select_unnumbered (ho : InOrder 0 (markers ts))
    (htested : ∀ spans, selectSpans ts = .ok spans → tested = testedMarkers spans) :
    select read ⟨.sequential, 0⟩ (ts.map Token.unnumbered) =
      (select (fun a => read (a.slipped tested)) c ts).map
        (Select.map (Operand.slipped tested)) := by
  unfold select
  rw [keyword_unnumbered]
  rcases h₁ : keyword .SELECT ts with e | ts₁
  · rfl
  rw [map_ok, bind_ok, bind_ok, columns_unnumbered]
  rcases h₂ : columns ts₁ with e | ⟨columns, ts₂⟩
  · rfl
  rw [map_ok, bind_ok, bind_ok]
  dsimp only [unnumberedRest]
  rw [keyword_unnumbered]
  rcases h₃ : keyword .FROM ts₂ with e | ts₃
  · rfl
  rw [← markers_of_keyword h₁, ← markers_of_columns h₂, ← markers_of_keyword h₃] at ho
  have hspans : sourceSpans ts₃ = selectSpans ts := by
    rw [selectSpans, h₁, bind_ok, h₂, bind_ok]
    dsimp only
    rw [h₃, bind_ok]
  rw [map_ok, bind_ok, bind_ok,
    Source.read_unnumbered (c := c) ho fun spans h => htested spans (hspans ▸ h)]
  rcases Source.read (fun a => read (a.slipped tested)) c ts₃ with e | s
  · rfl
  rw [map_ok, bind_ok, bind_ok, filters_slipped]
  rfl

/-- An aggregate passes over the markers of its select list. -/
theorem aggregateShape?_unnumbered (excerpt : Nat → Nat → String) (ho : InOrder 0 (markers ts))
    (htested : ∀ spans, aggregateSpans ts = .ok spans → tested = testedMarkers spans) :
    aggregateShape? excerpt read ⟨.sequential, 0⟩ (ts.map Token.unnumbered) =
      (aggregateShape? excerpt (fun a => read (a.slipped tested)) c ts).map
        (AggregateShape.map (Operand.slipped tested)) := by
  unfold aggregateShape?
  rw [keyword_unnumbered]
  rcases h₁ : keyword .SELECT ts with e | ts₁
  · rfl
  rw [map_ok]
  show Option.bind (some _) _ = Option.map _ (Option.bind (some _) _)
  rw [Option.bind_some, Option.bind_some, takeSpan_unnumbered (numberBlind_isKeyword .FROM)]
  have hmarkers := markers_of_takeSpan (Token.isKeyword .FROM) 0 ts₁
  rcases h₂ : takeSpan (Token.isKeyword .FROM) 0 ts₁ with ⟨list, ts₂⟩
  rw [h₂] at hmarkers
  rw [← markers_of_keyword h₁, ← hmarkers, inOrder_append] at ho
  dsimp only [unnumberedPair]
  rw [keyword_unnumbered]
  rcases h₃ : keyword .FROM ts₂ with e | ts₃
  · rfl
  obtain ⟨hlist, ho⟩ := ho
  rw [← markers_of_keyword h₃, Nat.zero_add] at ho
  have hspans : sourceSpans ts₃ = aggregateSpans ts := by
    rw [aggregateSpans, h₁, bind_ok]
    dsimp only
    rw [h₂, h₃, bind_ok]
  rw [map_ok]
  show Option.bind (some _) _ = Option.map _ (Option.bind (some _) _)
  rw [Option.bind_some, Option.bind_some, Cursor.skipAll_unnumbered, Nat.zero_add,
    Cursor.skipAll_of_inOrder hlist,
    Source.read_unnumbered (c := c) ho fun spans h => htested spans (hspans ▸ h)]
  rcases Source.read (fun a => read (a.slipped tested)) c ts₃ with e | s
  · rfl
  rw [map_ok]
  show Option.bind (some _) _ = Option.map _ (Option.bind (some _) _)
  rw [Option.bind_some, Option.bind_some, firstCall?_unnumbered]
  rcases firstCall? list with _ | call
  · rfl
  rw [Option.map_some]
  show Option.bind (some _) _ = Option.map _ (Option.bind (some _) _)
  rw [Option.bind_some, Option.bind_some]
  dsimp only [AggregateCall.unnumbered]
  rw [closing?_unnumbered]
  rcases closing? 0 call.behind with _ | length
  · rfl
  have hwords : (list.map Token.unnumbered).filterMap Token.name? = list.filterMap Token.name? := by
    rw [List.filterMap_map]
    exact congrArg (List.filterMap · list) (funext Token.name?_unnumbered)
  have hcase : (list.map Token.unnumbered).any (Token.isKeyword .CASE) =
      list.any (Token.isKeyword .CASE) := by
    rw [List.any_map]
    exact congrArg list.any (funext (Token.isKeyword_unnumbered .CASE))
  have hexact : (s.slipped tested).conditions.all Option.isSome =
      s.conditions.all Option.isSome := by
    simp [Source.slipped, List.all_map, Function.comp_def]
  show some _ = some _
  rw [← List.map_drop, isAlias_unnumbered, hwords, hcase, resultName?_unnumbered, hexact,
    filters_slipped]
  rfl

/-- The filters of a write are read like those of a reading. -/
theorem writeFilters_unnumbered {k : Nat} (verb : Keyword) (ho : InOrder k (markers ts))
    (htested : ∀ spans, writeSpans ts = .ok spans → tested = testedMarkers spans) :
    writeFilters verb ⟨.sequential, k⟩ (ts.map Token.unnumbered) =
      (writeFilters verb c ts).map (List.map (Filter.map (Operand.slipped tested))) := by
  unfold writeFilters
  rw [keyword_unnumbered]
  rcases h₁ : keyword .WHERE ts with e | ts₁
  · rfl
  rw [map_ok, bind_ok, bind_ok, conjuncts_unnumbered]
  rcases h₂ : conjuncts ts₁ with e | ⟨spans, ts₂⟩
  · rfl
  rw [← markers_of_keyword h₁, markers_of_conjuncts h₂, inOrder_append] at ho
  have hspans : writeSpans ts = .ok spans := by
    rw [writeSpans, h₁, bind_ok, h₂]
    rfl
  obtain rfl := htested spans hspans
  obtain ⟨u, -, hconditions⟩ := Cursor.conditions_unnumbered ho.1 (behind_nil k) c
  rw [List.nil_append] at hconditions
  rw [map_ok, bind_ok, bind_ok]
  dsimp only [unnumberedSpans]
  rw [hconditions, finish_unnumbered]
  dsimp only
  rw [filterMap_id_map, List.isEmpty_map]
  rcases finish ts₂ with e | ⟨⟩
  · rfl
  rw [bind_ok, bind_ok]
  split <;> rfl

/-- A change takes the parameters of its own markers for its values. -/
theorem update_unnumbered (ho : InOrder 0 (markers ts))
    (htested : ∀ spans, updateSpans c ts = .ok spans → tested = testedMarkers spans) :
    update ⟨.sequential, 0⟩ (ts.map Token.unnumbered) =
      (update c ts).map fun r =>
        (r.1, r.2.1, r.2.2.map (Filter.map (Operand.slipped tested))) := by
  unfold update
  rw [keyword_unnumbered]
  rcases h₁ : keyword .UPDATE ts with e | ts₁
  · rfl
  rw [map_ok, bind_ok, bind_ok, name_unnumbered]
  rcases h₂ : name ts₁ with e | ⟨table, ts₂⟩
  · rfl
  rw [map_ok, bind_ok, bind_ok]
  dsimp only [unnumberedRest]
  rw [keyword_unnumbered]
  rcases h₃ : keyword .SET ts₂ with e | ts₃
  · rfl
  rw [← markers_of_keyword h₁, ← markers_of_name h₂, ← markers_of_keyword h₃] at ho
  obtain ⟨k, hk, hassigned⟩ := assignments_unnumbered (c := c) ho
  rw [map_ok, bind_ok, bind_ok, hassigned]
  rcases h₄ : assignments c ts₃ with e | ⟨⟨assigned, c'⟩, ts₄⟩
  · rfl
  obtain ⟨rfl, ho⟩ := hk _ _ _ h₄
  have hspans : writeSpans ts₄ = updateSpans c' ts := by
    rw [updateSpans, h₁, bind_ok, h₂, bind_ok]
    dsimp only
    rw [h₃, bind_ok, h₄, bind_ok]
  rw [map_ok, bind_ok, bind_ok]
  dsimp only [withCursor]
  rw [writeFilters_unnumbered (c := c') .UPDATE ho fun spans h => htested spans (hspans ▸ h)]
  cases writeFilters .UPDATE c' ts₄ <;> rfl

theorem delete_unnumbered (ho : InOrder 0 (markers ts))
    (htested : ∀ spans, deleteSpans ts = .ok spans → tested = testedMarkers spans) :
    delete ⟨.sequential, 0⟩ (ts.map Token.unnumbered) =
      (delete c ts).map fun r => (r.1, r.2.map (Filter.map (Operand.slipped tested))) := by
  unfold delete
  rw [keyword_unnumbered]
  rcases h₁ : keyword .DELETE ts with e | ts₁
  · rfl
  rw [map_ok, bind_ok, bind_ok, keyword_unnumbered]
  rcases h₂ : keyword .FROM ts₁ with e | ts₂
  · rfl
  rw [map_ok, bind_ok, bind_ok, name_unnumbered]
  rcases h₃ : name ts₂ with e | ⟨table, ts₃⟩
  · rfl
  rw [← markers_of_keyword h₁, ← markers_of_keyword h₂, ← markers_of_name h₃] at ho
  have hspans : writeSpans ts₃ = deleteSpans ts := by
    rw [deleteSpans, h₁, bind_ok, h₂, bind_ok, h₃, bind_ok]
  rw [map_ok, bind_ok, bind_ok]
  dsimp only [unnumberedRest]
  rw [writeFilters_unnumbered (c := c) .DELETE ho fun spans h => htested spans (hspans ▸ h)]
  cases writeFilters .DELETE c ts₃ <;> rfl

/-- An insertion takes the parameters of its own markers. -/
theorem insert_unnumbered (ho : InOrder 0 (markers ts)) :
    insert ⟨.sequential, 0⟩ (ts.map Token.unnumbered) = insert c ts := by
  unfold insert
  rw [keyword_unnumbered]
  rcases h₁ : keyword .INSERT ts with e | ts₁
  · rfl
  rw [map_ok, bind_ok, bind_ok, keyword_unnumbered]
  rcases h₂ : keyword .INTO ts₁ with e | ts₂
  · rfl
  rw [map_ok, bind_ok, bind_ok, name_unnumbered]
  rcases h₃ : name ts₂ with e | ⟨table, ts₃⟩
  · rfl
  rw [map_ok, bind_ok, bind_ok]
  dsimp only [unnumberedRest]
  rw [mark_unnumbered rfl]
  rcases h₄ : mark .openParen .openColumns ts₃ with e | ts₄
  · rfl
  rw [map_ok, bind_ok, bind_ok, names_unnumbered]
  rcases h₅ : names ts₄ with e | ⟨columns, ts₅⟩
  · rfl
  rw [map_ok, bind_ok, bind_ok]
  dsimp only [unnumberedRest]
  rw [mark_unnumbered rfl]
  rcases h₆ : mark .closeParen .closeColumns ts₅ with e | ts₆
  · rfl
  rw [map_ok, bind_ok, bind_ok, keyword_unnumbered]
  rcases h₇ : keyword .VALUES ts₆ with e | ts₇
  · rfl
  rw [map_ok, bind_ok, bind_ok, mark_unnumbered rfl]
  rcases h₈ : mark .openParen .openValues ts₇ with e | ts₈
  · rfl
  rw [← markers_of_keyword h₁, ← markers_of_keyword h₂, ← markers_of_name h₃,
    ← markers_of_mark rfl h₄, ← markers_of_names h₅, ← markers_of_mark rfl h₆,
    ← markers_of_keyword h₇, ← markers_of_mark rfl h₈] at ho
  rw [map_ok, bind_ok, bind_ok, values_unnumbered (c := c) ho]
  rcases h₉ : values c ts₈ with e | ⟨values, ts₉⟩
  · rfl
  rw [map_ok, bind_ok, bind_ok]
  dsimp only [unnumberedRest]
  rw [mark_unnumbered rfl]
  rcases mark .closeParen .closeValues ts₉ with e | ts₁₀
  · rfl
  rw [map_ok, bind_ok, bind_ok, finish_unnumbered, List.length_map]
  have hcomma := head?_unnumbered_eq_iff (u := .comma) rfl ts₁₀
  by_cases h : ts₁₀.head? = some .comma
  · rw [if_pos h, if_pos (hcomma.2 h)]
    rfl
  · rw [if_neg h, if_neg (mt hcomma.1 h)]
    rfl

end Statements

end Grammar

theorem isNumbered_eq_false_of_detect {ts : List Token} (h : MarkerMode.detect ts = .sequential) :
    ∀ t ∈ ts, MarkerMode.isNumbered t = false := by
  unfold MarkerMode.detect at h
  split at h
  · cases h
  · rename_i hany
    simpa using hany

namespace Scan

variable {s : Scan}

theorem map_unnumbered_numbered (h : MarkerMode.detect s.tokens = .sequential) :
    s.numbered.tokens.map Token.unnumbered = s.tokens := by
  rw [tokens_numbered, unnumbered_numberFrom (isNumbered_eq_false_of_detect h)]

theorem fragments_numbered (h : MarkerMode.detect s.tokens = .sequential) (mode : MarkerMode) :
    s.numbered.fragments mode = s.fragments .sequential := by
  rw [fragments, fragments, numbered,
    lexemeFragments_numbered (isNumbered_eq_false_of_detect h)]
  rfl

/-- A statement with sequential markers is read as the numbered one, with the parameters of its
filters and counts taken further in front by the markers that were tested for null before. -/
theorem prepareTokens_numbered (h : MarkerMode.detect s.tokens = .sequential)
    (read : Grammar.CountReader) :
    s.prepareTokens read =
      (s.numbered.prepareTokens fun a => read (a.slipped s.tested)).map
        (Statement.mapFilters (Operand.slipped s.tested)) := by
  have ho : InOrder 0 (markers s.numbered.tokens) := by
    rw [tokens_numbered]
    exact inOrder_numberFrom 0 s.tokens
  have htested (spans : List (List Token))
      (hspans : Grammar.conditionSpans (.start (.detect s.numbered.tokens)) s.numbered.tokens =
        .ok spans) : s.tested = testedMarkers spans := by
    simp only [tested, hspans]
    rfl
  have hkind := kindOfTokens_unnumbered s.numbered.tokens
  have hunnumbered := map_unnumbered_numbered h
  rw [hunnumbered] at hkind
  unfold Grammar.conditionSpans at htested
  unfold prepareTokens
  dsimp only
  rw [h, fragments_numbered h, excerpt_numbered, hkind, ← hunnumbered]
  simp only [Cursor.start] at htested ⊢
  cases hk : kindOfTokens s.numbered.tokens with
  | select =>
    simp only [hk] at htested ⊢
    rw [Grammar.select_unnumbered (c := ⟨.detect s.numbered.tokens, 0⟩) ho htested]
    cases Grammar.select _ ⟨.detect s.numbered.tokens, 0⟩ s.numbered.tokens <;> rfl
  | insert =>
    simp only [hk] at htested ⊢
    rw [Grammar.insert_unnumbered (c := ⟨.detect s.numbered.tokens, 0⟩) ho]
    cases Grammar.insert ⟨.detect s.numbered.tokens, 0⟩ s.numbered.tokens <;> rfl
  | update =>
    simp only [hk] at htested ⊢
    rw [Grammar.update_unnumbered ho htested]
    cases Grammar.update ⟨.detect s.numbered.tokens, 0⟩ s.numbered.tokens <;> rfl
  | delete =>
    simp only [hk] at htested ⊢
    rw [Grammar.delete_unnumbered (c := ⟨.detect s.numbered.tokens, 0⟩) ho htested]
    cases Grammar.delete ⟨.detect s.numbered.tokens, 0⟩ s.numbered.tokens <;> rfl
  | aggregate =>
    simp only [hk] at htested ⊢
    rw [Grammar.aggregateShape?_unnumbered (c := ⟨.detect s.numbered.tokens, 0⟩) _ ho htested]
    rfl
  | schema =>
    simp only
    cases s.numbered.tokens with
    | nil => rfl
    | cons t ts => cases t <;> rfl
  | unsupported => rfl

end Scan

/-! ### Parameters in their places -/

/-- A marker takes its own parameter, whatever the parameters are, exactly if none of the markers
that are tested for null stands in front of it. -/
theorem value_slipped_eq_iff {tested : List Nat} {k : Nat} :
    (∀ b : Bindings, b.value ((Operand.parameter k).slipped tested) = b.value (.parameter k)) ↔
      ∀ i ∈ tested, k ≤ i := by
  constructor
  · intro h
    -- Parameters that are their own indices tell which of them was taken.
    have hcount (j : Nat) (hj : j ≤ k) :
        Bindings.value ⟨(List.range (k + 1)).map fun j : Nat => .int j, ""⟩ (.parameter j) =
          .int j := by
      simp [Bindings.value, Nat.lt_succ_of_le hj]
    have hvalue := h ⟨(List.range (k + 1)).map fun j : Nat => .int j, ""⟩
    rw [Operand.slipped, hcount _ (Nat.sub_le _ _), hcount k (Nat.le_refl k)] at hvalue
    have htaken : k - slips tested k = k := Int.ofNat.inj (Value.int.inj hvalue)
    intro i hi
    by_cases hk : k = 0
    · exact hk ▸ Nat.zero_le i
    · have hslips : slips tested k = 0 := by omega
      have hi := List.countP_eq_zero.1 hslips i hi
      simpa using hi
  · intro h b
    rw [Operand.slipped, slips_of_forall_le h, Nat.sub_zero]

/-- The filters of a statement, those of an aggregate if it has a shape. -/
def Statement.filters {α : Type} : Statement α → List (Filter α)
  | select q => q.filters
  | update _ _ filters => filters
  | delete _ filters => filters
  | aggregate plan => (plan.shape.map AggregateShape.filters).getD []
  | _ => []

theorem Statement.mapFilters_id {α : Type} (p : Statement α) : p.mapFilters id = p := by
  have hfilters (fs : List (Filter α)) : fs.map (Filter.map id) = fs := List.map_id fs
  cases p with
  | select q => simp [mapFilters, Select.map, hfilters]
  | update => simp [mapFilters, hfilters]
  | delete => simp [mapFilters, hfilters]
  | aggregate plan =>
    rcases plan with ⟨_ | shape, text⟩
    · rfl
    · simp [mapFilters, AggregateShape.map, hfilters]
  | _ => rfl

/-- The statement of a text with sequential markers takes the parameters of the numbered one, except
that filters and counts of rows take one further in front for every marker before theirs that a
condition tests for null. A marker is given its own parameter exactly if there is none, and a
statement without such a test takes all its parameters from their own places. -/
theorem parse_of_sequential {sql : String} {s : Scan} (hscan : scanTrimmed sql = .ok s)
    (hs : MarkerMode.detect s.tokens = .sequential) (b : Bindings) :
    parse b sql =
        ((s.numbered.prepare fun a => b.count? (a.slipped s.tested)).map fun p =>
          (p.mapFilters (Operand.slipped s.tested)).map b.value) ∧
      (∀ k, (∀ b : Bindings,
          b.value ((Operand.parameter k).slipped s.tested) = b.value (.parameter k)) ↔
        ∀ i ∈ s.tested, k ≤ i) ∧
      (s.tested = [] → parse b sql = parseNumbered b sql) := by
  have hparse : parse b sql =
      (s.numbered.prepare fun a => b.count? (a.slipped s.tested)).map fun p =>
        (p.mapFilters (Operand.slipped s.tested)).map b.value := by
    rw [parse_of_scan hscan, Scan.prepareTokens_numbered hs, Scan.prepare, Fault.locate_numbered]
    cases s.numbered.prepareTokens fun a => b.count? (a.slipped s.tested) <;> rfl
  refine ⟨hparse, fun _ => value_slipped_eq_iff, fun htested => ?_⟩
  have hid : Operand.slipped [] = id := funext Operand.slipped_nil
  rw [hparse, parseNumbered, hscan, htested, hid, bind_ok]
  simp only [Statement.mapFilters_id, id]
  cases s.numbered.prepare b.count? <;> rfl

/-- Two conditions without a test for null take the parameters of their own markers. -/
theorem parse_of_sequential_pair :
    parse ⟨[.int 1, .int 2], ""⟩ "SELECT * FROM t WHERE a = ? AND b = ?" =
      parseNumbered ⟨[.int 1, .int 2], ""⟩ "SELECT * FROM t WHERE a = ? AND b = ?" := by
  have hscan : ∃ s ∈ (scanTrimmed "SELECT * FROM t WHERE a = ? AND b = ?").toOption,
      MarkerMode.detect s.tokens = .sequential ∧ s.tested = [] := by decide +kernel
  obtain ⟨s, hs, hmode, htested⟩ := hscan
  exact (parse_of_sequential (eq_ok_of_mem_toOption hs) hmode _).2.2 htested

/-- A test of a marker for null takes no parameter, and the condition behind it takes the parameter
of the tested marker. -/
theorem parse_null_test_shifts :
    ∃ s ∈ (parse ⟨[.int 1, .int 2], ""⟩ "SELECT * FROM t WHERE ? IS NULL AND a = ?").toOption,
      ∃ s' ∈ (parseNumbered ⟨[.int 1, .int 2], ""⟩
          "SELECT * FROM t WHERE ? IS NULL AND a = ?").toOption,
        s.filters.map Filter.display = ["a = 1"] ∧ s'.filters.map Filter.display = ["a = 2"] := by
  decide +kernel

end TableSql
