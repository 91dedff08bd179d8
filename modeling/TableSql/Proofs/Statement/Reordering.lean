import TableSql.Proofs.Marker.Places
import TableSql.Proofs.Statement.Front

/-!
# The order of conjuncts

The conjuncts behind a `WHERE` may be put into another order. They are cut apart again where they
were joined, since each is closed: the `AND`s between them stand outside all parentheses, and no
other token of a conjunct ends it. If no marker stands in turn, a conjunct becomes its filter
wherever it stands, and what is read behind the conditions is read as before. So the one statement
is accepted if the other one is, and its filters are those of the other one in another order.

## Main definitions

* `Joined` — conjuncts with `AND` between them.
* `Reorders` — tokens with the conjuncts of a `WHERE` clause in another order.
* `Statement.Reordered` — statements with their filters in another order.

## Main results

* `Joined.conjunction` — joined conjuncts are cut apart where they were joined.
* `Reorders.kindOfTokens_eq`, `Reorders.detect_eq` — the kind and the mode stay the same.
* `Cursor.conditions_of_byNumber` — a conjunct becomes its filter wherever it stands.
* `exists_parse_of_reorders` — a text with its conjuncts in another order.
-/

namespace TableSql

/-! ### Joined conjuncts -/

/-- The tokens are a conjunct: there is one, their parentheses are balanced, and none of them ends a
conjunct outside parentheses. -/
def IsConjunct (span : List Token) : Prop :=
  span ≠ [] ∧ Closed endsConjunct span

instance (span : List Token) : Decidable (IsConjunct span) :=
  inferInstanceAs (Decidable (_ ∧ _))

/-- The tokens are the conjuncts with an `AND` between each two of them. -/
inductive Joined : List (List Token) → List Token → Prop
  | last (span : List Token) : Joined [span] span
  | and (span : List Token) {t : Token} {spans : List (List Token)} {ts : List Token}
      (ht : t.isKeyword .AND = true) (h : Joined spans ts) :
      Joined (span :: spans) (span ++ t :: ts)

/-- The tokens may follow the last conjunct: there are none, or the first one ends a conjunct and is
no `AND`. -/
def EndsConjuncts (ts : List Token) : Prop :=
  ∀ t ∈ ts.head?, endsSpan endsConjunct t = true ∧ t.isKeyword .AND = false

instance (ts : List Token) : Decidable (EndsConjuncts ts) :=
  inferInstanceAs (Decidable (∀ t ∈ ts.head?, _))

/-- The tokens have the conjuncts of their `WHERE` clause in another order. The clause begins with
the first `WHERE` outside parentheses. -/
inductive Reorders : List Token → List Token → Prop
  | mk {head rest joined joined' : List Token} {w : Token} {spans spans' : List (List Token)}
      (hhead : Closed (Token.isKeyword .WHERE) head) (hw : w.isKeyword .WHERE = true)
      (hspans : ∀ span ∈ spans, IsConjunct span) (hperm : spans.Perm spans')
      (hjoined : Joined spans joined) (hjoined' : Joined spans' joined')
      (hrest : EndsConjuncts rest) :
      Reorders (head ++ w :: (joined ++ rest)) (head ++ w :: (joined' ++ rest))

theorem Reorders.symm {ts ts' : List Token} (h : Reorders ts ts') : Reorders ts' ts := by
  obtain ⟨hhead, hw, hspans, hperm, hjoined, hjoined', hrest⟩ := h
  exact ⟨hhead, hw, fun span hspan => hspans span (hperm.mem_iff.2 hspan), hperm.symm, hjoined',
    hjoined, hrest⟩

theorem endsSpan_and {t : Token} (h : t.isKeyword .AND = true) :
    endsSpan endsConjunct t = true := by
  simp [endsSpan, endsConjunct, h, (ne_parens_of_isKeyword h).1]

/-- Joined conjuncts are cut apart where they were joined. -/
theorem Joined.conjunction {spans : List (List Token)} {joined rest : List Token}
    (h : Joined spans joined) (hspans : ∀ span ∈ spans, IsConjunct span)
    (hrest : EndsConjuncts rest) : Conjunction (joined ++ rest) spans rest := by
  induction h with
  | last span =>
    obtain ⟨hne, hclosed⟩ := hspans span List.mem_cons_self
    refine .last hne ⟨hclosed.uncut, fun t ht => ?_⟩ ?_
    · exact ⟨hclosed.openParens_eq, (hrest t ht).1⟩
    · cases rest with
      | nil => rfl
      | cons t rest => exact (hrest t rfl).2
  | @and span t spans ts ht _ ih =>
    obtain ⟨⟨hne, hclosed⟩, hspans⟩ := List.forall_mem_cons.1 hspans
    rw [List.append_assoc]
    exact .and hne (hclosed.cut (endsSpan_and ht) _) ht (ih hspans)

/-- Behind the `WHERE`, the conjuncts are found as they were joined, with the same tokens behind
them. -/
theorem Reorders.exists_conjunctions {ts ts' : List Token} (h : Reorders ts ts') :
    ∃ head w clause clause' spans spans' rest, ts = head ++ w :: clause ∧
      ts' = head ++ w :: clause' ∧ Closed (Token.isKeyword .WHERE) head ∧
      w.isKeyword .WHERE = true ∧ Conjunction clause spans rest ∧
      Conjunction clause' spans' rest ∧ spans.Perm spans' ∧ spans.flatten ⊆ ts := by
  obtain ⟨hhead, hw, hspans, hperm, hjoined, hjoined', hrest⟩ := h
  have hspans' := fun span hspan => hspans span (hperm.mem_iff.2 hspan)
  have hconjuncts := hjoined.conjunction hspans hrest
  refine ⟨_, _, _, _, _, _, _, rfl, rfl, hhead, hw, hconjuncts,
    hjoined'.conjunction hspans' hrest, hperm, fun t ht => ?_⟩
  exact List.mem_append_right _ (List.mem_cons_of_mem _ (hconjuncts.flatten_subset ht))

/-- What holds of no `AND` holds of a token of the conjuncts if it holds of one that is joined. -/
theorem Joined.any_eq {spans : List (List Token)} {joined : List Token} (h : Joined spans joined)
    {p : Token → Bool} (hp : ∀ t, t.isKeyword .AND = true → p t = false) :
    joined.any p = spans.flatten.any p := by
  induction h with
  | last span => simp
  | and span ht _ ih => simp [hp _ ht, ih]

theorem Reorders.any_eq {ts ts' : List Token} (h : Reorders ts ts') {p : Token → Bool}
    (hp : ∀ t, t.isKeyword .AND = true → p t = false) : ts.any p = ts'.any p := by
  obtain ⟨-, -, -, hperm, hjoined, hjoined', -⟩ := h
  simp only [List.any_append, List.any_cons, hjoined.any_eq hp, hjoined'.any_eq hp,
    hperm.flatten.any_eq]

/-! ### The kind and the mode -/

theorem Token.isAggregateWord_of_isKeyword {k : Keyword} {t : Token} (h : t.isKeyword k = true) :
    t.isAggregateWord = false := by
  cases t with
  | word w =>
    have hspelling : k.spelling = Text.upper w := by
      have hk : Keyword.ofWord? w = some k := of_decide_eq_true h
      simpa using List.find?_some hk
    rw [isAggregateWord, isAggregateFunction, ← hspelling]
    cases k <;> decide
  | _ => rfl

theorem hasAggregateCall_append {ts us : List Token} (h : us.head? ≠ some .openParen) :
    hasAggregateCall (ts ++ us) = (hasAggregateCall ts || hasAggregateCall us) := by
  induction ts with
  | nil => rfl
  | cons t ts ih =>
    have hhead : (ts ++ us).head? = some .openParen ↔ ts.head? = some .openParen := by
      cases ts with
      | nil => simp [h]
      | cons u ts => rfl
    rw [List.cons_append, hasAggregateCall_cons, hasAggregateCall_cons, ih, Bool.or_assoc,
      decide_eq_decide.2 hhead]

theorem hasAggregateCall_cons_of_isKeyword {k : Keyword} {t : Token} (h : t.isKeyword k = true)
    (ts : List Token) : hasAggregateCall (t :: ts) = hasAggregateCall ts := by
  rw [hasAggregateCall_cons, Token.isAggregateWord_of_isKeyword h, Bool.and_false, Bool.false_or]

/-- No aggregate call goes over an `AND`. -/
theorem Joined.hasAggregateCall_eq {spans : List (List Token)} {joined : List Token}
    (h : Joined spans joined) : hasAggregateCall joined = spans.any hasAggregateCall := by
  induction h with
  | last span => simp
  | @and span t spans ts ht _ ih =>
    rw [hasAggregateCall_append (by simpa using (ne_parens_of_isKeyword ht).1),
      hasAggregateCall_cons_of_isKeyword ht, ih, List.any_cons]

theorem EndsConjuncts.head?_ne {ts : List Token} (h : EndsConjuncts ts) :
    ts.head? ≠ some .openParen := by
  intro hhead
  cases (h .openParen hhead).1

section Reorders

variable {ts ts' : List Token}

theorem Reorders.hasAggregateCall_eq (h : Reorders ts ts') :
    hasAggregateCall ts = hasAggregateCall ts' := by
  cases h with
  | @mk head rest joined joined' w spans spans' _ hw _ hperm hjoined hjoined' hrest =>
    have hcall {spans : List (List Token)} {joined : List Token} (h : Joined spans joined) :
        hasAggregateCall (head ++ w :: (joined ++ rest)) =
          (hasAggregateCall head || (spans.any hasAggregateCall || hasAggregateCall rest)) := by
      rw [hasAggregateCall_append (by simpa using (ne_parens_of_isKeyword hw).1),
        hasAggregateCall_cons_of_isKeyword hw, hasAggregateCall_append hrest.head?_ne,
        h.hasAggregateCall_eq]
    rw [hcall hjoined, hcall hjoined', hperm.any_eq]

theorem kindOfTokens_congr (hhead : ts.head? = ts'.head?)
    (hcall : hasAggregateCall ts = hasAggregateCall ts') : kindOfTokens ts = kindOfTokens ts' := by
  unfold kindOfTokens
  cases ts with
  | nil => rw [List.head?_eq_none_iff.1 hhead.symm]
  | cons t ts =>
    obtain ⟨us, rfl⟩ := List.head?_eq_some_iff.1 hhead.symm
    cases t with
    | word w => simp only [hcall]
    | _ => rfl

theorem Reorders.kindOfTokens_eq (h : Reorders ts ts') : kindOfTokens ts = kindOfTokens ts' := by
  refine kindOfTokens_congr ?_ h.hasAggregateCall_eq
  obtain ⟨-, -, -, -, -, -, -⟩ := h
  simp

theorem Reorders.detect_eq (h : Reorders ts ts') :
    MarkerMode.detect ts = MarkerMode.detect ts' := by
  have hand : ∀ t : Token, t.isKeyword .AND = true → MarkerMode.isNumbered t = false := by
    intro t ht
    cases t <;> first | rfl | cases ht
  rw [MarkerMode.detect, MarkerMode.detect, h.any_eq hand]

theorem Reorders.byNumber {c : Cursor} (h : Reorders ts ts') (hc : c.ByNumber ts) :
    c.ByNumber ts' := by
  have hand : ∀ t : Token, t.isKeyword .AND = true → decide (t = .marker .next) = false := by
    intro t ht
    cases t <;> first | rfl | cases ht
  have hany := h.any_eq hand
  refine hc.imp_right fun hnext hmem => hnext ?_
  have hmem' : ts'.any (fun t => decide (t = .marker .next)) = true := by simpa using hmem
  rw [← hany] at hmem'
  simpa using hmem'

end Reorders

/-! ### Filters -/

namespace Cursor

variable {c : Cursor}

/-- If no marker stands in turn, no parameter is taken. -/
theorem skipAll_of_byNumber {ts : List Token} (h : c.ByNumber ts) : c.skipAll ts = c := by
  induction ts with
  | nil => rfl
  | cons t ts ih =>
    have hskip : c.skipAll [t] = c := by
      cases t with
      | marker m =>
        cases m with
        | next =>
          have hmode : c.mode = .numbered := h.resolve_right (by simp)
          exact take_of_numbered hmode _
        | numbered n => cases n <;> rfl
      | _ => rfl
    have happend := c.skipAll_append [t] ts
    rw [hskip, ih (h.of_subset (by simp) rfl)] at happend
    exact happend

theorem condition_of_byNumber {span : List Token} (h : c.ByNumber span) :
    (c.condition span).2 = c := by
  unfold condition
  split
  · split
    · exact (snd_value c _).trans (skipAll_of_byNumber (h.of_subset (by simp) rfl))
    · exact skipAll_of_byNumber h
  · split
    · rfl
    · exact skipAll_of_byNumber h
  · exact skipAll_of_byNumber h

/-- If no marker stands in turn, a conjunct becomes its filter wherever it stands. -/
theorem conditions_of_byNumber {spans : List (List Token)} (h : c.ByNumber spans.flatten) :
    c.conditions spans = (spans.map fun span => (c.condition span).1, c) := by
  induction spans with
  | nil => rfl
  | cons span spans ih =>
    have hcons : c.conditions (span :: spans) =
        ((c.condition span).1 :: ((c.condition span).2.conditions spans).1,
          ((c.condition span).2.conditions spans).2) := rfl
    rw [hcons, condition_of_byNumber (h.of_subset (by simp) rfl), ih (h.of_subset (by simp) rfl),
      List.map_cons]

theorem ByNumber.of_perm {spans spans' : List (List Token)} (hc : c.ByNumber spans.flatten)
    (hperm : spans.Perm spans') : c.ByNumber spans'.flatten :=
  hc.of_subset (fun _ ht => hperm.flatten.mem_iff.2 ht) rfl

/-- The filters of conjuncts in another order are the same in another order. -/
theorem filters_perm {spans spans' : List (List Token)} (hc : c.ByNumber spans.flatten)
    (hperm : spans.Perm spans') :
    ((c.conditions spans).1.filterMap id).Perm ((c.conditions spans').1.filterMap id) := by
  rw [conditions_of_byNumber hc, conditions_of_byNumber (hc.of_perm hperm)]
  exact (hperm.map _).filterMap id

end Cursor

/-! ### Statements -/

namespace Grammar

section Clauses

variable {c : Cursor} {clause clause' rest : List Token} {w : Token}
  {spans spans' : List (List Token)}

theorem whereClause_of_conjunction (hw : w.isKeyword .WHERE = true)
    (h : Conjunction clause spans rest) : whereClause (w :: clause) = .ok (spans, rest) := by
  simp only [whereClause, startsWith, List.head?_cons, Option.map_some, hw, Option.getD_some,
    if_true, List.tail_cons, conjuncts_eq_ok_iff.2 h]

/-- A reading with its conjuncts in another order is accepted too. Its filters are the same ones in
another order. -/
theorem read_of_perm {read : CountReader} {t : Token} {table : String} {s : Source}
    (ht : freeName? t = some table) (hw : w.isKeyword .WHERE = true)
    (hc : c.ByNumber spans.flatten) (hperm : spans.Perm spans')
    (hspans : Conjunction clause spans rest) (hspans' : Conjunction clause' spans' rest)
    (h : Source.read read c (t :: w :: clause) = .ok s) :
    ∃ conditions, (s.conditions.filterMap id).Perm (conditions.filterMap id) ∧
      Source.read read c (t :: w :: clause') =
        .ok { s with conditions := conditions } := by
  have hname (behind : List Token) : name (t :: w :: behind) = .ok (table, w :: behind) := by
    rw [name_of_freeName? ht, if_neg]
    rintro rfl
    cases hw
  have hfilters := c.filters_perm hc hperm
  unfold Source.read at h ⊢
  rw [hname, bind_ok] at h ⊢
  dsimp only at h ⊢
  rw [whereClause_of_conjunction hw hspans, bind_ok] at h
  rw [whereClause_of_conjunction hw hspans', bind_ok]
  dsimp only at h ⊢
  -- The conditions leave the cursor as it was, so the clauses behind them are read alike.
  rw [Cursor.conditions_of_byNumber hc] at h hfilters
  rw [Cursor.conditions_of_byNumber (hc.of_perm hperm)] at hfilters ⊢
  obtain ⟨⟨order, ts₁⟩, horder, h⟩ := exists_of_bind_eq_ok h
  obtain ⟨⟨⟨limit, c₁⟩, ts₂⟩, hlimit, h⟩ := exists_of_bind_eq_ok h
  obtain ⟨⟨⟨offset, c₂⟩, ts₃⟩, hoffset, h⟩ := exists_of_bind_eq_ok h
  obtain ⟨⟨⟩, hfinish, h⟩ := exists_of_bind_eq_ok h
  cases h
  refine ⟨_, hfilters, ?_⟩
  simp only [horder, hlimit, hoffset, hfinish, bind_ok]
  rfl

/-- The filters of a write with its conjuncts in another order. -/
theorem writeFilters_of_perm {verb : Keyword} {fs : List (Filter Operand)}
    (hw : w.isKeyword .WHERE = true) (hc : c.ByNumber spans.flatten) (hperm : spans.Perm spans')
    (hspans : Conjunction clause spans rest) (hspans' : Conjunction clause' spans' rest)
    (h : writeFilters verb c (w :: clause) = .ok fs) :
    ∃ fs', writeFilters verb c (w :: clause') = .ok fs' ∧ fs.Perm fs' := by
  have hfilters := c.filters_perm hc hperm
  have hempty := hfilters.isEmpty_eq
  unfold writeFilters at h ⊢
  rw [keyword_of_isKeyword hw, bind_ok] at h ⊢
  rw [conjuncts_eq_ok_iff.2 hspans, bind_ok] at h
  rw [conjuncts_eq_ok_iff.2 hspans', bind_ok]
  dsimp only at h ⊢
  obtain ⟨⟨⟩, hfinish, h⟩ := exists_of_bind_eq_ok h
  rw [hfinish, bind_ok, ← hempty]
  split at h
  · cases h
  · rename_i hne
    cases h
    exact ⟨_, if_neg hne, hfilters⟩

end Clauses

section Statements

variable {c : Cursor} {ts ts' : List Token} {table : String} {fs : List (Filter Operand)}

theorem select_of_reorders {read : CountReader} {q : Select Operand} (h : Reorders ts ts')
    (hc : c.ByNumber ts) (hq : select read c ts = .ok q) :
    ∃ fs', q.filters.Perm fs' ∧ select read c ts' = .ok { q with filters := fs' } := by
  obtain ⟨head, w, clause, clause', spans, spans', rest, rfl, rfl, hhead, hw, hspans, hspans',
    hperm, hsubset⟩ := h.exists_conjunctions
  obtain ⟨t, ht, hfront⟩ := select_front hhead hw hq
  rw [hfront] at hq
  obtain ⟨source, hsource, hmap⟩ := exists_of_map_eq_ok hq
  obtain ⟨conditions, hfilters, hsource'⟩ :=
    read_of_perm ht hw (hc.of_subset hsubset rfl) hperm hspans hspans' hsource
  rw [← hmap]
  refine ⟨conditions.filterMap id, hfilters, ?_⟩
  rw [hfront, hsource', map_ok]
  rfl

theorem update_of_reorders {values : Record Operand} (h : Reorders ts ts') (hc : c.ByNumber ts)
    (hu : update c ts = .ok (table, values, fs)) :
    ∃ fs', fs.Perm fs' ∧ update c ts' = .ok (table, values, fs') := by
  obtain ⟨head, w, clause, clause', spans, spans', rest, rfl, rfl, hhead, hw, hspans, hspans',
    hperm, hsubset⟩ := h.exists_conjunctions
  obtain ⟨d, hmode, hfront⟩ := update_front hhead hw hu
  rw [hfront] at hu
  obtain ⟨_, hfs, hmap⟩ := exists_of_map_eq_ok hu
  cases hmap
  obtain ⟨fs', hfs', hfilters⟩ :=
    writeFilters_of_perm hw (hc.of_subset hsubset hmode) hperm hspans hspans' hfs
  exact ⟨fs', hfilters, by rw [hfront, hfs', map_ok]⟩

theorem delete_of_reorders (h : Reorders ts ts') (hc : c.ByNumber ts)
    (hd : delete c ts = .ok (table, fs)) :
    ∃ fs', fs.Perm fs' ∧ delete c ts' = .ok (table, fs') := by
  obtain ⟨head, w, clause, clause', spans, spans', rest, rfl, rfl, hhead, hw, hspans, hspans',
    hperm, hsubset⟩ := h.exists_conjunctions
  have hfront := delete_front hhead hw hd
  rw [hfront] at hd
  obtain ⟨_, hfs, hmap⟩ := exists_of_map_eq_ok hd
  cases hmap
  obtain ⟨fs', hfs', hfilters⟩ :=
    writeFilters_of_perm hw (hc.of_subset hsubset rfl) hperm hspans hspans' hfs
  exact ⟨fs', hfilters, by rw [hfront, hfs', map_ok]⟩

end Statements

end Grammar

namespace Statement

variable {α β : Type}

/-- The statements say the same, with their filters in another order. -/
inductive Reordered : Statement α → Statement α → Prop
  | select (q : Select α) {fs : List (Filter α)} (h : q.filters.Perm fs) :
      Reordered (.select q) (.select { q with filters := fs })
  | update (table : String) (values : Record α) {fs fs' : List (Filter α)} (h : fs.Perm fs') :
      Reordered (.update table values fs) (.update table values fs')
  | delete (table : String) {fs fs' : List (Filter α)} (h : fs.Perm fs') :
      Reordered (.delete table fs) (.delete table fs')

theorem Reordered.map {p p' : Statement α} (h : p.Reordered p') (f : α → β) :
    (p.map f).Reordered (p'.map f) := by
  cases h with
  | select q h => exact .select (q.map f) (h.map _)
  | update table values h => exact .update table _ (h.map _)
  | delete table h => exact .delete table (h.map _)

end Statement

/-- A prepared statement with its conjuncts in another order. -/
theorem Scan.exists_prepareTokens_of_reorders {s s' : Scan} {read : Grammar.CountReader}
    {p : Statement Operand} (h : Reorders s.tokens s'.tokens)
    (hk : kindOfTokens s.tokens ∈ [.select, .update, .delete])
    (hc : (Cursor.start (.detect s.tokens)).ByNumber s.tokens)
    (hp : s.prepareTokens read = .ok p) :
    ∃ p', s'.prepareTokens read = .ok p' ∧ p.Reordered p' := by
  unfold prepareTokens at hp ⊢
  dsimp only at hp ⊢
  rw [← h.kindOfTokens_eq, ← h.detect_eq]
  cases hkind : kindOfTokens s.tokens with
  | select =>
    rw [hkind] at hp
    obtain ⟨q, hq, rfl⟩ := exists_of_map_eq_ok hp
    obtain ⟨fs', hperm, hq'⟩ := Grammar.select_of_reorders h hc hq
    exact ⟨_, congrArg (Except.map Statement.select) hq', .select q hperm⟩
  | update =>
    rw [hkind] at hp
    obtain ⟨⟨table, values, fs⟩, hu, rfl⟩ := exists_of_map_eq_ok hp
    obtain ⟨fs', hperm, hu'⟩ := Grammar.update_of_reorders h hc hu
    simp only [hu', map_ok]
    exact ⟨_, rfl, .update table values hperm⟩
  | delete =>
    rw [hkind] at hp
    obtain ⟨⟨table, fs⟩, hd, rfl⟩ := exists_of_map_eq_ok hp
    obtain ⟨fs', hperm, hd'⟩ := Grammar.delete_of_reorders h hc hd
    simp only [hd', map_ok]
    exact ⟨_, rfl, .delete table hperm⟩
  | insert | aggregate | schema | unsupported => simp [hkind] at hk

/-- The statement of a text with its conjuncts in another order. -/
theorem exists_parse_of_reorders {b : Bindings} {sql sql' : String} {s s' : Scan}
    {statement : Statement Value} (hs : scanTrimmed sql = .ok s) (hs' : scanTrimmed sql' = .ok s')
    (h : Reorders s.tokens s'.tokens)
    (hk : kindOfTokens s.tokens ∈ [.select, .update, .delete])
    (hc : (Cursor.start (.detect s.tokens)).ByNumber s.tokens)
    (hparse : parse b sql = .ok statement) :
    ∃ statement', parse b sql' = .ok statement' ∧ statement.Reordered statement' := by
  obtain ⟨_, p, hscan, hp, rfl⟩ := exists_of_parse_eq_ok hparse
  cases hs.symm.trans hscan
  obtain ⟨p', hp', hre⟩ := s.exists_prepareTokens_of_reorders h hk hc hp
  exact ⟨p'.map b.value, by rw [parse_of_scan hs', hp']; rfl, hre.map b.value⟩

end TableSql
