import Mathlib.Data.List.DropRight
import TableSql.Proofs.Form.Statement
import TableSql.Proofs.Statement.Balance
import TableSql.Proofs.Statement.Reordering

/-!
# Aggregates with a limit and an offset

A limit and an offset are appended to a statement behind its last token that is no semicolon. An
aggregate reads them and does not keep them: if all its conditions became filters and it had neither
a limit nor an offset before, then its shape is the one that it had.

## Main definitions

* `PagingClauses` — a limit and an offset as they are written.
* `Grammar.Source.Unpaged`, `Scan.Unpaged` — statements that have none of the two.
* `Inert` — tokens that do not matter for the kind of a statement and for its markers.
* `Pages` — the lexemes of a statement with the two appended.

## Main results

* `Conjunction.exists_joined` — conditions that are comparisons may stand in front of other clauses.
* `Grammar.exists_read_paged` — the clauses behind `FROM` with a limit and an offset.
* `Grammar.aggregatePieces?_paged` — the pieces of an aggregate with a limit and an offset.
* `exists_parse_of_pages` — its shape stays the same.
-/

namespace TableSql

/-! ### Appended clauses -/

/-- A limit and an offset, each given as a number of 64 bits. -/
inductive PagingClauses (l o : Nat) : List Token → Prop
  | mk {limit offset : Token} {w w' : String} (hlimit : limit.isKeyword .LIMIT = true)
      (hl : Decimal.unsigned? w.toList = some l) (hoffset : offset.isKeyword .OFFSET = true)
      (ho : Decimal.unsigned? w'.toList = some o) :
      PagingClauses l o [limit, .number w, offset, .number w']

theorem rdropWhile_append_semicolons {ts ends : List Token}
    (hts : ∀ t ∈ ts.getLast?, t ≠ .semicolon) (hends : ∀ t ∈ ends, t = .semicolon) :
    (ts ++ ends).rdropWhile (· = .semicolon) = ts := by
  induction ends using List.reverseRecOn with
  | nil =>
    rw [List.append_nil, List.rdropWhile_eq_self_iff]
    intro hne
    simpa using hts _ (List.getLast?_eq_some_getLast hne)
  | append_singleton ends t ih =>
    obtain rfl := hends t (by simp)
    rw [← List.append_assoc, List.rdropWhile_concat_pos _ _ _ (by simp)]
    exact ih fun t ht => hends t (List.mem_append_left _ ht)

/-- A statement falls in one way into tokens the last of which is no semicolon, and semicolons. -/
theorem eq_of_append_semicolons {ts ts' ends ends' : List Token} (h : ts ++ ends = ts' ++ ends')
    (hts : ∀ t ∈ ts.getLast?, t ≠ .semicolon) (hts' : ∀ t ∈ ts'.getLast?, t ≠ .semicolon)
    (hends : ∀ t ∈ ends, t = .semicolon) (hends' : ∀ t ∈ ends', t = .semicolon) : ts = ts' := by
  rw [← rdropWhile_append_semicolons hts hends, h, rdropWhile_append_semicolons hts' hends']

/-! ### Comparisons -/

theorem Denotes.notMem_semicolon {span : List Token} {a : Operand} (h : Denotes span a) :
    .semicolon ∉ span := by
  cases h with
  | @token t ht =>
    rw [List.mem_singleton]
    rintro rfl
    cases ht
  | now => simp
  | datetime => simp

theorem Compares.notMem_semicolon {span : List Token} {f : Filter Operand} (h : Compares span f) :
    .semicolon ∉ span := by
  have hname {t : Token} {w : String} (ht : t.name? = some w) : Token.semicolon ≠ t := by
    rintro rfl
    cases ht
  have hkeyword {t : Token} {k : Keyword} (ht : t.isKeyword k = true) : Token.semicolon ≠ t := by
    rintro rfl
    cases ht
  cases h with
  | equals hcolumn hspan => simp [hname hcolumn, hspan.notMem_semicolon]
  | null hcolumn his hnull => simp [hname hcolumn, hkeyword his, hkeyword hnull]

/-- Conjuncts that are comparisons are joined, and close what they open. -/
theorem Conjunction.exists_joined {ts rest : List Token} {spans : List (List Token)}
    (h : Conjunction ts spans rest) (hspans : ∀ span ∈ spans, ∃ f, Compares span f) :
    ∃ joined, ts = joined ++ rest ∧ Joined spans joined ∧ ∀ span ∈ spans, IsConjunct span := by
  induction h with
  | @last span rest hne hcut hrest =>
    obtain ⟨f, hf⟩ := hspans span List.mem_cons_self
    refine ⟨span, rfl, .last span, fun span' hspan' => ?_⟩
    obtain rfl := List.mem_singleton.1 hspan'
    exact ⟨hne, hcut.uncut, hf.regular.closed.openParens_eq⟩
  | @and span t ts spans rest hne hcut hand _ ih =>
    obtain ⟨⟨f, hf⟩, hspans⟩ := List.forall_mem_cons.1 hspans
    obtain ⟨joined, rfl, hjoined, hconjuncts⟩ := ih hspans
    refine ⟨span ++ t :: joined, by simp, .and span hand hjoined, ?_⟩
    exact List.forall_mem_cons.2 ⟨⟨hne, hcut.uncut, hf.regular.closed.openParens_eq⟩, hconjuncts⟩

theorem Joined.notMem_semicolon {spans : List (List Token)} {joined : List Token}
    (h : Joined spans joined) (hspans : ∀ span ∈ spans, ∃ f, Compares span f) :
    .semicolon ∉ joined := by
  induction h with
  | last span =>
    obtain ⟨f, hf⟩ := hspans span List.mem_cons_self
    exact hf.notMem_semicolon
  | and span ht _ ih =>
    obtain ⟨⟨f, hf⟩, hspans⟩ := List.forall_mem_cons.1 hspans
    simp only [List.mem_append, List.mem_cons, not_or]
    exact ⟨hf.notMem_semicolon, (by rintro rfl; cases ht), ih hspans⟩

/-! ### Sort keys -/

theorem IsSortKey.exists_written {key : List Token} (h : IsSortKey key) :
    ∃ f : SortForm, Written Grammar.IsNameToken f.pieces key := by
  cases h with
  | @plain t w ht => exact ⟨⟨w, none⟩, .cons ht .nil⟩
  | @directed t u w ht d hu => exact ⟨⟨w, some d⟩, .cons ht (.cons hu .nil)⟩

theorem SortList.exists_written {ts : List Token} (h : SortList ts) :
    ∃ keys : List SortForm, keys ≠ [] ∧
      Written Grammar.IsNameToken (listed (.token .comma) (keys.map SortForm.pieces)) ts := by
  induction h with
  | @last key hkey =>
    obtain ⟨f, hf⟩ := hkey.exists_written
    exact ⟨[f], by simp, by simpa [listed] using hf⟩
  | @comma key rest hkey _ ih =>
    obtain ⟨f, hf⟩ := hkey.exists_written
    obtain ⟨keys, hne, hkeys⟩ := ih
    obtain ⟨g, keys, rfl⟩ := List.exists_cons_of_ne_nil hne
    refine ⟨f :: g :: keys, by simp, ?_⟩
    rw [List.map_cons, List.map_cons, listed_cons_cons]
    exact written_append.2 ⟨key, .comma :: rest, hf, .cons rfl hkeys, rfl⟩

theorem exists_written_of_optionally {order : List Token} (h : Optionally .ORDER OrderedBy order) :
    ∃ keys : List SortForm, Written Grammar.IsNameToken (orderPieces keys) order := by
  cases h with
  | missing => exact ⟨[], .nil⟩
  | present ht h =>
    obtain ⟨hu, hlist⟩ := h
    obtain ⟨keys, hne, hkeys⟩ := hlist.exists_written
    refine ⟨keys, ?_⟩
    rw [orderPieces, if_neg hne]
    exact .cons ht (.cons hu hkeys)

/-- The pieces of clauses are no semicolons. -/
theorem holdsInClauses_ne_semicolon :
    HoldsInClauses fun p => ∀ t, p.Is Grammar.IsNameToken t → t ≠ .semicolon where
  keyword _ _ ht := by rintro rfl; cases ht
  name _ _ ht := by rintro rfl; cases ht
  comma := by rintro _ rfl; simp
  equals := by rintro _ rfl; simp
  next := by rintro _ rfl; simp
  star := by rintro _ rfl; simp
  number := by rintro s _ rfl; simp

/-! ### Clauses behind the table -/

/-- A clause with a limit begins as one. -/
theorem PagingClauses.endsClause {l o : Nat} {paging : List Token} (h : PagingClauses l o paging)
    (ts : List Token) : EndsClause [.LIMIT, .OFFSET] (paging ++ ts) := by
  obtain ⟨hlimit, -, -, -⟩ := h
  exact endsClause_cons List.mem_cons_self hlimit _

theorem endsClause_of_semicolons {ends : List Token} (h : ∀ t ∈ ends, t = .semicolon)
    (ks : List Keyword) : EndsClause ks ends :=
  fun t ht => .inl (h t (List.mem_of_mem_head? ht))

namespace Grammar

/-- The clauses of a reading from a table are without a limit and without an offset. -/
structure Source.Unpaged (s : Source) : Prop where
  limit : s.limit = none
  offset : s.offset = none

instance (s : Source) : Decidable s.Unpaged :=
  decidable_of_iff (s.limit = none ∧ s.offset = none) ⟨fun h => ⟨h.1, h.2⟩, fun h => ⟨h.1, h.2⟩⟩

/-- The clauses with this limit and this offset. -/
def Source.paged (s : Source) (l o : Nat) : Source :=
  { s with limit := some l, offset := some o }

section Clauses

variable {read : CountReader} {c c' : Cursor} {k : Keyword} {ts rest : List Token}

/-- Where no count is read, nothing is. -/
theorem eq_of_countClause (h : countClause k read c ts = .ok ((none, c'), rest)) :
    c' = c ∧ rest = ts := by
  unfold countClause at h
  split at h
  · split at h <;> cases h
  · cases h
    exact ⟨rfl, rfl⟩

/-- A number behind its keyword is a count, and takes no parameter. -/
theorem countClause_of_number {t : Token} {w : String} {n : Nat} (ht : t.isKeyword k = true)
    (hn : Decimal.unsigned? w.toList = some n) (read : CountReader) (c : Cursor)
    (rest : List Token) :
    countClause k read c (t :: .number w :: rest) = .ok ((some n, c), rest) := by
  have hstart : startsWith k (t :: .number w :: rest) = true := ht
  simp only [countClause, hstart, if_true, List.tail_cons, count, hn]

/-- Conditions that are comparisons are read in front of any later clause. -/
theorem exists_front_of_whereClause {spans : List (List Token)}
    (h : whereClause ts = .ok (spans, rest)) (hspans : ∀ span ∈ spans, ∃ f, Compares span f) :
    ∃ front, ts = front ++ rest ∧ .semicolon ∉ front ∧ EndsClause [.WHERE] front ∧
      ∀ rest', EndsClause [.ORDER, .LIMIT, .OFFSET] rest' →
        whereClause (front ++ rest') = .ok (spans, rest') := by
  unfold whereClause at h
  split at h
  · rename_i hstart
    obtain ⟨w, hw, hts⟩ := exists_of_startsWith hstart
    obtain ⟨joined, htail, hjoined, hconjuncts⟩ :=
      (conjuncts_eq_ok_iff.1 h).exists_joined hspans
    have hne : w ≠ .semicolon := by
      rintro rfl
      cases hw
    refine ⟨w :: joined, hts.trans (congrArg (w :: ·) htail), ?_, endsClause_cons (by simp) hw _,
      fun rest' hrest => whereClause_of_conjunction hw (hjoined.conjunction hconjuncts ?_)⟩
    · simpa [hne.symm] using hjoined.notMem_semicolon hspans
    · intro t ht
      refine ⟨hrest.endsSpan_endsConjunct t ht, ?_⟩
      obtain ⟨rest', rfl⟩ := List.head?_eq_some_iff.1 ht
      exact hrest.startsWith_eq_false (by decide)
  · cases h
    refine ⟨[], rfl, by simp, endsClause_semicolons _ 0, fun rest' hrest => ?_⟩
    rw [List.nil_append, whereClause, hrest.startsWith_eq_false (by decide)]
    rfl

/-- Sort keys are read in front of any later clause. -/
theorem exists_front_of_orderClause {keys : List SortKey} (h : orderClause ts = .ok (keys, rest))
    (hrest : EndsClause [.LIMIT, .OFFSET] rest) :
    ∃ front, ts = front ++ rest ∧ .semicolon ∉ front ∧ EndsClause [.ORDER] front ∧
      ∀ rest', EndsClause [.LIMIT, .OFFSET] rest' →
        orderClause (front ++ rest') = .ok (keys, rest') := by
  obtain ⟨front, rfl, hfront⟩ := optionally_of_orderClause h
  obtain ⟨forms, hforms⟩ := exists_written_of_optionally hfront
  rw [orderClause_of_written hforms hrest] at h
  cases h
  have hmark := hforms.forall_mem (holdsInClauses_ne_semicolon.sortKeys forms)
  exact ⟨front, rfl, fun hmem => hmark _ hmem rfl, endsClause_orderPieces hforms,
    fun rest' => orderClause_of_written hforms⟩

/-- A reading from a table, put together from the readers of its clauses. -/
theorem read_of_clauses {ts₁ ts₂ ts₃ ts₄ ts₅ : List Token} {table : String}
    {spans : List (List Token)} {order : List SortKey} {limit offset : Option Nat}
    {c₁ c₂ : Cursor} (hname : name ts = .ok (table, ts₁))
    (hwhere : whereClause ts₁ = .ok (spans, ts₂)) (horder : orderClause ts₂ = .ok (order, ts₃))
    (hlimit : countClause .LIMIT read (c.conditions spans).2 ts₃ = .ok ((limit, c₁), ts₄))
    (hoffset : countClause .OFFSET read c₁ ts₄ = .ok ((offset, c₂), ts₅))
    (hfinish : finish ts₅ = .ok ()) :
    Source.read read c ts = .ok ⟨table, (c.conditions spans).1, order, limit, offset⟩ := by
  simp only [Source.read, hname, hwhere, horder, hlimit, hoffset, hfinish, bind_ok]
  rfl

/-- A reading without a limit and an offset whose conditions all became filters may have them
appended, behind what it has but semicolons. -/
theorem exists_read_paged {s : Source} (h : Source.read read c ts = .ok s) (hs : s.Unpaged)
    (hall : s.conditions.all Option.isSome = true) :
    ∃ front ends, ts = front ++ ends ∧ front ≠ [] ∧ .semicolon ∉ front ∧
      (∀ t ∈ ends, t = .semicolon) ∧
      ∀ {l o : Nat} {paging ends' : List Token}, PagingClauses l o paging →
        (∀ t ∈ ends', t = .semicolon) →
        Source.read read c (front ++ (paging ++ ends')) = .ok (s.paged l o) := by
  unfold Source.read at h
  obtain ⟨⟨table, ts₁⟩, hname, h⟩ := exists_of_bind_eq_ok h
  obtain ⟨⟨spans, ts₂⟩, hwhere, h⟩ := exists_of_bind_eq_ok h
  obtain ⟨⟨order, ts₃⟩, horder, h⟩ := exists_of_bind_eq_ok h
  obtain ⟨⟨⟨limit, c₁⟩, ts₄⟩, hlimitClause, h⟩ := exists_of_bind_eq_ok h
  obtain ⟨⟨⟨offset, c₂⟩, ends⟩, hoffsetClause, h⟩ := exists_of_bind_eq_ok h
  obtain ⟨⟨⟩, hfinish, h⟩ := exists_of_bind_eq_ok h
  cases h
  obtain ⟨rfl, rfl⟩ := hs
  obtain ⟨rfl, rfl⟩ := eq_of_countClause hlimitClause
  obtain ⟨-, rfl⟩ := eq_of_countClause hoffsetClause
  have hends := forall_semicolon_of_finish hfinish
  obtain ⟨keys, rfl, hkeys, hkeysStart, horder'⟩ :=
    exists_front_of_orderClause horder (endsClause_of_semicolons hends _)
  obtain ⟨conditions, rfl, hconditions, hconditionsStart, hwhere'⟩ :=
    exists_front_of_whereClause hwhere (Cursor.all_isSome_conditions_iff.1 hall)
  obtain ⟨t, ht, rfl⟩ := eq_cons_of_name hname
  have hne : t ≠ .semicolon := by
    rintro rfl
    cases ht
  refine ⟨t :: (conditions ++ keys), ends, by simp, by simp, ?_, hends, ?_⟩
  · simpa [hne.symm] using ⟨hconditions, hkeys⟩
  intro l o paging ends' hpaging hends'
  have hcounts := hpaging.endsClause ends'
  have hkeys' := hkeysStart.append hcounts
  have htable := hconditionsStart.append hkeys'
  obtain ⟨hlimit, hl, hoffset, ho⟩ := hpaging
  rw [List.cons_append, List.append_assoc]
  exact read_of_clauses (name_of_isNameToken ht (htable.head?_ne rfl (by simp)))
    (hwhere' _ hkeys') (horder' _ hcounts) (countClause_of_number hlimit hl _ _ _)
    (countClause_of_number hoffset ho _ _ _) (finish_of_semicolons hends')

end Clauses

/-! ### Aggregates -/

section Aggregates

variable {read : CountReader} {c : Cursor} {ts list : List Token} {call : AggregateCall}

/-- A call is the function, an opening parenthesis and the tokens behind it. -/
theorem length_of_firstCall? (h : firstCall? list = some call) :
    list.length = call.before + (call.behind.length + 2) := by
  induction list generalizing call with
  | nil => cases h
  | cons t ts ih =>
    rw [firstCall?_cons] at h
    split at h
    · rename_i hcall
      cases h
      obtain ⟨rest, rfl⟩ := List.head?_eq_some_iff.1 hcall.1
      rw [List.tail_cons, List.length_cons, List.length_cons, Nat.zero_add]
    · obtain ⟨call, hcall, rfl⟩ := Option.map_eq_some_iff.1 h
      rw [List.length_cons, ih hcall, Nat.add_right_comm]

theorem lt_length_of_closing? {depth n : Nat} (h : closing? depth ts = some n) : n < ts.length := by
  have hlength := congrArg List.length (eq_append_of_closing? h)
  rw [List.length_append, List.length_cons, List.length_take] at hlength
  omega

/-- An aggregate has the same pieces with a limit and an offset appended, but for these two. -/
theorem aggregatePieces?_paged {p : AggregatePieces} {body ends paging ends' : List Token}
    {l o : Nat} (h : aggregatePieces? read c (body ++ ends) = some p)
    (hs : p.source.Unpaged) (hall : p.source.conditions.all Option.isSome = true)
    (hbody : ∀ t ∈ body.getLast?, t ≠ .semicolon) (hends : ∀ t ∈ ends, t = .semicolon)
    (hpaging : PagingClauses l o paging) (hends' : ∀ t ∈ ends', t = .semicolon) :
    aggregatePieces? read c (body ++ (paging ++ ends')) =
        some { p with source := p.source.paged l o } ∧
      p.call.before + 3 + p.length ≤ body.length := by
  obtain ⟨_, _, _, hselect, hlist, hfrom, hsource, hcall, hlength⟩ := exists_of_aggregatePieces? h
  obtain ⟨front, ends₀, rfl, hne, hmark, hends₀, hpaged⟩ :=
    exists_read_paged hsource hs hall
  obtain ⟨select, hselect', hts⟩ := eq_cons_of_keyword hselect
  obtain ⟨from', hfrom', rfl⟩ := eq_cons_of_keyword hfrom
  obtain ⟨rfl, hcut⟩ := takeSpan_eq_iff.1 hlist
  have hlast : ∀ t ∈ ((select :: p.list ++ [from']) ++ front).getLast?, t ≠ .semicolon := by
    rintro t ht rfl
    rw [List.getLast?_append_of_ne_nil _ hne] at ht
    exact hmark (List.mem_of_getLast? ht)
  have hbody' : body = (select :: p.list ++ [from']) ++ front := by
    refine eq_of_append_semicolons (hts.trans ?_) hbody hlast hends hends₀
    simp
  subst hbody'
  have hlist := length_of_firstCall? hcall
  have hargument := lt_length_of_closing? hlength
  refine ⟨?_, by simp only [List.length_cons, List.length_append]; omega⟩
  have hcut' := hcut.of_head (front ++ (paging ++ ends'))
  simp only [List.cons_append, List.append_assoc, List.nil_append]
  exact aggregatePieces?_eq_some (keyword_of_isKeyword hselect' _) (takeSpan_of_cut hcut')
    (keyword_of_isKeyword hfrom' _) (hpaged hpaging hends') hcall hlength

end Aggregates

end Grammar

/-! ### Statements -/

/-- The tokens begin no call and number no markers. -/
def Inert (ts : List Token) : Prop :=
  ∀ t ∈ ts, t ≠ .openParen ∧ MarkerMode.isNumbered t = false

section Inert

variable {ts us : List Token}

theorem inert_semicolons (h : ∀ t ∈ ts, t = .semicolon) : Inert ts := by
  intro t ht
  rw [h t ht]
  exact ⟨nofun, rfl⟩

theorem PagingClauses.inert {l o : Nat} (h : PagingClauses l o ts) : Inert ts := by
  have hkeyword {k : Keyword} {t : Token} (ht : t.isKeyword k = true) :
      t ≠ .openParen ∧ MarkerMode.isNumbered t = false :=
    ⟨(ne_parens_of_isKeyword ht).1, holdsInClauses_isNumbered.keyword k t ht⟩
  obtain ⟨hlimit, -, hoffset, -⟩ := h
  simpa [Inert, hkeyword hlimit, hkeyword hoffset] using ⟨rfl, rfl⟩

theorem Inert.append (hts : Inert ts) (hus : Inert us) : Inert (ts ++ us) :=
  List.forall_mem_append.2 ⟨hts, hus⟩

theorem Inert.detect_append (h : Inert us) :
    MarkerMode.detect (ts ++ us) = MarkerMode.detect ts := by
  have hus : us.any MarkerMode.isNumbered = false :=
    List.any_eq_false.2 fun t ht => Bool.eq_false_iff.1 (h t ht).2
  rw [MarkerMode.detect, MarkerMode.detect, List.any_append, hus, Bool.or_false]

theorem Inert.kindOfTokens_append (h : Inert us) (hts : ts ≠ []) :
    kindOfTokens (ts ++ us) = kindOfTokens ts := by
  have hopen : ∀ t ∈ us, t ≠ .openParen := fun t ht => (h t ht).1
  refine kindOfTokens_congr (List.head?_append_of_ne_nil _ hts) ?_
  rw [hasAggregateCall_append fun hhead => hopen _ (List.mem_of_head? hhead) rfl,
    hasAggregateCall_eq_false_of_forall hopen, Bool.or_false]

end Inert

/-- The lexemes of a statement, and the lexemes of the same one with a limit and an offset appended.
Semicolons at the end do not matter. -/
inductive Pages (l o : Nat) : List Lexeme → List Lexeme → Prop
  | mk {body paging ends ends' : List Lexeme}
      (hbody : ∀ t ∈ (body.map Lexeme.token).getLast?, t ≠ .semicolon)
      (hpaging : PagingClauses l o (paging.map Lexeme.token))
      (hends : ∀ t ∈ ends.map Lexeme.token, t = .semicolon)
      (hends' : ∀ t ∈ ends'.map Lexeme.token, t = .semicolon) :
      Pages l o (body ++ ends) (body ++ (paging ++ ends'))

/-- Lexemes that are alike up to a place, with the appended clauses behind it. -/
theorem Pages.of_take {l o n : Nat} {ls ls' : List Lexeme} (htake : ls'.take n = ls.take n)
    (hbody : ∀ t ∈ ((ls.take n).map Lexeme.token).getLast?, t ≠ .semicolon)
    (hpaging : PagingClauses l o (((ls'.drop n).take 4).map Lexeme.token))
    (hends : ∀ t ∈ (ls.drop n).map Lexeme.token, t = .semicolon)
    (hends' : ∀ t ∈ ((ls'.drop n).drop 4).map Lexeme.token, t = .semicolon) : Pages l o ls ls' := by
  have hpages := Pages.mk hbody hpaging hends hends'
  rwa [List.take_append_drop, List.take_append_drop, ← htake, List.take_append_drop] at hpages

namespace Scan

variable {s s' : Scan} {read : Grammar.CountReader} {l o : Nat}

/-- If the statement is an aggregate that has a shape, then it has neither a limit nor an offset. -/
def Unpaged (s : Scan) (read : Grammar.CountReader) : Prop :=
  ∀ p ∈ Grammar.aggregatePieces? read (.start (.detect s.tokens)) s.tokens, p.source.Unpaged

instance (s : Scan) (read : Grammar.CountReader) : Decidable (s.Unpaged read) :=
  inferInstanceAs (Decidable (∀ p ∈ Grammar.aggregatePieces? .., _))

theorem excerpt_of_append {body rest rest' : List Lexeme} (h : s.lexemes = body ++ rest)
    (h' : s'.lexemes = body ++ rest') {index count : Nat} (hle : index + count ≤ body.length) :
    s'.excerpt index count = s.excerpt index count := by
  have hdrop (rest : List Lexeme) :
      ((body ++ rest).drop index).take count = (body.drop index).take count := by
    rw [List.drop_append_of_le_length (by omega), List.take_append_of_le_length]
    rw [List.length_drop]
    omega
  rw [excerpt, excerpt, h, h', hdrop, hdrop]

/-- With a limit and an offset appended, an aggregate is one still. If all its conditions became
filters, then it has the shape that it had. -/
theorem exists_prepareTokens_of_pages (h : Pages l o s.lexemes s'.lexemes)
    (hkind : kindOfTokens s.tokens = .aggregate) {p : Grammar.AggregatePieces}
    (hp : Grammar.aggregatePieces? read (.start (.detect s.tokens)) s.tokens = some p)
    (hs : p.source.Unpaged) (hall : p.source.conditions.all Option.isSome = true) :
    ∃ plan, s'.prepareTokens read = .ok (.aggregate plan) ∧
      plan.shape = some (p.shape s.excerpt) := by
  generalize hls : s.lexemes = ls at h
  generalize hls' : s'.lexemes = ls' at h
  obtain @⟨body, paging, ends, ends', hbody, hpaging, hends, hends'⟩ := h
  have htokens := congrArg (List.map Lexeme.token) hls
  have htokens' := congrArg (List.map Lexeme.token) hls'
  rw [← tokens, List.map_append] at htokens
  rw [← tokens, List.map_append, List.map_append] at htokens'
  rw [htokens, (inert_semicolons hends).detect_append] at hp
  obtain ⟨hpieces, hle⟩ := Grammar.aggregatePieces?_paged hp hs hall hbody hends hpaging hends'
  have hne : body.map Lexeme.token ≠ [] := List.ne_nil_of_length_pos (by omega)
  rw [List.length_map] at hle
  have hinert := hpaging.inert.append (inert_semicolons hends')
  have hkind' : kindOfTokens s'.tokens = .aggregate := by
    rw [htokens', hinert.kindOfTokens_append hne,
      ← (inert_semicolons hends).kindOfTokens_append hne, ← htokens, hkind]
  refine ⟨_, prepareTokens_aggregate hkind' read, ?_⟩
  rw [htokens', hinert.detect_append, hpieces, Option.map_some]
  simp only [Grammar.AggregatePieces.shape, excerpt_of_append hls hls' hle]
  rfl

end Scan

/-- The text of an aggregate whose conditions all became filters has the same shape with a limit and
an offset appended. -/
theorem exists_parse_of_pages {b : Bindings} {sql sql' : String} {s s' : Scan} {l o : Nat}
    {plan : AggregatePlan Value} {shape : AggregateShape Value} (hs : scanTrimmed sql = .ok s)
    (hs' : scanTrimmed sql' = .ok s') (h : Pages l o s.lexemes s'.lexemes)
    (hunpaged : s.Unpaged b.count?) (hparse : parse b sql = .ok (.aggregate plan))
    (hshape : plan.shape = some shape) (hexact : shape.exact = true) :
    ∃ plan', parse b sql' = .ok (.aggregate plan') ∧ plan'.shape = some shape := by
  obtain ⟨_, p, hscan, hp, hmap⟩ := exists_of_parse_eq_ok hparse
  cases hs.symm.trans hscan
  obtain ⟨plan, rfl⟩ : ∃ plan, p = .aggregate plan := by
    cases p <;> first | exact ⟨_, rfl⟩ | cases hmap
  cases hmap
  obtain ⟨shape, hshape', rfl⟩ := Option.map_eq_some_iff.1 hshape
  rw [(Scan.aggregate_of_prepareTokens hp).1] at hshape'
  obtain ⟨pieces, hpieces, rfl⟩ := Option.map_eq_some_iff.1 hshape'
  obtain ⟨plan', hp', hshape'⟩ := Scan.exists_prepareTokens_of_pages h
    (Scan.kindOfTokens_of_prepareTokens hp) hpieces (hunpaged pieces hpieces) hexact
  refine ⟨plan'.map b.value, by rw [parse_of_scan hs', hp']; rfl, ?_⟩
  rw [AggregatePlan.map, hshape', Option.map_some]

end TableSql
