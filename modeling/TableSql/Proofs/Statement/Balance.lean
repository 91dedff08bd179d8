import TableSql.Proofs.Statement.Written
import TableSql.Proofs.Token.Lossless

/-!
# Parentheses and comments of accepted statements

An accepted statement never closes a parenthesis that it has not opened, and its lists and clauses
close all that they open. Only conditions are not looked into: a condition that is no comparison
is dropped whatever it is made of. The last one lasts to the end of the text if a parenthesis of it
stays open, and the text is accepted all the same. A block comment that is never closed is not read
as a comment, but as an operator and a star, and operators too stand in dropped conditions only. So
what is malformed about an accepted statement stands in a condition that it has dropped, and a
statement all of whose conditions are comparisons is well-formed.

## Main definitions

* `Opened`, `Balanced` — tokens that close what they have opened, and that close all of it.
* `Regular` — tokens that stand outside the conditions.
* `HasConditions` — the conjuncts of a statement, none if it has no conditions.
* `Scan.Unclosed` — a lexeme that opens a comment which is never closed.

## Main results

* `balanced_iff`, `opened_iff` — parentheses counted and parentheses matched.
* `Conjunction.openParens_eq_zero_iff` — conjuncts are balanced one by one.
* `Scan.unclosed_of_source` — a comment opened at a lexeme is never closed.
* `HasConditions.unique`, `Scan.exists_hasConditions_of_prepareTokens` — the conjuncts of accepted
  statements.
* `exists_hasConditions_of_parse` — where an accepted statement is malformed.
-/

namespace TableSql

/-! ### Counting parentheses -/

/-- The tokens never close more parentheses than they have opened. -/
def Opened (ts : List Token) : Prop :=
  ∀ front, front <+: ts → front.count .closeParen ≤ front.count .openParen

/-- The tokens never close more parentheses than they have opened, and close all of them. -/
structure Balanced (ts : List Token) : Prop where
  opened : Opened ts
  count_eq : ts.count .closeParen = ts.count .openParen

section Counting

variable {ts : List Token}

/-- As long as every closing parenthesis closes one, the open ones are those that are not closed. -/
theorem openParens_add_count {depth : Nat} (h : Uncut (fun _ => false) depth ts) :
    openParens depth ts + ts.count .closeParen = depth + ts.count .openParen := by
  induction ts generalizing depth with
  | nil => rfl
  | cons t ts ih =>
    obtain ⟨ht, hts⟩ := uncut_cons.1 h
    have hrest := ih hts
    rw [openParens_cons, List.count_cons, List.count_cons]
    cases t with
    | openParen =>
      simp only [Token.openBehind] at hrest ⊢
      simp
      omega
    | closeParen =>
      have hdepth : depth ≠ 0 := fun h => by cases ht h
      simp only [Token.openBehind] at hrest ⊢
      simp
      omega
    | _ => simpa [Token.openBehind] using hrest

theorem opened_iff : Opened ts ↔ Uncut (fun _ => false) 0 ts := by
  constructor
  · intro h
    induction ts using List.reverseRecOn with
    | nil => exact uncut_nil _ 0
    | append_singleton ts t ih =>
      have hts := ih fun front hfront => h front (hfront.trans (List.prefix_append ts [t]))
      refine uncut_append.2 ⟨hts, uncut_cons.2 ⟨fun hdepth => ?_, uncut_nil _ _⟩⟩
      have hcount := openParens_add_count hts
      have hall := h (ts ++ [t]) (List.prefix_refl _)
      rw [List.count_append, List.count_append] at hall
      cases t with
      | closeParen =>
        simp at hall
        omega
      | _ => rfl
  · rintro h front ⟨behind, rfl⟩
    have hcount := openParens_add_count (uncut_append.1 h).1
    omega

/-- Tokens are balanced if their parentheses are matched. -/
theorem balanced_iff : Balanced ts ↔ Closed (fun _ => false) ts := by
  constructor
  · intro h
    have huncut := opened_iff.1 h.opened
    have hcount := openParens_add_count huncut
    have heq := h.count_eq
    exact ⟨huncut, by omega⟩
  · intro h
    have hcount := openParens_add_count h.uncut
    have hopen := h.openParens_eq
    exact ⟨opened_iff.2 h.uncut, by omega⟩

end Counting

/-! ### Tokens outside the conditions -/

/-- Whether the token is an operator other than the equality sign. -/
def Token.isOperator : Token → Bool
  | operator _ => true
  | _ => false

/-- The tokens close what they open, no token ends a span outside their parentheses, and none is an
operator. -/
structure Regular (stop : Token → Bool) (ts : List Token) : Prop where
  closed : Closed stop ts
  plain : ∀ t ∈ ts, t.isOperator = false

section Regular

variable {stop : Token → Bool} {ts us : List Token} {t : Token}

theorem regular_nil (stop : Token → Bool) : Regular stop [] :=
  ⟨closed_of_forall nofun, nofun⟩

theorem Regular.append (hts : Regular stop ts) (hus : Regular stop us) : Regular stop (ts ++ us) :=
  ⟨hts.closed.append hus.closed, List.forall_mem_append.2 ⟨hts.plain, hus.plain⟩⟩

theorem regular_singleton (ho : t ≠ .openParen) (hc : t ≠ .closeParen) (ht : stop t = false)
    (hoperator : t.isOperator = false) : Regular stop [t] :=
  ⟨closed_singleton ho hc ht, List.forall_mem_singleton.2 hoperator⟩

theorem regular_of_forall (h : ∀ t ∈ ts, Regular stop [t]) : Regular stop ts :=
  ⟨closed_of_forall fun t ht => (h t ht).closed,
    fun t ht => (h t ht).plain t (List.mem_singleton_self t)⟩

theorem Regular.mono {stop' : Token → Bool} (h : ∀ t, stop' t = true → stop t = true)
    (hts : Regular stop ts) : Regular stop' ts :=
  ⟨hts.closed.mono h, hts.plain⟩

/-- Where nothing ends a span, fewer tokens do. -/
theorem Closed.unstopped (h : Closed stop ts) : Closed (fun _ => false) ts :=
  h.mono nofun

theorem Regular.balanced (h : Regular stop ts) : Balanced ts :=
  balanced_iff.2 h.closed.unstopped

theorem openParens_succ (stop : Token → Bool) {depth : Nat} (h : Uncut (fun _ => false) depth ts) :
    openParens (depth + 1) ts = openParens depth ts + 1 ∧ Uncut stop (depth + 1) ts := by
  induction ts generalizing depth with
  | nil => exact ⟨rfl, uncut_nil _ _⟩
  | cons t ts ih =>
    obtain ⟨ht, hts⟩ := uncut_cons.1 h
    obtain ⟨hopen, huncut⟩ := ih hts
    have hbehind : t.openBehind (depth + 1) = t.openBehind depth + 1 := by
      cases t with
      | closeParen =>
        have hdepth : depth ≠ 0 := fun h => by cases ht h
        simp only [Token.openBehind]
        omega
      | _ => rfl
    rw [openParens_cons, openParens_cons, hbehind, uncut_cons, hbehind]
    exact ⟨hopen, fun h => absurd h depth.succ_ne_zero, huncut⟩

/-- What stands between parentheses ends no span. -/
theorem Regular.parenthesized (h : Regular (fun _ => false) ts) :
    Regular stop (.openParen :: (ts ++ [.closeParen])) := by
  obtain ⟨hopen, huncut⟩ := openParens_succ stop h.closed.uncut
  rw [h.closed.openParens_eq] at hopen
  refine ⟨⟨uncut_cons.2 ⟨fun _ => rfl, uncut_append.2 ⟨huncut, ?_⟩⟩, ?_⟩, ?_⟩
  · rw [show Token.openBehind 0 .openParen = 0 + 1 from rfl, hopen]
    exact uncut_cons.2 ⟨nofun, uncut_nil _ _⟩
  · rw [openParens_cons, openParens_append,
      show Token.openBehind 0 .openParen = 0 + 1 from rfl, hopen]
    rfl
  · exact List.forall_mem_cons.2
      ⟨rfl, List.forall_mem_append.2 ⟨h.plain, by simp [Token.isOperator]⟩⟩

end Regular

/-! ### Lists and clauses -/

theorem regular_of_isKeyword {k : Keyword} (hk : k ≠ .WHERE) {t : Token}
    (h : t.isKeyword k = true) : Regular (Token.isKeyword .WHERE) [t] :=
  ⟨Grammar.closed_of_isKeyword hk h,
    List.forall_mem_singleton.2 (by cases t <;> first | rfl | cases h)⟩

theorem regular_of_freeName? {t : Token} {w : String} (h : Grammar.freeName? t = some w) :
    Regular (Token.isKeyword .WHERE) [t] :=
  ⟨Grammar.closed_of_freeName? h,
    List.forall_mem_singleton.2 (by cases t <;> first | rfl | cases h)⟩

theorem regular_comma (stop : Token → Bool) (h : stop .comma = false) : Regular stop [.comma] :=
  regular_singleton (by simp) (by simp) h rfl

theorem Names.regular {ts : List Token} {w : String} (h : Names ts w) :
    Regular (Token.isKeyword .WHERE) ts := by
  cases h with
  | mk ht => exact regular_of_freeName? ht

theorem Denotes.regular {ts : List Token} {a : Operand} (h : Denotes ts a) :
    Regular (fun _ => false) ts := by
  refine ⟨h.closed fun _ _ => rfl, ?_⟩
  cases h with
  | @token t ht => exact List.forall_mem_singleton.2 (by cases t <;> first | rfl | cases ht)
  | now => simp [Token.isOperator]
  | datetime => simp [Token.isOperator]

theorem Assigns.regular {ts : List Token} {x : String × Operand} (h : Assigns ts x) :
    Regular (Token.isKeyword .WHERE) ts := by
  cases h with
  | mk ht hspan hclosed =>
    have hvalue : Regular (Token.isKeyword .WHERE) _ :=
      ⟨hclosed.mono fun t ht => by simp [Grammar.endsAssignment, ht], hspan.regular.plain⟩
    exact (regular_of_freeName? ht).append
      ((regular_singleton (by simp) (by simp) rfl rfl : Regular _ [.equals]).append hvalue)

/-- A list is as regular as its items. -/
theorem Separated.regular {α : Type} {stop : Token → Bool} {Item : List Token → α → Prop}
    (hcomma : stop .comma = false) (hitem : ∀ {span a}, Item span a → Regular stop span)
    {ts : List Token} {as : List α} (h : Separated Item ts as) : Regular stop ts := by
  induction h with
  | last hspan => exact hitem hspan
  | comma hspan _ ih => exact (hitem hspan).append ((regular_comma stop hcomma).append ih)

theorem IsSortKey.regular {ts : List Token} (h : IsSortKey ts) :
    Regular (Token.isKeyword .WHERE) ts := by
  cases h with
  | plain ht => exact regular_of_freeName? ht
  | directed ht d hu =>
    exact (regular_of_freeName? ht).append (regular_of_isKeyword (by cases d <;> decide) hu)

theorem SortList.regular {ts : List Token} (h : SortList ts) :
    Regular (Token.isKeyword .WHERE) ts := by
  induction h with
  | last hkey => exact hkey.regular
  | comma hkey _ ih => exact hkey.regular.append ((regular_comma _ rfl).append ih)

theorem Optionally.regular {k : Keyword} (hk : k ≠ .WHERE) {body : List Token → Prop}
    {ts : List Token} (h : Optionally k body ts)
    (hbody : ∀ {ts}, body ts → Regular (Token.isKeyword .WHERE) ts) :
    Regular (Token.isKeyword .WHERE) ts := by
  cases h with
  | missing => exact regular_nil _
  | present ht h => exact (regular_of_isKeyword hk ht).append (hbody h)

theorem regular_of_semicolons {stop : Token → Bool} (hstop : stop .semicolon = false)
    {ts : List Token} (h : ∀ t ∈ ts, t = .semicolon) : Regular stop ts := by
  refine regular_of_forall fun t ht => ?_
  rw [h t ht]
  exact regular_singleton (by simp) (by simp) hstop rfl

theorem Ending.regular {ts : List Token} (h : Ending ts) :
    Regular (Token.isKeyword .WHERE) ts := by
  obtain ⟨order, limit, offset, semicolons, rfl, horder, hlimit, hoffset, hsemicolons⟩ := h
  have horder : Regular (Token.isKeyword .WHERE) order :=
    horder.regular (by decide) fun h => by
      cases h with
      | mk ht h => exact (regular_of_isKeyword (by decide) ht).append h.regular
  have hcount {ts : List Token} (h : IsCount ts) : Regular (Token.isKeyword .WHERE) ts := by
    cases h <;> exact regular_singleton (by simp) (by simp) rfl rfl
  exact horder.append ((hlimit.regular (by decide) hcount).append
    ((hoffset.regular (by decide) hcount).append (regular_of_semicolons rfl hsemicolons)))

theorem ending_of_semicolons {ts : List Token} (h : ∀ t ∈ ts, t = .semicolon) : Ending ts :=
  ⟨[], [], [], ts, rfl, .missing, .missing, .missing, h⟩

theorem Compares.regular {span : List Token} {f : Filter Operand} (h : Compares span f) :
    Regular (fun _ => false) span := by
  have hname {t : Token} {w : String} (ht : t.name? = some w) : Regular (fun _ => false) [t] :=
    regular_singleton (by rintro rfl; cases ht) (by rintro rfl; cases ht) rfl
      (by cases t <;> first | rfl | cases ht)
  have hkeyword {k : Keyword} {t : Token} (ht : t.isKeyword k = true) :
      Regular (fun _ => false) [t] :=
    regular_singleton (ne_parens_of_isKeyword ht).1 (ne_parens_of_isKeyword ht).2 rfl
      (by cases t <;> first | rfl | cases ht)
  cases h with
  | equals hcolumn hspan =>
    exact (hname hcolumn).append
      ((regular_singleton (by simp) (by simp) rfl rfl : Regular _ [.equals]).append hspan.regular)
  | null hcolumn his hnull => exact (hname hcolumn).append ((hkeyword his).append (hkeyword hnull))

/-! ### Conjuncts -/

namespace Conjunction

variable {ts ending span : List Token} {spans : List (List Token)}

/-- Conjuncts never close more parentheses than they open. -/
theorem uncut_of_mem (h : Conjunction ts spans ending) (hspan : span ∈ spans) :
    Uncut (fun _ => false) 0 span := by
  induction h with
  | last _ hcut _ =>
    rw [List.mem_singleton.1 hspan]
    exact hcut.uncut.mono nofun
  | and _ hcut _ _ ih =>
    rcases List.mem_cons.1 hspan with rfl | hspan
    · exact hcut.uncut.mono nofun
    · exact ih hspan

/-- Nothing stands behind a conjunct that leaves a parenthesis open. -/
theorem suffix_of_mem (h : Conjunction ts spans ending) (hspan : span ∈ spans)
    (hopen : openParens 0 span ≠ 0) : span <:+ ts := by
  induction h with
  | @last span' rest _ hcut _ =>
    obtain rfl := List.mem_singleton.1 hspan
    cases rest with
    | nil => rw [List.append_nil]
    | cons t rest => exact absurd (hcut.closed (by simp)).openParens_eq hopen
  | @and span' t ts spans rest _ hcut _ _ ih =>
    rcases List.mem_cons.1 hspan with rfl | hspan
    · exact absurd (hcut.closed (by simp)).openParens_eq hopen
    · exact (ih hspan).trans ⟨span' ++ [t], by simp⟩

/-- Conjuncts with an ending are balanced exactly if each of them is. -/
theorem closed_iff_of_ending (h : Conjunction ts spans ending)
    (hending : Closed (fun _ => false) ending) : Uncut (fun _ => false) 0 ts ∧
      (openParens 0 ts = 0 ↔ ∀ span ∈ spans, openParens 0 span = 0) := by
  induction h with
  | @last span rest _ hcut _ =>
    cases rest with
    | nil =>
      rw [List.append_nil]
      exact ⟨hcut.uncut.mono nofun, by simp⟩
    | cons t rest =>
      have hclosed : Closed (fun _ => false) span := (hcut.closed (by simp)).unstopped
      exact ⟨(hclosed.append hending).uncut, by
        simp [(hclosed.append hending).openParens_eq, hclosed.openParens_eq]⟩
  | @and span t ts spans rest _ hcut hand _ ih =>
    obtain ⟨huncut, hiff⟩ := ih hending
    obtain ⟨ho, hc⟩ := ne_parens_of_isKeyword hand
    have hspan : Closed (fun _ => false) span := (hcut.closed (by simp)).unstopped
    have hclosed : Closed (fun _ => false) (span ++ [t]) :=
      hspan.append (closed_singleton ho hc rfl)
    have hopen : openParens 0 (span ++ t :: ts) = openParens 0 ts := by
      rw [List.append_cons, openParens_append, hclosed.openParens_eq]
    have huncut' : Uncut (fun _ => false) 0 (span ++ t :: ts) := by
      rw [List.append_cons]
      exact uncut_append.2 ⟨hclosed.uncut, hclosed.openParens_eq.symm ▸ huncut⟩
    rw [hopen, hiff, List.forall_mem_cons]
    exact ⟨huncut', (and_iff_right hspan.openParens_eq).symm⟩

/-- An operator among the conjuncts and their ending is one of a conjunct. -/
theorem exists_of_isOperator {t : Token} (h : Conjunction ts spans ending)
    (hending : ∀ t ∈ ending, t.isOperator = false) (ht : t ∈ ts) (hoperator : t.isOperator = true) :
    ∃ span ∈ spans, t ∈ span := by
  induction h with
  | last _ _ _ =>
    rcases List.mem_append.1 ht with ht | ht
    · exact ⟨_, List.mem_singleton_self _, ht⟩
    · exact absurd (hending t ht) (by simp [hoperator])
  | and _ _ hand _ ih =>
    rcases List.mem_append.1 ht with ht | ht
    · exact ⟨_, List.mem_cons_self, ht⟩
    · rcases List.mem_cons.1 ht with rfl | ht
      · cases t <;> first | cases hand | cases hoperator
      · obtain ⟨span, hspan, hmem⟩ := ih hending ht
        exact ⟨span, List.mem_cons_of_mem _ hspan, hmem⟩

end Conjunction

/-! ### Statements -/

/-- The conjuncts of a statement: those behind its `WHERE`, or none if it has no conditions. -/
inductive HasConditions : List Token → List (List Token) → Prop
  | none {ts : List Token} (h : Regular (Token.isKeyword .WHERE) ts) : HasConditions ts []
  | some {before clause ending : List Token} {w : Token} {spans : List (List Token)}
      (hbefore : Regular (Token.isKeyword .WHERE) before) (hw : w.isKeyword .WHERE = true)
      (hspans : Conjunction clause spans ending) (hending : Ending ending) :
      HasConditions (before ++ w :: clause) spans

namespace HasConditions

variable {ts span : List Token} {spans spans' : List (List Token)}

/-- The tokens of a statement determine its conjuncts. -/
theorem unique (h : HasConditions ts spans) (h' : HasConditions ts spans') : spans = spans' := by
  have hnone {before clause : List Token} {w : Token} (hw : w.isKeyword .WHERE = true)
      (hbefore : Regular (Token.isKeyword .WHERE) before)
      (hall : Regular (Token.isKeyword .WHERE) (before ++ w :: clause)) : False := by
    have hends := hall.closed.uncut before w clause rfl hbefore.closed.openParens_eq
    exact Bool.false_ne_true (hends.symm.trans (endsSpan_where hw))
  generalize hts : ts = us at h'
  cases h with
  | none h =>
    cases h' with
    | none _ => rfl
    | some hbefore hw _ _ => exact (hnone hw hbefore (hts ▸ h)).elim
  | some hbefore hw hspans _ =>
    cases h' with
    | none h' => exact (hnone hw hbefore (hts ▸ h')).elim
    | some hbefore' hw' hspans' _ =>
      obtain ⟨-, -, rfl⟩ := eq_of_append_where hbefore.closed hw hbefore'.closed hw' hts
      exact hspans.unique hspans'

/-- A statement never closes more parentheses than it opens, and leaves one open exactly if one of
its conjuncts does. -/
theorem closed_iff_of_spans (h : HasConditions ts spans) : Uncut (fun _ => false) 0 ts ∧
    (openParens 0 ts = 0 ↔ ∀ span ∈ spans, openParens 0 span = 0) := by
  cases h with
  | none h => exact ⟨h.closed.unstopped.uncut, by simp [h.closed.openParens_eq]⟩
  | @some before clause ending w _ hbefore hw hspans hending =>
    obtain ⟨huncut, hiff⟩ := hspans.closed_iff_of_ending hending.regular.closed.unstopped
    obtain ⟨ho, hc⟩ := ne_parens_of_isKeyword hw
    have hfront : Closed (fun _ => false) (before ++ [w]) :=
      hbefore.closed.unstopped.append (closed_singleton ho hc rfl)
    rw [List.append_cons, openParens_append, hfront.openParens_eq]
    exact ⟨uncut_append.2 ⟨hfront.uncut, hfront.openParens_eq.symm ▸ huncut⟩, hiff⟩

/-- The conjuncts are cut out of the statement. -/
theorem flatten_subset (h : HasConditions ts spans) : spans.flatten ⊆ ts := by
  cases h with
  | none _ => simp
  | some _ _ hspans _ =>
    exact fun t ht => List.mem_append_right _ (List.mem_cons_of_mem _ (hspans.flatten_subset ht))

theorem uncut_of_mem (h : HasConditions ts spans) (hspan : span ∈ spans) :
    Uncut (fun _ => false) 0 span := by
  cases h with
  | none _ => cases hspan
  | some _ _ hspans _ => exact hspans.uncut_of_mem hspan

theorem balanced_iff_of_mem (h : HasConditions ts spans) (hspan : span ∈ spans) :
    Balanced span ↔ openParens 0 span = 0 :=
  balanced_iff.trans ⟨Closed.openParens_eq, fun hopen => ⟨h.uncut_of_mem hspan, hopen⟩⟩

/-- A statement is balanced exactly if all its conjuncts are. -/
theorem balanced_iff_of_spans (h : HasConditions ts spans) :
    Balanced ts ↔ ∀ span ∈ spans, Balanced span := by
  obtain ⟨huncut, hiff⟩ := h.closed_iff_of_spans
  rw [balanced_iff]
  constructor
  · exact fun hts span hspan =>
      (h.balanced_iff_of_mem hspan).2 (hiff.1 hts.openParens_eq span hspan)
  · exact fun hspans => ⟨huncut, hiff.2 fun span hspan =>
      (h.balanced_iff_of_mem hspan).1 (hspans span hspan)⟩

/-- A conjunct that is not balanced lasts to the end of the statement. -/
theorem suffix_of_mem (h : HasConditions ts spans) (hspan : span ∈ spans)
    (hunbalanced : ¬ Balanced span) : span <:+ ts := by
  have hopen := mt (h.balanced_iff_of_mem hspan).2 hunbalanced
  cases h with
  | none _ => cases hspan
  | @some before clause ending w _ hbefore hw hspans hending =>
    exact (hspans.suffix_of_mem hspan hopen).trans ⟨before ++ [w], by simp⟩

/-- Operators stand in conditions only. -/
theorem exists_of_isOperator {t : Token} (h : HasConditions ts spans) (ht : t ∈ ts)
    (hoperator : t.isOperator = true) : ∃ span ∈ spans, t ∈ span := by
  have hnot {us : List Token} (hus : Regular (Token.isKeyword .WHERE) us) (hmem : t ∈ us) : False :=
    Bool.false_ne_true ((hus.plain t hmem).symm.trans hoperator)
  cases h with
  | none h => exact (hnot h ht).elim
  | some hbefore hw hspans hending =>
    rcases List.mem_append.1 ht with ht | ht
    · exact (hnot hbefore ht).elim
    · rcases List.mem_cons.1 ht with rfl | ht
      · cases t <;> first | cases hw | cases hoperator
      · exact hspans.exists_of_isOperator hending.regular.plain ht hoperator

end HasConditions

/-! ### Readers -/

namespace Grammar

variable {c : Cursor} {ts : List Token} {table : String} {fs : List (Filter Operand)}

theorem hasConditions_of_readsFrom {before source : List Token} {spans : List (List Token)}
    (hbefore : Regular (Token.isKeyword .WHERE) before) (h : ReadsFrom table spans source) :
    HasConditions (before ++ source) spans := by
  cases h with
  | all ht hending =>
    exact .none (hbefore.append ((regular_of_freeName? ht).append hending.regular))
  | @filtered t w clause ending _ ht hw hspans hending =>
    rw [List.append_cons]
    exact .some (hbefore.append (regular_of_freeName? ht)) hw hspans hending

theorem hasConditions_of_writeFilters {verb : Keyword} {before : List Token}
    (hbefore : Regular (Token.isKeyword .WHERE) before) (hc : c.ByNumber ts)
    (h : writeFilters verb c ts = .ok fs) :
    ∃ spans, HasConditions (before ++ ts) spans ∧ Keeps spans fs := by
  obtain ⟨w, clause, spans, rest, hw, rfl, hspans, hrest, hkeeps, -⟩ :=
    exists_conjunction_of_writeFilters hc h
  exact ⟨spans, .some hbefore hw hspans (ending_of_semicolons hrest), hkeeps⟩

theorem exists_regular_of_columns {cols : Columns} {rest : List Token}
    (h : columns ts = .ok (cols, rest)) :
    ∃ list, ts = list ++ rest ∧ Regular (Token.isKeyword .WHERE) list := by
  obtain ⟨-, rfl⟩ | ⟨ws, -, hnames⟩ := exists_of_columns_eq_ok h
  · exact ⟨[.star], rfl, regular_singleton (by simp) (by simp) rfl rfl⟩
  · obtain ⟨list, rfl, hlist⟩ := separated_of_names hnames
    exact ⟨list, rfl, hlist.regular rfl Names.regular⟩

theorem hasConditions_of_select {read : CountReader} {q : Select Operand} (hc : c.ByNumber ts)
    (h : select read c ts = .ok q) : ∃ spans, HasConditions ts spans ∧ Keeps spans q.filters := by
  obtain ⟨t₁, ts₁, cols, t₂, ts₂, source, ht₁, rfl, hcolumns, ht₂, hsource, rfl⟩ :=
    exists_of_select_eq_ok h
  obtain ⟨spans, hreads, -, hconditions⟩ := readsFrom_of_read hsource
  obtain ⟨list, rfl, hlist⟩ := exists_regular_of_columns hcolumns
  have hbefore := (regular_of_isKeyword (by decide) ht₁).append
    (hlist.append (regular_of_isKeyword (by decide) ht₂))
  have hspans : HasConditions (t₁ :: (list ++ t₂ :: ts₂)) spans := by
    simpa using hasConditions_of_readsFrom hbefore hreads
  refine ⟨spans, hspans, ?_⟩
  rw [Source.filters, hconditions]
  exact keeps_conditions (hc.of_subset hspans.flatten_subset rfl)

theorem hasConditions_of_delete (hc : c.ByNumber ts) (h : delete c ts = .ok (table, fs)) :
    ∃ spans, HasConditions ts spans ∧ Keeps spans fs := by
  obtain ⟨t₁, t₂, _, rest, ht₁, ht₂, rfl, hname, hfs⟩ := exists_of_delete_eq_ok h
  obtain ⟨t₃, ht₃, rfl⟩ := eq_cons_of_name hname
  have hrest : c.ByNumber rest := hc.of_subset (fun t ht => by simp [ht]) rfl
  exact hasConditions_of_writeFilters ((regular_of_isKeyword (by decide) ht₁).append
    ((regular_of_isKeyword (by decide) ht₂).append (regular_of_freeName? ht₃))) hrest hfs

theorem hasConditions_of_update {values : Record Operand} (hc : c.ByNumber ts)
    (h : update c ts = .ok (table, values, fs)) :
    ∃ spans, HasConditions ts spans ∧ Keeps spans fs := by
  obtain ⟨t₁, t₂, t₃, assigned, rest, d, written, rfl, ht₁, ht₂, ht₃, hassigned, hmode, hfs, -⟩ :=
    exists_of_update hc h
  have hbefore := (regular_of_isKeyword (by decide) ht₁).append ((regular_of_freeName? ht₂).append
    ((regular_of_isKeyword (by decide) ht₃).append (hassigned.regular rfl Assigns.regular)))
  have hd : d.ByNumber rest := hc.of_subset (fun t ht => by simp [ht]) hmode
  obtain ⟨spans, hspans, hkeeps⟩ := hasConditions_of_writeFilters hbefore hd hfs
  exact ⟨spans, by simpa using hspans, hkeeps⟩

/-- An insertion has no conditions: what looks like one in its values stands between parentheses. -/
theorem hasConditions_of_insert {values : Record Operand} (hc : c.ByNumber ts)
    (h : insert c ts = .ok (table, values)) : HasConditions ts [] := by
  obtain ⟨written, hwritten, -⟩ := writesOut_of_insert hc h
  obtain ⟨ts₁, hinsert, -⟩ := exists_of_bind_eq_ok h
  obtain ⟨t, ht, hts⟩ := eq_cons_of_keyword hinsert
  cases hwritten with
  | @insert t₁ t₂ t₃ t₄ _ names spans ending _ _ ht₁ ht₂ ht₃ hnames ht₄ hspans _ hending =>
    have hnames : Regular (Token.isKeyword .WHERE) (.openParen :: (names ++ [.closeParen])) :=
      (hnames.regular rfl fun h => h.regular.mono nofun).parenthesized
    have hspans : Regular (Token.isKeyword .WHERE) (.openParen :: (spans ++ [.closeParen])) :=
      (hspans.regular rfl Denotes.regular).parenthesized
    have hall := (regular_of_isKeyword (by decide) ht₁).append
      ((regular_of_isKeyword (by decide) ht₂).append ((regular_of_freeName? ht₃).append
        (hnames.append ((regular_of_isKeyword (by decide) ht₄).append
          (hspans.append (regular_of_semicolons rfl hending))))))
    exact .none (by simpa using hall)
  | update hupdate =>
    rw [← (List.cons.inj hts).1] at ht
    exact absurd (isKeyword_unique ht hupdate) (by decide)

end Grammar

/-- An accepted reading or write has conjuncts, and its filters are those of the comparisons among
them, if its markers name their parameters. -/
theorem Scan.exists_hasConditions_of_prepareTokens {s : Scan} {read : Grammar.CountReader}
    {p : Statement Operand} (hs : (Cursor.start (.detect s.tokens)).ByNumber s.tokens)
    (h : s.prepareTokens read = .ok p)
    (hp : p.kind ∈ [StatementKind.select, .insert, .update, .delete]) :
    ∃ spans, HasConditions s.tokens spans ∧ Keeps spans p.filters := by
  have hkind := kindOfTokens_of_prepareTokens h
  unfold prepareTokens at h
  simp only [hkind] at h
  cases p with
  | select q =>
    obtain ⟨q', hselect, hp⟩ := exists_of_map_eq_ok h
    cases hp
    exact Grammar.hasConditions_of_select hs hselect
  | insert table values =>
    obtain ⟨r, hinsert, -⟩ := exists_of_map_eq_ok h
    exact ⟨[], Grammar.hasConditions_of_insert hs hinsert, .nil⟩
  | update table values fs =>
    obtain ⟨r, hupdate, hp⟩ := exists_of_map_eq_ok h
    cases hp
    exact Grammar.hasConditions_of_update hs hupdate
  | delete table fs =>
    obtain ⟨r, hdelete, hp⟩ := exists_of_map_eq_ok h
    cases hp
    exact Grammar.hasConditions_of_delete hs hdelete
  | aggregate plan => simp [Statement.kind] at hp
  | schema keyword => simp [Statement.kind] at hp

/-! ### Comments -/

theorem not_infix_of_blockCommentLength? {cs : List Char} (h : blockCommentLength? cs = none) :
    ¬['*', '/'] <:+: cs := by
  fun_induction blockCommentLength? cs with
  | case1 => simp
  | case2 => cases h
  | case3 c cs hne ih =>
    have hrest := ih (Option.map_eq_none_iff.1 h)
    rw [List.infix_cons_iff, not_or]
    refine ⟨?_, hrest⟩
    rintro ⟨behind, hbehind⟩
    obtain ⟨rfl, hcs⟩ := List.cons.inj hbehind
    exact hne behind rfl hcs.symm

namespace Scan

/-- The lexeme opens a block comment, and the comment is closed nowhere behind it. -/
def Unclosed (s : Scan) (l : Lexeme) : Prop :=
  ∃ front behind body, s.lexemes = front ++ l :: behind ∧
    l.source ++ Scan.source ⟨behind, s.trailing⟩ = '/' :: '*' :: body ∧ ¬['*', '/'] <:+: body

theorem eq_operator_of_spells {t : Token} {c : Char} {tail : List Char} (h : t.Spells (c :: tail))
    (hc : c = '/') : t = .operator "/" ∧ tail = [] := by
  have hclass (p : Char → Bool) (hp : p '/' = false) : ¬ p c = true := by
    simp [hc, hp]
  cases h with
  | numbered hsign => exact absurd hsign (by simp [hc])
  | quotedName hq => exact absurd hq (by simp [hc])
  | number hds => exact absurd hds.isDigit_head (hclass _ (by decide))
  | word hword => exact absurd hword (hclass _ (by decide))
  | long hlong => simp [hc, Token.longOperators] at hlong
  | short => exact ⟨by rw [hc], rfl⟩
  | mark hmark => simp [hc, Token.marks] at hmark
  | _ => exact absurd hc (by decide)

theorem joins_of_apart {trailing : List Char} {front behind : List Lexeme} {l : Lexeme}
    (h : Apart trailing (front ++ l :: behind)) :
    l.token.joins (Scan.source ⟨behind, trailing⟩) = false := by
  induction front with
  | nil => exact h.1
  | cons m front ih => exact ih h.2

/-- A comment that opens at a lexeme is never closed: the others are part of a gap. -/
theorem unclosed_of_source {s : Scan} {cs body : List Char} {front behind : List Lexeme}
    {l : Lexeme} (h : scan cs = .ok s) (hl : s.lexemes = front ++ l :: behind)
    (hsource : l.source ++ Scan.source ⟨behind, s.trailing⟩ = '/' :: '*' :: body) :
    s.Unclosed l ∧ l.token = .operator "/" := by
  obtain ⟨hs, -, ha, -⟩ := of_scanFrom h
  rw [hl] at hs ha
  have hspells : l.token.Spells l.source := (hs l (by simp)).2
  have hjoins := joins_of_apart ha
  obtain ⟨c, tail, hcons⟩ := List.exists_cons_of_ne_nil hspells.ne_nil
  rw [hcons] at hspells
  rw [hcons, List.cons_append] at hsource
  obtain ⟨hc, hbehind⟩ := List.cons.inj hsource
  obtain ⟨htoken, rfl⟩ := eq_operator_of_spells hspells hc
  rw [List.nil_append] at hbehind
  rw [htoken, hbehind, Token.joins, Bool.or_eq_false_iff] at hjoins
  have hblock : blockCommentLength? body = none := by
    simpa [Token.beginsComment, commentLength?] using hjoins.2
  refine ⟨⟨front, behind, body, hl, ?_, not_infix_of_blockCommentLength? hblock⟩, htoken⟩
  rw [hcons, hc, hbehind]
  rfl

end Scan

/-! ### Malformed statements -/

/-- Whatever is malformed about a statement stands in a conjunct that is dropped. -/
structure Scan.SoundBut (s : Scan) (spans : List (List Token)) : Prop where
  /-- The statement never closes more parentheses than it opens. -/
  opened : Opened s.tokens
  /-- It is balanced exactly if its conjuncts are. -/
  balanced_iff : Balanced s.tokens ↔ ∀ span ∈ spans, Balanced span
  /-- Nothing stands behind a conjunct that is not balanced, and the conjunct is dropped. -/
  unbalanced : ∀ span ∈ spans, ¬Balanced span →
    span <:+ s.byNumber.tokens ∧ ∀ f, ¬Compares span f
  /-- A comment that is never closed opens in a conjunct that is dropped. -/
  unclosed : ∀ l, s.Unclosed l → ∃ span ∈ spans, l.token ∈ span ∧ ∀ f, ¬Compares span f

/-- A statement all of whose conditions are comparisons is well-formed. -/
theorem Scan.SoundBut.of_comparisons {s : Scan} {spans : List (List Token)} (h : s.SoundBut spans)
    (hall : ∀ span ∈ spans, ∃ f, Compares span f) :
    Balanced s.tokens ∧ ∀ l, ¬s.Unclosed l := by
  constructor
  · refine h.balanced_iff.2 fun span hspan => ?_
    obtain ⟨f, hf⟩ := hall span hspan
    exact hf.regular.balanced
  · intro l hl
    obtain ⟨span, hspan, -, hdropped⟩ := h.unclosed l hl
    obtain ⟨f, hf⟩ := hall span hspan
    exact hdropped f hf

section Numbers

/-- Tokens are mapped without touching those that are no markers. -/
def KeepsMarks (f : Token → Token) : Prop :=
  ∀ t u, u.marker? = none → (f t = u ↔ t = u)

theorem Scan.exists_map_byNumber (s : Scan) :
    ∃ f, KeepsMarks f ∧ s.tokens = s.byNumber.tokens.map f := by
  unfold byNumber
  cases hmode : MarkerMode.detect s.tokens with
  | sequential =>
    exact ⟨Token.unnumbered, fun _ _ hu => Token.unnumbered_eq_iff hu,
      (map_unnumbered_numbered hmode).symm⟩
  | numbered => exact ⟨id, fun _ _ _ => Iff.rfl, (List.map_id _).symm⟩

variable {f : Token → Token} {ts : List Token}

theorem KeepsMarks.count (hf : KeepsMarks f) {u : Token} (hu : u.marker? = none) (ts : List Token) :
    (ts.map f).count u = ts.count u := by
  rw [List.count_eq_countP, List.count_eq_countP, List.countP_map]
  refine List.countP_congr fun t _ => ?_
  simpa using hf t u hu

theorem KeepsMarks.opened_map_iff (hf : KeepsMarks f) : Opened (ts.map f) ↔ Opened ts := by
  constructor
  · intro h front hfront
    have := h (front.map f) (hfront.map f)
    rwa [hf.count rfl, hf.count rfl] at this
  · rintro h _ ⟨behind, hbehind⟩
    obtain ⟨front, rest, rfl, rfl, -⟩ := List.append_eq_map_iff.1 hbehind
    rw [hf.count rfl, hf.count rfl]
    exact h front (List.prefix_append _ _)

theorem KeepsMarks.balanced_map_iff (hf : KeepsMarks f) : Balanced (ts.map f) ↔ Balanced ts := by
  have hcount : (ts.map f).count .closeParen = (ts.map f).count .openParen ↔
      ts.count .closeParen = ts.count .openParen := by
    rw [hf.count rfl, hf.count rfl]
  exact ⟨fun h => ⟨hf.opened_map_iff.1 h.opened, hcount.1 h.count_eq⟩,
    fun h => ⟨hf.opened_map_iff.2 h.opened, hcount.2 h.count_eq⟩⟩

end Numbers

/-- The conjuncts of a statement tell what is malformed about it. -/
theorem HasConditions.soundBut {s : Scan} {spans : List (List Token)} {cs : List Char}
    (hscan : scan cs = .ok s) (h : HasConditions s.byNumber.tokens spans) : s.SoundBut spans := by
  obtain ⟨f, hf, hmap⟩ := s.exists_map_byNumber
  constructor
  case opened =>
    rw [hmap, hf.opened_map_iff]
    exact opened_iff.2 h.closed_iff_of_spans.1
  case balanced_iff =>
    rw [hmap, hf.balanced_map_iff]
    exact h.balanced_iff_of_spans
  case unbalanced =>
    exact fun span hspan hunbalanced => ⟨h.suffix_of_mem hspan hunbalanced,
      fun f hcompares => hunbalanced hcompares.regular.balanced⟩
  case unclosed =>
    rintro l ⟨front, behind, body, hl, hsource, -⟩
    have htoken := (Scan.unclosed_of_source hscan hl hsource).2
    have hmem : l.token ∈ s.byNumber.tokens := by
      have hmem : l.token ∈ s.tokens := List.mem_map_of_mem (by rw [hl]; simp)
      rw [hmap] at hmem
      obtain ⟨t, ht, hft⟩ := List.mem_map.1 hmem
      rwa [← (hf t l.token (by rw [htoken]; rfl)).1 hft]
    have hoperator : l.token.isOperator = true := by rw [htoken]; rfl
    obtain ⟨span, hspan, hmem⟩ := h.exists_of_isOperator hmem hoperator
    refine ⟨span, hspan, hmem, fun f hcompares => ?_⟩
    exact Bool.false_ne_true ((hcompares.regular.plain _ hmem).symm.trans hoperator)

/-- The columns that the filters of a statement are on do not depend on its parameters. -/
theorem Statement.columns_filters_map {α β : Type} (g : α → β) (f : α → α) {p : Statement α}
    (hp : p.kind ∈ [StatementKind.select, .insert, .update, .delete]) :
    ((p.mapFilters f).map g).filters.map Filter.column = p.filters.map Filter.column := by
  cases p with
  | aggregate => simp [kind] at hp
  | _ => simp [mapFilters, Statement.map, filters, Select.map, Filter.map]

/-- Whatever is malformed about an accepted reading or write stands in a condition that is dropped,
so that there is no filter for it: one that is not balanced is the last thing in the text, and
comments that are never closed open in such conditions. If all conditions are comparisons, the
parentheses are balanced and all comments are closed. -/
theorem exists_hasConditions_of_parse {b : Bindings} {sql : String} {statement : Statement Value}
    (h : parse b sql = .ok statement)
    (hkind : statement.kind ∈ [StatementKind.select, .insert, .update, .delete]) :
    ∃ s spans fs, scanTrimmed sql = .ok s ∧ HasConditions s.byNumber.tokens spans ∧
      Keeps spans fs ∧ statement.filters.map Filter.column = fs.map Filter.column ∧
      s.SoundBut spans ∧
      ((∀ span ∈ spans, ∃ f, Compares span f) → Balanced s.tokens ∧ ∀ l, ¬s.Unclosed l) := by
  obtain ⟨s, read, p, f, hscan, hp, hs, rfl⟩ := exists_byNumber_of_parse h
  have hkind : p.kind ∈ [StatementKind.select, .insert, .update, .delete] := by
    cases p <;> exact hkind
  obtain ⟨spans, hspans, hkeeps⟩ := Scan.exists_hasConditions_of_prepareTokens hs hp hkind
  have hsound := hspans.soundBut hscan
  exact ⟨s, spans, p.filters, hscan, hspans, hkeeps, p.columns_filters_map b.value f hkind, hsound,
    hsound.of_comparisons⟩

/-- A comparison in front of a condition with an open parenthesis. -/
theorem exists_hasConditions_of_parse_open :
    ∃ statement, parse ⟨[.int 7], ""⟩ "UPDATE t SET a = ? WHERE b = 1 AND (c = 2" = .ok statement ∧
      statement.kind ∈ [StatementKind.select, .insert, .update, .delete] ∧
      ∃ s spans fs, scanTrimmed "UPDATE t SET a = ? WHERE b = 1 AND (c = 2" = .ok s ∧
        HasConditions s.byNumber.tokens spans ∧ Keeps spans fs ∧
        statement.filters.map Filter.column = fs.map Filter.column ∧ s.SoundBut spans ∧
        ((∀ span ∈ spans, ∃ f, Compares span f) → Balanced s.tokens ∧ ∀ l, ¬s.Unclosed l) := by
  have hparse : ∃ statement ∈
      (parse ⟨[.int 7], ""⟩ "UPDATE t SET a = ? WHERE b = 1 AND (c = 2").toOption,
      statement.kind ∈ [StatementKind.select, .insert, .update, .delete] := by decide +kernel
  obtain ⟨statement, hstatement, hkind⟩ := hparse
  have hparse := eq_ok_of_mem_toOption hstatement
  exact ⟨statement, hparse, hkind, exists_hasConditions_of_parse hparse hkind⟩

/-- A reading with an open parenthesis is accepted and reads the whole table; a removal with an open
comment is accepted, and what stands in the comment is read as a condition. -/
theorem malformed_accepted :
    (∃ s statement, scanTrimmed "SELECT * FROM t WHERE (a = 1" = .ok s ∧
      parse ⟨[], ""⟩ "SELECT * FROM t WHERE (a = 1" = .ok statement ∧
      statement.kind = .select ∧ statement.filters.length = 0 ∧ ¬Balanced s.tokens) ∧
    ∃ s statement l, scanTrimmed "DELETE FROM t WHERE a = 1 AND /* b = 2" = .ok s ∧
      parse ⟨[], ""⟩ "DELETE FROM t WHERE a = 1 AND /* b = 2" = .ok statement ∧
      statement.kind = .delete ∧ statement.filters.length = 1 ∧ s.Unclosed l := by
  have hopen : ∃ s ∈ (scanTrimmed "SELECT * FROM t WHERE (a = 1").toOption,
      ∃ statement ∈ (parse ⟨[], ""⟩ "SELECT * FROM t WHERE (a = 1").toOption,
        statement.kind = .select ∧ statement.filters.length = 0 ∧
          s.tokens.count .closeParen ≠ s.tokens.count .openParen := by decide +kernel
  have hcomment : ∃ s ∈ (scanTrimmed "DELETE FROM t WHERE a = 1 AND /* b = 2").toOption,
      ∃ statement ∈ (parse ⟨[], ""⟩ "DELETE FROM t WHERE a = 1 AND /* b = 2").toOption,
      ∃ l ∈ s.lexemes[8]?, statement.kind = .delete ∧ statement.filters.length = 1 ∧
        s.lexemes = s.lexemes.take 8 ++ l :: s.lexemes.drop 9 ∧
        l.source ++ Scan.source ⟨s.lexemes.drop 9, s.trailing⟩ = '/' :: '*' :: " b = 2".toList ∧
        ¬['*', '/'] <:+: " b = 2".toList := by decide +kernel
  obtain ⟨s, hs, statement, hstatement, hkind, hfilters, hcount⟩ := hopen
  obtain ⟨s', hs', statement', hstatement', l, -, hkind', hfilters', hunclosed⟩ := hcomment
  exact ⟨⟨s, statement, eq_ok_of_mem_toOption hs, eq_ok_of_mem_toOption hstatement, hkind, hfilters,
      fun hbalanced => hcount hbalanced.count_eq⟩,
    s', statement', l, eq_ok_of_mem_toOption hs', eq_ok_of_mem_toOption hstatement', hkind',
      hfilters', _, _, _, hunclosed⟩

end TableSql
