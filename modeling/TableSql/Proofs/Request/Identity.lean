import TableSql.Proofs.Statement.Readers
import TableSql.Request

/-!
# What a request tells about its query

A service that is reached over a query string is given pairs of texts. A count is all digits and the
operand of a filter and a sort key have a point, so the pairs always tell the limit and the offset.
The names of a list stand with commas between them, and nothing in a name is escaped: a name with a
comma looks like two names, a column named `*` like all columns, and a filter on a column named
`order` may look like sort keys. Two queries with the same pairs agree exactly if their names have
their commas at the same places of the lists, and they do if their names are plain.

## Main definitions

* `Select.Alike` — queries that agree in everything but their tables and the kinds of their values.
* `Select.SameCuts` — names with the same numbers of commas, one by one.
* `Select.Plain` — names that look like nothing else.

## Main results

* `intercalate_inj` — joined texts tell the texts if the numbers of separators in them are known.
* `Select.pairs_eq_iff` — what the pairs of a query are put together from.
* `pairs_identify` — queries with the same pairs.
* `pairs_coincide` — different queries with the same pairs.
-/

namespace TableSql

/-! ### Joined texts -/

section Intercalate

variable {α : Type} [DecidableEq α] {sep : α} {xs ys us vs : List α}

/-- A text that ends in front of a separator, or at the end, is not longer than one with as many
separators. -/
theorem eq_nil_of_count_append (hcount : xs.count sep = (xs ++ us).count sep)
    (hus : ∀ a ∈ (us ++ vs).head?, a = sep) : us = [] := by
  cases us with
  | nil => rfl
  | cons a us =>
    obtain rfl : a = sep := hus a rfl
    simp at hcount

theorem append_inj_of_count (hcount : xs.count sep = ys.count sep)
    (hus : ∀ a ∈ us.head?, a = sep) (hvs : ∀ a ∈ vs.head?, a = sep) (h : xs ++ us = ys ++ vs) :
    xs = ys ∧ us = vs := by
  rcases List.append_eq_append_iff.1 h with ⟨as, rfl, rfl⟩ | ⟨bs, rfl, rfl⟩
  · obtain rfl := eq_nil_of_count_append hcount hus
    simp
  · obtain rfl := eq_nil_of_count_append hcount.symm hvs
    simp

/-- Joined texts tell the texts if it is known how many separators each of them has. -/
theorem intercalate_inj {ls ls' : List (List α)}
    (hcount : ls.map (List.count sep) = ls'.map (List.count sep))
    (h : [sep].intercalate ls = [sep].intercalate ls') : ls = ls' := by
  induction ls generalizing ls' with
  | nil => exact (List.map_eq_nil_iff.1 hcount.symm).symm
  | cons l ls ih =>
    cases ls' with
    | nil => cases hcount
    | cons l' ls' =>
      obtain ⟨hl, hls⟩ := List.cons.inj hcount
      cases ls with
      | nil =>
        obtain rfl := List.map_eq_nil_iff.1 hls.symm
        simpa using h
      | cons m ls =>
        cases ls' with
        | nil => cases hls
        | cons m' ls' =>
          rw [List.intercalate_cons_cons, List.intercalate_cons_cons, List.append_assoc,
            List.append_assoc] at h
          obtain ⟨rfl, htail⟩ := append_inj_of_count hl (by simp) (by simp) h
          rw [ih hls (List.append_cancel_left htail)]

end Intercalate

/-- How many commas a text has. -/
def commas (s : String) : Nat :=
  s.toList.count ','

theorem map_toList_inj {ss ss' : List String} (h : ss.map String.toList = ss'.map String.toList) :
    ss = ss' :=
  (List.map_inj_right fun _ _ => String.toList_inj.1).1 h

/-- Names with commas between them tell the names if it is known how many commas each of them
has. -/
theorem eq_of_intercalate_eq {ss ss' : List String} (hcommas : ss.map commas = ss'.map commas)
    (h : ",".intercalate ss = ",".intercalate ss') : ss = ss' := by
  have hcount : (ss.map String.toList).map (List.count ',') =
      (ss'.map String.toList).map (List.count ',') := by
    rw [List.map_map, List.map_map]
    exact hcommas
  exact map_toList_inj (intercalate_inj hcount (by simpa using congrArg String.toList h))

/-- Names without commas are told by the text with commas between them. -/
theorem eq_of_intercalate_eq_of_notMem {ss ss' : List String} (hne : ss ≠ []) (hne' : ss' ≠ [])
    (hss : ∀ s ∈ ss, ',' ∉ s.toList) (hss' : ∀ s ∈ ss', ',' ∉ s.toList)
    (h : ",".intercalate ss = ",".intercalate ss') : ss = ss' := by
  have hsplit {ss : List String} (hne : ss ≠ []) (hss : ∀ s ∈ ss, ',' ∉ s.toList) :
      ((",".intercalate ss).toList).splitOn ',' = ss.map String.toList := by
    have hlists : ∀ cs ∈ ss.map String.toList, ',' ∉ cs := List.forall_mem_map.2 hss
    simpa using List.splitOn_intercalate ',' hlists (by simpa using hne)
  refine map_toList_inj ?_
  rw [← hsplit hne hss, ← hsplit hne' hss', h]

/-! ### The pairs of a query -/

/-- Where all items of a kind stand in front of all others, both parts are told. -/
theorem append_inj_of_forall {α : Type} {p : α → Prop} {as as' bs bs' : List α}
    (has : ∀ a ∈ as, p a) (has' : ∀ a ∈ as', p a) (hbs : ∀ b ∈ bs, ¬p b) (hbs' : ∀ b ∈ bs', ¬p b)
    (h : as ++ bs = as' ++ bs') : as = as' ∧ bs = bs' := by
  classical
  have hfront {as bs : List α} (has : ∀ a ∈ as, p a) (hbs : ∀ b ∈ bs, ¬p b) :
      (as ++ bs).filter (fun a => decide (p a)) = as := by
    rw [List.filter_append, List.filter_eq_self.2 (by simpa using has),
      List.filter_eq_nil_iff.2 (by simpa using hbs), List.append_nil]
  obtain rfl : as = as' := by rw [← hfront has hbs, ← hfront has' hbs', h]
  exact ⟨rfl, List.append_cancel_left h⟩

/-- The text of a filter's operand has a point. -/
theorem point_mem_of_mem_filterPairs {fs : List (Filter Value)} {p : String × String}
    (h : p ∈ filterPairs fs) : '.' ∈ p.2.toList := by
  obtain ⟨f, -, rfl⟩ := List.mem_map.1 h
  dsimp only [filterOperand]
  split <;> simp

theorem point_mem_request (k : SortKey) : '.' ∈ k.request.toList := by
  obtain ⟨column, _ | _⟩ := k <;> simp [SortKey.request]

/-- The text of sort keys has a point. -/
theorem point_mem_of_mem_orderPair {ks : List SortKey} {p : String × String}
    (h : p ∈ orderPair ks) : '.' ∈ p.2.toList := by
  cases ks with
  | nil => cases h
  | cons k ks =>
    obtain rfl := List.mem_singleton.1 h
    cases ks with
    | nil => simpa using point_mem_request k
    | cons k' ks => simp [point_mem_request k]

/-- The text of a count has none. -/
theorem point_notMem_of_mem_countPair {key : String} {n : Option Nat} {p : String × String}
    (h : p ∈ countPair key n) : '.' ∉ p.2.toList := by
  cases n with
  | none => cases h
  | some n =>
    obtain rfl := List.mem_singleton.1 h
    intro hpoint
    rw [Decimal.text, String.toList_ofList] at hpoint
    exact absurd (Decimal.isDigit_of_mem_digits hpoint) (by decide)

theorem Decimal.text_inj {m n : Nat} (h : text m = text n) : m = n := by
  rw [← value_digits m, ← value_digits n, String.ofList_injective h]

/-- The pairs of a limit and an offset tell both. -/
theorem countPairs_inj {m m' n n' : Option Nat} (h : countPair "limit" m ++ countPair "offset" n =
    countPair "limit" m' ++ countPair "offset" n') : m = m' ∧ n = n' := by
  cases m <;> cases m' <;> cases n <;> cases n' <;> simp [countPair] at h ⊢ <;>
    first | exact Decimal.text_inj h | exact h.imp Decimal.text_inj Decimal.text_inj

theorem SortKey.request_inj {k k' : SortKey} (h : k.request = k'.request) : k = k' := by
  have hthird : k.request.toList.reverse[2]? = k'.request.toList.reverse[2]? := by rw [h]
  obtain ⟨column, direction⟩ := k
  obtain ⟨column', direction'⟩ := k'
  cases direction with
  | ascending =>
    cases direction' with
    | ascending => simpa [request] using h
    | descending => simp [request] at hthird
  | descending =>
    cases direction' with
    | ascending => simp [request] at hthird
    | descending => simpa [request] using h

theorem SortKey.commas_request (k : SortKey) : commas k.request = commas k.column := by
  obtain ⟨column, _ | _⟩ := k <;> simp [request, commas]

theorem SortKey.comma_notMem_request {k : SortKey} (h : ',' ∉ k.column.toList) :
    ',' ∉ k.request.toList := by
  rw [← List.count_eq_zero] at h ⊢
  exact k.commas_request.trans h

theorem orderPair_eq_iff {ks ks' : List SortKey} : orderPair ks = orderPair ks' ↔
    (ks = [] ↔ ks' = []) ∧
      ",".intercalate (ks.map SortKey.request) = ",".intercalate (ks'.map SortKey.request) := by
  cases ks with
  | nil => cases ks' <;> simp [orderPair]
  | cons k ks => cases ks' <;> simp [orderPair]

/-- The pair of sort keys tells them if it is known how many commas their columns have. -/
theorem orderPair_inj {ks ks' : List SortKey}
    (hcommas : ks.map (fun k => commas k.column) = ks'.map fun k => commas k.column)
    (h : orderPair ks = orderPair ks') : ks = ks' := by
  have hrequests : (ks.map SortKey.request).map commas = (ks'.map SortKey.request).map commas := by
    simpa only [List.map_map, Function.comp_def, SortKey.commas_request] using hcommas
  exact (List.map_inj_right fun _ _ => SortKey.request_inj).1
    (eq_of_intercalate_eq hrequests (orderPair_eq_iff.1 h).2)

/-- The pair of sort keys tells them if their columns have no commas. -/
theorem orderPair_inj_of_notMem {ks ks' : List SortKey} (hks : ∀ k ∈ ks, ',' ∉ k.column.toList)
    (hks' : ∀ k ∈ ks', ',' ∉ k.column.toList) (h : orderPair ks = orderPair ks') : ks = ks' := by
  obtain ⟨hnil, htext⟩ := orderPair_eq_iff.1 h
  by_cases hks_nil : ks = []
  · rw [hks_nil, hnil.1 hks_nil]
  · refine (List.map_inj_right fun _ _ => SortKey.request_inj).1
      (eq_of_intercalate_eq_of_notMem ?_ ?_ ?_ ?_ htext)
    · simpa using hks_nil
    · simpa using mt hnil.2 hks_nil
    · exact List.forall_mem_map.2 fun k hk => SortKey.comma_notMem_request (hks k hk)
    · exact List.forall_mem_map.2 fun k hk => SortKey.comma_notMem_request (hks' k hk)

namespace Select

variable {q q' : Select Value}

/-- The parts that the pairs of a query are put together from can be told apart, but for the filters
and the sort keys. -/
theorem pairs_eq_iff : q.pairs = q'.pairs ↔ q.columns.display = q'.columns.display ∧
    filterPairs q.filters ++ orderPair q.order = filterPairs q'.filters ++ orderPair q'.order ∧
    q.limit = q'.limit ∧ q.offset = q'.offset := by
  have hpoint (q : Select Value) :
      ∀ p ∈ filterPairs q.filters ++ orderPair q.order, '.' ∈ p.2.toList :=
    List.forall_mem_append.2
      ⟨fun _ => point_mem_of_mem_filterPairs, fun _ => point_mem_of_mem_orderPair⟩
  have hcount (q : Select Value) :
      ∀ p ∈ countPair "limit" q.limit ++ countPair "offset" q.offset, '.' ∉ p.2.toList :=
    List.forall_mem_append.2
      ⟨fun _ => point_notMem_of_mem_countPair, fun _ => point_notMem_of_mem_countPair⟩
  have hpairs (q : Select Value) : q.pairs = ("select", q.columns.display) ::
      ((filterPairs q.filters ++ orderPair q.order) ++
        (countPair "limit" q.limit ++ countPair "offset" q.offset)) := by
    simp [pairs]
  rw [hpairs q, hpairs q', List.cons.injEq, Prod.mk.injEq]
  constructor
  · rintro ⟨⟨-, hcolumns⟩, htail⟩
    obtain ⟨hfront, hcounts⟩ :=
      append_inj_of_forall (hpoint q) (hpoint q') (hcount q) (hcount q') htail
    exact ⟨hcolumns, hfront, countPairs_inj hcounts⟩
  · rintro ⟨hcolumns, hfront, hlimit, hoffset⟩
    rw [hfront, hlimit, hoffset]
    exact ⟨⟨rfl, hcolumns⟩, rfl⟩

/-- If both or neither of two queries are sorted, the filters and the sort keys can be told apart,
too. -/
theorem filterPairs_of_append_eq (horder : q.order = [] ↔ q'.order = [])
    (h : filterPairs q.filters ++ orderPair q.order =
      filterPairs q'.filters ++ orderPair q'.order) :
    filterPairs q.filters = filterPairs q'.filters ∧ orderPair q.order = orderPair q'.order := by
  refine List.append_inj' h ?_
  by_cases hnil : q.order = []
  · rw [hnil, horder.1 hnil]
  · simp [orderPair, hnil, mt horder.2 hnil]

/-! ### Queries with the same pairs -/

/-- The queries agree in their columns, sort keys, limit and offset, and in the columns and operands
of their filters. -/
structure Alike (q q' : Select Value) : Prop where
  columns : q.columns = q'.columns
  filters : filterPairs q.filters = filterPairs q'.filters
  order : q.order = q'.order
  limit : q.limit = q'.limit
  offset : q.offset = q'.offset

end Select

/-- The commas in the names of columns, one name after the other, if these are not all columns. -/
def Columns.cuts : Columns → Option (List Nat)
  | .all => none
  | .named names => some (names.map commas)

/-- Joined names of columns tell the names if their commas are known. -/
theorem Columns.eq_of_display_eq {columns columns' : Columns} (hcuts : columns.cuts = columns'.cuts)
    (h : columns.display = columns'.display) : columns = columns' := by
  cases columns with
  | all =>
    cases columns' with
    | all => rfl
    | named names' => cases hcuts
  | named names =>
    cases columns' with
    | all => cases hcuts
    | named names' => rw [eq_of_intercalate_eq (Option.some.inj hcuts) h]

namespace Select

/-- The names of the queries have the same numbers of commas, one by one: those of the columns,
unless both ask for all columns, and those of the sort keys. -/
structure SameCuts (q q' : Select Value) : Prop where
  columns : q.columns.cuts = q'.columns.cuts
  order : q.order.map (fun k => commas k.column) = q'.order.map fun k => commas k.column

/-- The names of the query look like nothing else: no name of a column or a sort key has a comma,
the only column is not named `*`, and no filter is on a column named `order`. -/
structure Plain (q : Select Value) : Prop where
  columns : ∀ names, q.columns = .named names → names ≠ ["*"] ∧ ∀ name ∈ names, ',' ∉ name.toList
  order : ∀ k ∈ q.order, ',' ∉ k.column.toList
  filters : ∀ f ∈ q.filters, f.column ≠ "order"

variable {q q' : Select Value}

/-- Queries with the same pairs agree exactly if their names have the same commas. -/
theorem alike_iff_sameCuts (h : q.pairs = q'.pairs) : q.Alike q' ↔ q.SameCuts q' := by
  obtain ⟨hcolumns, hfront, hlimit, hoffset⟩ := pairs_eq_iff.1 h
  constructor
  · intro halike
    exact ⟨congrArg _ halike.columns, congrArg _ halike.order⟩
  · intro hcuts
    have hnil : q.order = [] ↔ q'.order = [] := by
      rw [← List.map_eq_nil_iff, hcuts.order, List.map_eq_nil_iff]
    obtain ⟨hfilters, horder⟩ := filterPairs_of_append_eq hnil hfront
    exact ⟨Columns.eq_of_display_eq hcuts.columns hcolumns, hfilters,
      orderPair_inj hcuts.order horder, hlimit, hoffset⟩

/-- A query that is not sorted has pairs like one that is only if it has a filter on `order`. -/
theorem order_eq_nil_of_plain (hq : q.Plain) (h : filterPairs q.filters ++ orderPair q.order =
    filterPairs q'.filters ++ orderPair q'.order) (hnil : q.order = []) : q'.order = [] := by
  by_cases hne : q'.order = []
  · exact hne
  · have hfilters : filterPairs q.filters = filterPairs q'.filters ++ orderPair q'.order := by
      simpa [orderPair, hnil] using h
    have hmem : ("order", ",".intercalate (q'.order.map SortKey.request)) ∈
        filterPairs q.filters := by
      simp [hfilters, orderPair, hne]
    obtain ⟨f, hf, hpair⟩ := List.mem_map.1 hmem
    exact absurd (Prod.ext_iff.1 hpair).1 (hq.filters f hf)

theorem columns_eq_of_plain (hq : q.Plain) (hq' : q'.Plain) (hne : q.columns ≠ .named [])
    (hne' : q'.columns ≠ .named []) (h : q.columns.display = q'.columns.display) :
    q.columns = q'.columns := by
  have hstar : ∀ s ∈ ["*"], ',' ∉ s.toList := by simp
  cases hcolumns : q.columns with
  | all =>
    cases hcolumns' : q'.columns with
    | all => rfl
    | named names' =>
      rw [hcolumns, hcolumns'] at h
      obtain ⟨hall, hcommas⟩ := hq'.columns names' hcolumns'
      exact absurd (eq_of_intercalate_eq_of_notMem (by simp) (by simpa [hcolumns'] using hne')
        hstar hcommas (by simpa [Columns.display] using h)).symm hall
  | named names =>
    obtain ⟨hall, hcommas⟩ := hq.columns names hcolumns
    have hnil : names ≠ [] := by simpa [hcolumns] using hne
    cases hcolumns' : q'.columns with
    | all =>
      rw [hcolumns, hcolumns'] at h
      exact absurd (eq_of_intercalate_eq_of_notMem hnil (by simp) hcommas hstar
        (by simpa [Columns.display] using h)) hall
    | named names' =>
      rw [hcolumns, hcolumns'] at h
      rw [eq_of_intercalate_eq_of_notMem hnil (by simpa [hcolumns'] using hne') hcommas
        (hq'.columns names' hcolumns').2 h]

/-- Queries with the same pairs agree if their names are plain. -/
theorem alike_of_plain (hq : q.Plain) (hq' : q'.Plain) (hne : q.columns ≠ .named [])
    (hne' : q'.columns ≠ .named []) (h : q.pairs = q'.pairs) : q.Alike q' := by
  obtain ⟨hcolumns, hfront, hlimit, hoffset⟩ := pairs_eq_iff.1 h
  have hnil : q.order = [] ↔ q'.order = [] :=
    ⟨order_eq_nil_of_plain hq hfront, order_eq_nil_of_plain hq' hfront.symm⟩
  obtain ⟨hfilters, horder⟩ := filterPairs_of_append_eq hnil hfront
  exact ⟨columns_eq_of_plain hq hq' hne hne' hcolumns, hfilters,
    orderPair_inj_of_notMem hq.order hq'.order horder, hlimit, hoffset⟩

end Select

/-! ### Accepted queries -/

namespace Grammar

theorem names_ne_nil {ts rest : List Token} {ws : List String} (h : names ts = .ok (ws, rest)) :
    ws ≠ [] := by
  rw [names] at h
  split at h
  · cases h
  · split at h
    · cases h
      exact List.cons_ne_nil _ _
    · cases h
  · cases h
    exact List.cons_ne_nil _ _

theorem columns_ne_named_nil {ts rest : List Token} {cols : Columns}
    (h : columns ts = .ok (cols, rest)) : cols ≠ .named [] := by
  obtain ⟨rfl, -⟩ | ⟨ws, rfl, hnames⟩ := exists_of_columns_eq_ok h
  · exact nofun
  · exact fun hnil => names_ne_nil hnames (Columns.named.inj hnil)

end Grammar

/-- An accepted query asks for all columns or names at least one. -/
theorem columns_ne_named_nil_of_parse {b : Bindings} {sql : String} {q : Select Value}
    (h : parse b sql = .ok (.select q)) : q.columns ≠ .named [] := by
  obtain ⟨s, prepared, -, hselect, rfl⟩ := exists_select_of_parse h
  obtain ⟨_, _, cols, _, _, _, -, -, hcolumns, -, -, rfl⟩ := Grammar.exists_of_select_eq_ok hselect
  exact Grammar.columns_ne_named_nil hcolumns

/-- Two accepted queries whose requests have the same pairs have the same limit and offset. They
agree in their columns, their sort keys and the columns and operands of their filters exactly if the
commas in their names are the same, name by name, and they do if their names are plain. -/
theorem pairs_identify {b b' : Bindings} {sql sql' : String} {q q' : Select Value}
    (h : parse b sql = .ok (.select q)) (h' : parse b' sql' = .ok (.select q'))
    (hpairs : (TableQuery.ofSelect q).pairs = (TableQuery.ofSelect q').pairs) :
    q.limit = q'.limit ∧ q.offset = q'.offset ∧ (q.Alike q' ↔ q.SameCuts q') ∧
      (q.Plain → q'.Plain → q.Alike q') := by
  rw [TableQuery.pairs_ofSelect, TableQuery.pairs_ofSelect] at hpairs
  obtain ⟨-, -, hlimit, hoffset⟩ := Select.pairs_eq_iff.1 hpairs
  refine ⟨hlimit, hoffset, Select.alike_iff_sameCuts hpairs, fun hq hq' => ?_⟩
  exact Select.alike_of_plain hq hq' (columns_ne_named_nil_of_parse h)
    (columns_ne_named_nil_of_parse h') hpairs

/-- The query of a statement that is a reading. -/
def Statement.query? {α : Type} : Statement α → Option (Select α)
  | .select q => some q
  | _ => none

theorem parse_of_mem_query? {b : Bindings} {sql : String} {q : Select Value}
    (h : q ∈ (parse b sql).toOption.bind Statement.query?) : parse b sql = .ok (.select q) := by
  obtain ⟨statement, hstatement, hquery⟩ := Option.bind_eq_some_iff.1 h
  rw [eq_ok_of_mem_toOption hstatement]
  cases statement with
  | select q =>
    cases hquery
    rfl
  | _ => cases hquery

/-- A number and its text are the same operand, and a name is the same with and without quotes. -/
theorem pairs_identify_operand :
    ∃ q q', parse ⟨[.int 1], ""⟩ "SELECT a, b FROM t WHERE c = ? ORDER BY a" = .ok (.select q) ∧
      parse ⟨[], ""⟩ "SELECT \"a\", b FROM t WHERE \"c\" = '1' ORDER BY a ASC" = .ok (.select q') ∧
      (TableQuery.ofSelect q).pairs = (TableQuery.ofSelect q').pairs ∧ q.SameCuts q' ∧
      q.Alike q' := by
  have hqueries : ∃ q ∈ (parse ⟨[.int 1], ""⟩
        "SELECT a, b FROM t WHERE c = ? ORDER BY a").toOption.bind Statement.query?,
      ∃ q' ∈ (parse ⟨[], ""⟩
        "SELECT \"a\", b FROM t WHERE \"c\" = '1' ORDER BY a ASC").toOption.bind Statement.query?,
      (TableQuery.ofSelect q).pairs = (TableQuery.ofSelect q').pairs ∧
        q.columns.cuts = q'.columns.cuts ∧
        q.order.map (fun k => commas k.column) = q'.order.map fun k => commas k.column := by
    decide +kernel
  obtain ⟨q, hq, q', hq', hpairs, hcolumns, horder⟩ := hqueries
  have hq := parse_of_mem_query? hq
  have hq' := parse_of_mem_query? hq'
  have hcuts : q.SameCuts q' := ⟨hcolumns, horder⟩
  obtain ⟨-, -, halike, -⟩ := pairs_identify hq hq' hpairs
  exact ⟨q, q', hq, hq', hpairs, hcuts, halike.2 hcuts⟩

/-- One column whose name has a comma has the pairs of two columns, and a filter on a column named
`order` those of a sort key. -/
theorem pairs_coincide :
    (∃ q q', parse ⟨[], ""⟩ "SELECT \"a,b\" FROM t" = .ok (.select q) ∧
      parse ⟨[], ""⟩ "SELECT a, b FROM t" = .ok (.select q') ∧
      (TableQuery.ofSelect q).pairs = (TableQuery.ofSelect q').pairs ∧
      q.columns = .named ["a,b"] ∧ q'.columns = .named ["a", "b"]) ∧
    ∃ q q', parse ⟨[], ""⟩ "SELECT * FROM t WHERE \"order\" = 'asc'" = .ok (.select q) ∧
      parse ⟨[], ""⟩ "SELECT * FROM t ORDER BY eq" = .ok (.select q') ∧
      (TableQuery.ofSelect q).pairs = (TableQuery.ofSelect q').pairs ∧
      q.order = [] ∧ q'.order = [⟨"eq", .ascending⟩] := by
  have hcolumns :
      ∃ q ∈ (parse ⟨[], ""⟩ "SELECT \"a,b\" FROM t").toOption.bind Statement.query?,
      ∃ q' ∈ (parse ⟨[], ""⟩ "SELECT a, b FROM t").toOption.bind Statement.query?,
        (TableQuery.ofSelect q).pairs = (TableQuery.ofSelect q').pairs ∧
          q.columns = .named ["a,b"] ∧ q'.columns = .named ["a", "b"] := by decide +kernel
  have horder : ∃ q ∈ (parse ⟨[], ""⟩
        "SELECT * FROM t WHERE \"order\" = 'asc'").toOption.bind Statement.query?,
      ∃ q' ∈ (parse ⟨[], ""⟩ "SELECT * FROM t ORDER BY eq").toOption.bind Statement.query?,
        (TableQuery.ofSelect q).pairs = (TableQuery.ofSelect q').pairs ∧
          q.order = [] ∧ q'.order = [⟨"eq", .ascending⟩] := by decide +kernel
  obtain ⟨q, hq, q', hq', hcolumns⟩ := hcolumns
  obtain ⟨r, hr, r', hr', horder⟩ := horder
  exact ⟨⟨q, q', parse_of_mem_query? hq, parse_of_mem_query? hq', hcolumns⟩,
    r, r', parse_of_mem_query? hr, parse_of_mem_query? hr', horder⟩

end TableSql
