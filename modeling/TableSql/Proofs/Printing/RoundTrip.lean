import TableSql.Proofs.Printing.Clauses

/-!
# Parsing undoes printing

Every statement on the rows of a table is printed with its names between double quotes, the marker
`?` in the place of every value, and its counts in digits. Parsed with its values as parameters, the
text gives the statement back. So every statement can be written, whatever characters its names and
values are made of.

## Main definitions

* `Statement.Printable` — the statements that are printed.
* `Statement.tokens`, `Statement.print` — a statement as tokens and as a text.
* `Statement.parameters` — the values of a statement, in the order of their markers.
* `Statement.form?` — the form that a statement is printed in.

## Main results

* `Statement.tokens_eq_map` — a printed statement is a written one.
* `Statement.prepared?_of_form?` — its form tells the statement.
* `parse_print` — parsing undoes printing.
-/

namespace TableSql

/-! ### Printing -/

namespace Statement

/-- The statements on the rows of a table, with names that can be printed. A list of columns and a
record have an entry at least, and so have the filters of a write. -/
def Printable : Statement Value → Prop
  | select q => IsName q.table ∧
      (∀ ws, q.columns = .named ws → ws ≠ [] ∧ ∀ w ∈ ws, IsName w) ∧
      (∀ f ∈ q.filters, IsName f.column) ∧ (∀ key ∈ q.order, IsName key.column) ∧
      (∀ n ∈ q.limit, n < UInt64.size) ∧ ∀ n ∈ q.offset, n < UInt64.size
  | insert table values => IsName table ∧ values.entries ≠ [] ∧ ∀ w ∈ values.names, IsName w
  | update table values filters => IsName table ∧
      (values.entries ≠ [] ∧ ∀ w ∈ values.names, IsName w) ∧
      filters ≠ [] ∧ ∀ f ∈ filters, IsName f.column
  | delete table filters => IsName table ∧ filters ≠ [] ∧ ∀ f ∈ filters, IsName f.column
  | aggregate _ => False
  | schema _ => False

/-- A statement as tokens, with a marker in the place of every value. -/
def tokens : Statement Value → List Token
  | select q => Keyword.SELECT.token :: (columnTokens q.columns ++ Keyword.FROM.token ::
      .quotedName q.table :: (whereTokens (q.filters.map Filter.column) ++ (orderTokens q.order ++
        (countTokens .LIMIT q.limit ++ countTokens .OFFSET q.offset))))
  | insert table values => Keyword.INSERT.token :: Keyword.INTO.token :: .quotedName table ::
      .openParen :: (nameTokens values.names ++ .closeParen :: Keyword.VALUES.token ::
        .openParen :: (markerTokens values.names.length ++ [.closeParen]))
  | update table values filters => Keyword.UPDATE.token :: .quotedName table ::
      Keyword.SET.token :: (assignmentTokens values.names ++ Keyword.WHERE.token ::
        conditionTokens (filters.map Filter.column))
  | delete table filters => Keyword.DELETE.token :: Keyword.FROM.token :: .quotedName table ::
      Keyword.WHERE.token :: conditionTokens (filters.map Filter.column)
  | aggregate _ => []
  | schema _ => []

/-- The text of a statement. -/
def print (s : Statement Value) : String :=
  printTokens s.tokens

/-- The values of a statement, in the order of their markers. -/
def parameters : Statement Value → List Value
  | select q => q.filters.map Filter.value
  | insert _ values => values.entries.map Prod.snd
  | update _ values filters => values.entries.map Prod.snd ++ filters.map Filter.value
  | delete _ filters => filters.map Filter.value
  | aggregate _ => []
  | schema _ => []

end Statement

/-! ### Values in the places of parameters -/

/-- So many parameters have the values at their places. -/
theorem map_value_parametersFrom {b : Bindings} {vs : List Value} {k : Nat}
    (h : vs <+: b.params.drop k) : (parametersFrom k vs.length).map b.value = vs := by
  induction vs generalizing k with
  | nil => rfl
  | cons v vs ih =>
    obtain ⟨after, hafter⟩ := h
    have hv : b.params[k]? = some v := by
      rw [← List.head?_drop, ← hafter]
      rfl
    have hvs : vs <+: b.params.drop (k + 1) :=
      ⟨after, by rw [← List.tail_drop, ← hafter]; rfl⟩
    rw [List.length_cons, parametersFrom_succ, List.map_cons, ih hvs, Bindings.value, hv]
    rfl

/-- Filters that take parameters in turn are the filters with the values at their places. -/
theorem map_parameterFilters {b : Bindings} {fs : List (Filter Value)} {k : Nat}
    (h : fs.map Filter.value <+: b.params.drop k) :
    (parameterFilters (fs.map Filter.column) k).map (Filter.map b.value) = fs := by
  have hvalues := map_value_parametersFrom h
  rw [List.length_map] at hvalues
  have hmap (ws : List String) (as : List Operand) :
      (List.zipWith Filter.mk ws as).map (Filter.map b.value) =
        List.zipWith Filter.mk ws (as.map b.value) := by
    rw [List.map_zipWith, List.zipWith_map_right]
    rfl
  rw [parameterFilters, List.length_map, hmap, hvalues, List.zipWith_map, List.zipWith_self]
  exact List.map_id fs

namespace Record

variable {α : Type}

/-- A name behind all others is assigned at the end. -/
theorem assign_of_forall_lt {name : String} {value : α} {es : List (String × α)}
    (h : ∀ e ∈ es, e.1 < name) : assign name value es = es ++ [(name, value)] := by
  induction es with
  | nil => rfl
  | cons e es ih =>
    obtain ⟨he, hes⟩ := List.forall_mem_cons.1 h
    have hlt : ¬name < e.1 := String.lt_asymm he
    have hne : name ≠ e.1 := by
      rintro rfl
      exact String.lt_irrefl _ he
    rw [assign, if_neg hlt, if_neg hne, ih hes]
    rfl

theorem entries_foldl_insert {es : List (String × α)} {r : Record α}
    (h : (r.entries ++ es).Pairwise fun a b => a.1 < b.1) :
    (es.foldl (fun r e => r.insert e.1 e.2) r).entries = r.entries ++ es := by
  induction es generalizing r with
  | nil => simp
  | cons e es ih =>
    have hinsert : (r.insert e.1 e.2).entries = r.entries ++ [e] :=
      assign_of_forall_lt fun d hd => (List.pairwise_append.1 h).2.2 d hd e List.mem_cons_self
    rw [List.foldl_cons, ih (by rw [hinsert]; simpa using h), hinsert]
    simp

/-- The record of entries in order has these entries. -/
theorem entries_ofList {es : List (String × α)} (h : es.Pairwise fun a b => a.1 < b.1) :
    (ofList es).entries = es :=
  entries_foldl_insert (r := empty) h

end Record

/-- A record that takes parameters in turn is the record with the values at their places. -/
theorem map_parameterRecord {b : Bindings} {values : Record Value} {k : Nat}
    (h : values.entries.map Prod.snd <+: b.params.drop k) :
    (parameterRecord values.names k).map b.value = values := by
  have hvalues := map_value_parametersFrom h
  rw [List.length_map, ← List.length_map Prod.fst] at hvalues
  have hfirst : (values.names.zip (parametersFrom k values.names.length)).map Prod.fst =
      values.names :=
    List.map_fst_zip (by simp)
  have hsorted : (values.names.zip (parametersFrom k values.names.length)).Pairwise
      fun x y => x.1 < y.1 := by
    rw [← List.pairwise_map (f := Prod.fst) (R := fun x y => x < y), hfirst]
    exact List.pairwise_map.2 values.sorted
  have hzip (ws : List String) (as : List Operand) :
      (ws.zip as).map (fun e => (e.1, b.value e.2)) = ws.zip (as.map b.value) := by
    rw [List.zip_map_right]
    rfl
  refine Record.ext ?_
  rw [Record.entries_map, parameterRecord, Record.entries_ofList hsorted, hzip, Record.names,
    hvalues, List.zip_map', List.map_id']

/-! ### Printed tokens -/

theorem forall_mem_joined {p : Token → Prop} {separator : Token} (hs : p separator)
    {tss : List (List Token)} (h : ∀ ts ∈ tss, ∀ t ∈ ts, p t) :
    ∀ t ∈ joined separator tss, p t := by
  induction tss with
  | nil => simp [joined]
  | cons ts tss ih =>
    obtain ⟨hts, htss⟩ := List.forall_mem_cons.1 h
    cases tss with
    | nil => exact hts
    | cons us tss =>
      intro t ht
      rw [joined, List.mem_append, List.mem_cons] at ht
      rcases ht with ht | rfl | ht
      · exact hts t ht
      · exact hs
      · exact ih htss t ht

namespace Token.Printed

theorem nameTokens {ws : List String} (h : ∀ w ∈ ws, IsName w) :
    ∀ t ∈ nameTokens ws, t.Printed := by
  refine forall_mem_joined comma ?_
  simpa using fun w hw => Printed.name (h w hw)

theorem equation {w : String} (h : IsName w) : ∀ t ∈ equation w, t.Printed := by
  simpa [TableSql.equation] using ⟨Printed.name h, Printed.equals, Printed.next⟩

theorem markerTokens (n : Nat) : ∀ t ∈ markerTokens n, t.Printed := by
  refine forall_mem_joined comma ?_
  intro ts hts t ht
  obtain ⟨-, rfl⟩ := List.mem_replicate.1 hts
  cases List.mem_singleton.1 ht
  exact .next

theorem assignmentTokens {ws : List String} (h : ∀ w ∈ ws, IsName w) :
    ∀ t ∈ assignmentTokens ws, t.Printed := by
  refine forall_mem_joined comma ?_
  simpa using fun w hw => equation (h w hw)

theorem conditionTokens {ws : List String} (h : ∀ w ∈ ws, IsName w) :
    ∀ t ∈ conditionTokens ws, t.Printed := by
  refine forall_mem_joined (.keyword .AND) ?_
  simpa using fun w hw => equation (h w hw)

theorem columnTokens {cols : Columns} (h : ∀ ws, cols = .named ws → ∀ w ∈ ws, IsName w) :
    ∀ t ∈ columnTokens cols, t.Printed := by
  cases cols with
  | all => simpa [TableSql.columnTokens] using Printed.star
  | named ws => exact nameTokens (h ws rfl)

theorem whereTokens {ws : List String} (h : ∀ w ∈ ws, IsName w) :
    ∀ t ∈ whereTokens ws, t.Printed := by
  unfold TableSql.whereTokens
  split
  · simp
  · exact List.forall_mem_cons.2 ⟨.keyword .WHERE, conditionTokens h⟩

theorem orderTokens {keys : List SortKey} (h : ∀ key ∈ keys, IsName key.column) :
    ∀ t ∈ orderTokens keys, t.Printed := by
  unfold TableSql.orderTokens
  split
  · simp
  · refine List.forall_mem_cons.2 ⟨.keyword .ORDER, List.forall_mem_cons.2 ⟨.keyword .BY, ?_⟩⟩
    refine forall_mem_joined comma ?_
    simpa using fun key hkey => ⟨Printed.name (h key hkey), .keyword key.direction.keyword⟩

theorem countTokens (k : Keyword) (n : Option Nat) : ∀ t ∈ countTokens k n, t.Printed := by
  cases n with
  | none => simp [TableSql.countTokens]
  | some n => simpa [TableSql.countTokens] using ⟨.keyword k, Printed.count n⟩

end Token.Printed

/-- Every token of a printable statement is a printed one. -/
theorem Statement.Printable.printed {s : Statement Value} (h : s.Printable) :
    ∀ t ∈ s.tokens, t.Printed := by
  have hcolumns {fs : List (Filter Value)} (hfs : ∀ f ∈ fs, IsName f.column) :
      ∀ w ∈ fs.map Filter.column, IsName w := by
    simpa using hfs
  cases s with
  | select q =>
    obtain ⟨htable, hcols, hfilters, horder, -, -⟩ := h
    have hnames := Token.Printed.columnTokens fun ws hws => (hcols ws hws).2
    simp only [tokens, List.forall_mem_cons, List.forall_mem_append]
    exact ⟨.keyword _, hnames, .keyword _, .name htable,
      Token.Printed.whereTokens (hcolumns hfilters), Token.Printed.orderTokens horder,
      Token.Printed.countTokens .LIMIT q.limit, Token.Printed.countTokens .OFFSET q.offset⟩
  | insert table values =>
    obtain ⟨htable, -, hnames⟩ := h
    simp only [tokens, List.forall_mem_cons, List.forall_mem_append]
    exact ⟨.keyword _, .keyword _, .name htable, .openParen, Token.Printed.nameTokens hnames,
      .closeParen, .keyword _, .openParen, Token.Printed.markerTokens _, .closeParen, by simp⟩
  | update table values filters =>
    obtain ⟨htable, ⟨-, hnames⟩, -, hfilters⟩ := h
    simp only [tokens, List.forall_mem_cons, List.forall_mem_append]
    exact ⟨.keyword _, .name htable, .keyword _, Token.Printed.assignmentTokens hnames,
      .keyword _, Token.Printed.conditionTokens (hcolumns hfilters)⟩
  | delete table filters =>
    obtain ⟨htable, -, hfilters⟩ := h
    simp only [tokens, List.forall_mem_cons]
    exact ⟨.keyword _, .keyword _, .name htable, .keyword _,
      Token.Printed.conditionTokens (hcolumns hfilters)⟩
  | aggregate plan => simp [tokens]
  | schema keyword => simp [tokens]

/-! ### The kind and the mode of printed tokens -/

namespace Token.Printed

variable {t : Token}

theorem isNumbered_eq_false (h : t.Printed) : MarkerMode.isNumbered t = false := by
  cases h <;> rfl

/-- No keyword is the name of an aggregate function, and a name between quotes calls none. -/
theorem isAggregateWord_eq_false (h : t.Printed) : t.isAggregateWord = false := by
  cases h with
  | keyword k => cases k <;> decide
  | _ => rfl

end Token.Printed

/-- Printed tokens in front of others do not decide of which kind the markers are. -/
theorem detect_append_of_printed {head : List Token} (h : ∀ t ∈ head, t.Printed)
    (ts : List Token) : MarkerMode.detect (head ++ ts) = MarkerMode.detect ts := by
  have hany : head.any MarkerMode.isNumbered = false := by
    rw [List.any_eq_false]
    intro t ht
    simp [(h t ht).isNumbered_eq_false]
  rw [MarkerMode.detect, List.any_append, hany, Bool.false_or, MarkerMode.detect]

/-- No aggregate call begins with a printed token. -/
theorem hasAggregateCall_append_of_printed {head : List Token} (h : ∀ t ∈ head, t.Printed)
    (ts : List Token) : hasAggregateCall (head ++ ts) = hasAggregateCall ts := by
  induction head with
  | nil => rfl
  | cons t head ih =>
    obtain ⟨ht, hhead⟩ := List.forall_mem_cons.1 h
    rw [List.cons_append, hasAggregateCall_cons, ht.isAggregateWord_eq_false, ih hhead,
      Bool.and_false, Bool.false_or]

/-- The kind of tokens that begin with printed ones is that of their first keyword, unless there is
an aggregate call behind them. -/
theorem kindOfTokens_append_of_printed {k : Keyword} {head : List Token}
    (h : ∀ t ∈ k.token :: head, t.Printed) (ts : List Token) :
    kindOfTokens (k.token :: (head ++ ts)) =
      if hasAggregateCall ts then .aggregate else k.statementKind := by
  have hcall := hasAggregateCall_append_of_printed h ts
  rw [List.cons_append, Keyword.token] at hcall
  rw [Keyword.token, kindOfTokens, hcall, ofWord?_spelling]
  rfl

/-! ### The form of a printed statement -/

namespace Statement

/-- The form that a statement on the rows of a table is printed in. -/
def form? : Statement Value → Option Form
  | select q => some (.select q.columns q.table (q.filters.map Filter.column)
      (q.order.map SortKey.form) (q.limit.map digitsForm) (q.offset.map digitsForm))
  | insert table values => some (.insert table values.names values.names.length)
  | update table values filters =>
    some (.update table values.names (filters.map Filter.column))
  | delete table filters => some (.delete table (filters.map Filter.column))
  | aggregate _ => none
  | schema _ => none

theorem Printable.exists_form? {s : Statement Value} (h : s.Printable) : ∃ f, s.form? = some f := by
  cases s with
  | aggregate plan => exact h.elim
  | schema keyword => exact h.elim
  | _ => exact ⟨_, rfl⟩

/-- The filters of a write are printed in a clause, since there is one at least. -/
theorem whereTokens_of_ne_nil {filters : List (Filter Value)} (h : filters ≠ []) :
    whereTokens (filters.map Filter.column) =
      Keyword.WHERE.token :: conditionTokens (filters.map Filter.column) := by
  rw [whereTokens, if_neg (by simpa using h)]

/-- A printed statement is written with its names between quotes. -/
theorem tokens_eq_map {s : Statement Value} (h : s.Printable) {f : Form} (hf : s.form? = some f) :
    s.tokens = f.pieces.map (Piece.write .quotedName) := by
  cases s with
  | select q =>
    cases hf
    simp only [tokens, columnTokens_eq_map, whereTokens_eq_map, orderTokens_eq_map,
      countTokens_eq_map, Form.pieces, List.map_cons, List.map_append, Piece.write]
  | insert table values =>
    cases hf
    simp only [tokens, nameTokens_eq_map, markerTokens_eq_map, Form.pieces, List.map_cons,
      List.map_append, List.map_nil, Piece.write]
  | update table values filters =>
    cases hf
    simp only [tokens, ← whereTokens_of_ne_nil h.2.2.1, assignmentTokens_eq_map, whereTokens_eq_map,
      Form.pieces, List.map_cons, List.map_append, Piece.write]
  | delete table filters =>
    cases hf
    simp only [tokens, ← whereTokens_of_ne_nil h.2.1, whereTokens_eq_map, Form.pieces,
      List.map_cons, Piece.write]
  | aggregate plan => exact h.elim
  | schema keyword => exact h.elim

/-- The form of a printed statement tells the statement, with its values as parameters. -/
theorem prepared?_of_form? {s : Statement Value} (h : s.Printable) {f : Form}
    (hf : s.form? = some f) (read : Grammar.CountReader) {b : Bindings}
    (hb : b.params = s.parameters) : (f.prepared? read).map (Statement.map b.value) = some s := by
  have hparams : s.parameters <+: b.params.drop 0 := by
    rw [hb]
    exact List.prefix_rfl
  cases s with
  | select q =>
    obtain ⟨-, hcols, -, -, hlimit, hoffset⟩ := h
    cases hf
    have hfilters : q.filters.map Filter.value <+: b.params.drop 0 := hparams
    have hcolumns : q.columns ≠ .named [] := fun hnil => (hcols [] hnil).1 rfl
    have horder : (q.order.map SortKey.form).map SortForm.key = q.order := by
      rw [List.map_map]
      exact List.map_id q.order
    rw [Form.prepared?, if_neg hcolumns, Grammar.countAt?_digitsForm read _ hlimit,
      Option.bind_some, Grammar.countAt?_digitsForm read _ hoffset, Option.map_some,
      Option.map_some, Statement.map, Select.map]
    dsimp only
    rw [map_parameterFilters hfilters, horder]
  | insert table values =>
    obtain ⟨-, hne, -⟩ := h
    cases hf
    have hvalues : values.entries.map Prod.snd <+: b.params.drop 0 := hparams
    have hnames : values.names ≠ [] := by simpa [Record.names] using hne
    rw [Form.prepared?, if_pos ⟨hnames, rfl⟩, Option.map_some, Statement.map,
      map_parameterRecord hvalues]
  | update table values filters =>
    obtain ⟨-, ⟨hne, -⟩, hne', -⟩ := h
    cases hf
    have hnames : values.names ≠ [] := by simpa [Record.names] using hne
    have hcolumns : filters.map Filter.column ≠ [] := by simpa using hne'
    have hvalues : values.entries.map Prod.snd <+: b.params.drop 0 :=
      (List.prefix_append _ _).trans hparams
    have hrest : b.params.drop values.names.length = filters.map Filter.value := by
      rw [hb]
      exact List.drop_left' (by simp [Record.names])
    have hfilters : filters.map Filter.value <+: b.params.drop values.names.length :=
      ⟨[], by rw [hrest, List.append_nil]⟩
    rw [Form.prepared?, if_pos ⟨hnames, hcolumns⟩, Option.map_some, Statement.map,
      map_parameterRecord hvalues, map_parameterFilters hfilters]
  | delete table filters =>
    obtain ⟨-, hne, -⟩ := h
    cases hf
    have hcolumns : filters.map Filter.column ≠ [] := by simpa using hne
    have hfilters : filters.map Filter.value <+: b.params.drop 0 := hparams
    rw [Form.prepared?, if_pos hcolumns, Option.map_some, Statement.map,
      map_parameterFilters hfilters]
  | aggregate plan => exact h.elim
  | schema keyword => exact h.elim

end Statement

/-! ### Parsing undoes printing -/

/-- Printed tokens are prepared as the statement, with its values in the places of parameters. -/
theorem prepareTokens_tokens {s : Scan} {st : Statement Value} (h : st.Printable)
    (hs : s.tokens = st.tokens) (read : Grammar.CountReader) {b : Bindings}
    (hb : b.params = st.parameters) :
    (s.prepareTokens read).map (Statement.map b.value) = .ok st := by
  obtain ⟨f, hf⟩ := h.exists_form?
  have hwrites : f.Writes Grammar.IsNameToken s.tokens := by
    rw [hs, Statement.tokens_eq_map h hf]
    exact Form.writes_map fun w _ => rfl
  have hcall := hasAggregateCall_append_of_printed h.printed []
  rw [List.append_nil, ← hs] at hcall
  have hprepared := Scan.toOption_prepareTokens_of_writes hwrites hcall read
  refine eq_ok_of_mem_toOption ?_
  rw [toOption_map, hprepared]
  exact Statement.prepared?_of_form? h hf read hb

/-- Parsing undoes printing: the text of a statement, with its values as parameters, is parsed to
the statement. -/
theorem parse_print {st : Statement Value} (h : st.Printable) (now : String) :
    parse ⟨st.parameters, now⟩ st.print = .ok st := by
  obtain ⟨s, hscan, hs⟩ := exists_scan_printTokens h.printed
  have hprepare : (s.prepareTokens (Bindings.count? ⟨st.parameters, now⟩)).map
      (Statement.map (Bindings.value ⟨st.parameters, now⟩)) = .ok st :=
    prepareTokens_tokens h hs _ rfl
  obtain ⟨p, hp, hmap⟩ := exists_of_map_eq_ok hprepare
  rw [Statement.print, parse_of_scan hscan, hp]
  exact congrArg Except.ok hmap

/-- Names may be keywords and look like markers and comments. -/
theorem parse_print_select :
    parse ⟨[.text "it's"], ""⟩
        "SELECT \"$1\", \"a b\" FROM \"SELECT\" WHERE \"--\" = ? ORDER BY \"?\" DESC LIMIT 3" =
      .ok (.select ⟨"SELECT", .named ["$1", "a b"], [⟨"--", .text "it's"⟩], [⟨"?", .descending⟩],
        some 3, none⟩) := by
  let q : Select Value :=
    ⟨"SELECT", .named ["$1", "a b"], [⟨"--", .text "it's"⟩], [⟨"?", .descending⟩], some 3, none⟩
  have hnames : ∀ w ∈ ["SELECT", "$1", "a b", "--", "?"], IsName w := by decide
  have hprintable : (Statement.select q).Printable := by
    refine ⟨hnames _ (by decide), ?_, ?_, ?_, ?_, ?_⟩
    · rintro ws heq
      cases heq
      refine ⟨by decide, fun w hw => hnames w ?_⟩
      simp only [List.mem_cons, List.not_mem_nil, or_false] at hw
      rcases hw with rfl | rfl <;> simp
    · simpa [q] using hnames "--" (by decide)
    · simpa [q] using hnames "?" (by decide)
    · simp [q, UInt64.size]
    · simp [q]
  have hprint : (Statement.select q).print =
      "SELECT \"$1\", \"a b\" FROM \"SELECT\" WHERE \"--\" = ? ORDER BY \"?\" DESC LIMIT 3" := by
    decide +kernel
  rw [← hprint]
  exact parse_print hprintable ""

example : (Statement.insert "t" ⟨[("a", .int 1), ("b", .null)], by decide⟩).print =
    "INSERT INTO \"t\" (\"a\", \"b\") VALUES (?, ?)" := by
  rfl

end TableSql
