import TableSql.Proofs.Form.Clauses

/-!
# Written statements

The form of a statement on the rows of a table is everything that is written in it but the spelling
of its keywords and names: its columns, its conditions, its sort keys and its counts, with a marker
`?` for each value, and perhaps semicolons at the end. The form tells which statement is prepared
from the text, or that none is: because a list is empty or has the wrong length, or because a count
is none. How the names are written does not matter.

## Main definitions

* `Form`, `Form.pieces` — the forms of statements, and what is written for them.
* `Form.Writes` — the tokens of a statement of the form.
* `Form.names` — the names that are written.
* `Form.prepared?` — the statement that has the form.

## Main results

* `Grammar.select_of_written`, `Grammar.insert_of_written`, `Grammar.update_of_written`,
  `Grammar.delete_of_written` — the readers of statements take the form back.
* `Form.hasAggregateCall_of_writes` — which statements have an aggregate call.
* `Scan.toOption_prepareTokens_of_writes` — what is prepared from a statement of a form.
-/

namespace TableSql

/-- The name that a piece is. -/
def Piece.name? : Piece → Option String
  | name w => some w
  | _ => none

/-- A statement on the rows of a table as it is written, with a marker in the place of every value
that a column is assigned or compared with. -/
inductive Form where
  | select (columns : Columns) (table : String) (filters : List String) (order : List SortForm)
      (limit offset : Option CountForm)
  | insert (table : String) (columns : List String) (values : Nat)
  | update (table : String) (columns filters : List String)
  | delete (table : String) (filters : List String)

namespace Form

/-- The pieces of a statement. -/
def pieces : Form → List Piece
  | select columns table filters order limit offset =>
    .keyword .SELECT :: (columnPieces columns ++ .keyword .FROM :: .name table ::
      (wherePieces filters ++ (orderPieces order ++
        (countPieces .LIMIT limit ++ countPieces .OFFSET offset))))
  | insert table columns values =>
    .keyword .INSERT :: .keyword .INTO :: .name table :: .token .openParen ::
      (namePieces columns ++ .token .closeParen :: .keyword .VALUES :: .token .openParen ::
        (markerPieces values ++ [.token .closeParen]))
  | update table columns filters =>
    .keyword .UPDATE :: .name table :: .keyword .SET ::
      (assignmentPieces columns ++ wherePieces filters)
  | delete table filters =>
    .keyword .DELETE :: .keyword .FROM :: .name table :: wherePieces filters

/-- The table that rows are inserted into. -/
def insertedInto? : Form → Option String
  | insert table _ _ => some table
  | _ => none

/-- The tokens are a statement of the form, perhaps with semicolons at its end. -/
def Writes (naming : String → Token → Prop) (f : Form) (ts : List Token) : Prop :=
  ∃ us n, Written naming f.pieces us ∧ ts = us ++ List.replicate n .semicolon

/-- The names that are written in a statement, of its table and of its columns. -/
def names (f : Form) : List String :=
  f.pieces.filterMap Piece.name?

theorem mem_names {f : Form} {w : String} : w ∈ f.names ↔ .name w ∈ f.pieces := by
  rw [names, List.mem_filterMap]
  constructor
  · rintro ⟨p, hp, hname⟩
    cases p with
    | name w' => exact Option.some.inj hname ▸ hp
    | keyword k | token t => cases hname
  · intro h
    exact ⟨.name w, h, rfl⟩

theorem Writes.mono {naming naming' : String → Token → Prop} {f : Form} {ts : List Token}
    (h : f.Writes naming ts) (hnaming : ∀ w ∈ f.names, ∀ t, naming w t → naming' w t) :
    f.Writes naming' ts := by
  obtain ⟨us, n, hus, rfl⟩ := h
  exact ⟨us, n, hus.mono fun w t hw => hnaming w (mem_names.2 hw) t, rfl⟩

/-- The statement that has the form, if its lists are as long as they have to be and its counts are
counts. The parameters are taken from the front to the end. -/
def prepared? (read : Grammar.CountReader) : Form → Option (Statement Operand)
  | select columns table filters order limit offset =>
    if columns = .named [] then none
    else
      (Grammar.countAt? read filters.length limit).bind fun l =>
        (Grammar.countAt? read l.2 offset).map fun o =>
          .select ⟨table, columns, parameterFilters filters 0, order.map SortForm.key, l.1, o.1⟩
  | insert table columns values =>
    if columns ≠ [] ∧ columns.length = values then some (.insert table (parameterRecord columns 0))
    else none
  | update table columns filters =>
    if columns ≠ [] ∧ filters ≠ [] then
      some (.update table (parameterRecord columns 0) (parameterFilters filters columns.length))
    else none
  | delete table filters =>
    if filters ≠ [] then some (.delete table (parameterFilters filters 0)) else none

end Form

/-- What holds in clauses holds of all pieces of a form, if it holds of parentheses where there are
some. -/
theorem HoldsInClauses.pieces {P : Piece → Prop} (h : HoldsInClauses P) (f : Form)
    (hparens : f.insertedInto?.isSome → P (.token .openParen) ∧ P (.token .closeParen)) :
    ∀ p ∈ f.pieces, P p := by
  cases f with
  | select columns table filters order limit offset =>
    simp only [Form.pieces, List.forall_mem_cons, List.forall_mem_append]
    exact ⟨h.keyword _, h.columns columns, h.keyword _, h.name table, h.conditions filters,
      h.sortKeys order, h.count _ limit, h.count _ offset⟩
  | insert table columns values =>
    obtain ⟨hopen, hclose⟩ := hparens rfl
    simp only [Form.pieces, List.forall_mem_cons, List.forall_mem_append]
    exact ⟨h.keyword _, h.keyword _, h.name table, hopen, h.names columns, hclose, h.keyword _,
      hopen, h.markers values, hclose, by simp⟩
  | update table columns filters =>
    simp only [Form.pieces, List.forall_mem_cons, List.forall_mem_append]
    exact ⟨h.keyword _, h.name table, h.keyword _, h.assignments columns, h.conditions filters⟩
  | delete table filters =>
    simp only [Form.pieces, List.forall_mem_cons]
    exact ⟨h.keyword _, h.keyword _, h.name table, h.conditions filters⟩

/-- The tokens of an insertion. -/
theorem Form.exists_of_writes_insert {naming : String → Token → Prop}
    {table : String} {columns : List String} {m : Nat} {ts : List Token}
    (h : (Form.insert table columns m).Writes naming ts) :
    ∃ t₁ t₂ t₃ t₄ names markers n, t₁.isKeyword .INSERT = true ∧ t₂.isKeyword .INTO = true ∧
      naming table t₃ ∧ Written naming (namePieces columns) names ∧ t₄.isKeyword .VALUES = true ∧
      Written naming (markerPieces m) markers ∧
      ts = t₁ :: t₂ :: t₃ :: .openParen :: (names ++ .closeParen :: t₄ :: .openParen ::
        (markers ++ .closeParen :: List.replicate n .semicolon)) := by
  obtain ⟨_, n, h₁, rfl⟩ := h
  obtain ⟨t₁, _, ht₁, h₂, rfl⟩ := written_cons.1 h₁
  obtain ⟨t₂, _, ht₂, h₃, rfl⟩ := written_cons.1 h₂
  obtain ⟨t₃, _, ht₃, h₄, rfl⟩ := written_cons.1 h₃
  obtain ⟨_, _, rfl, h₅, rfl⟩ := written_cons.1 h₄
  obtain ⟨names, _, hnames, h₆, rfl⟩ := written_append.1 h₅
  obtain ⟨_, _, rfl, h₇, rfl⟩ := written_cons.1 h₆
  obtain ⟨t₄, _, ht₄, h₈, rfl⟩ := written_cons.1 h₇
  obtain ⟨_, _, rfl, h₉, rfl⟩ := written_cons.1 h₈
  obtain ⟨markers, _, hmarkers, h₁₀, rfl⟩ := written_append.1 h₉
  obtain ⟨_, _, rfl, hnil, rfl⟩ := written_cons.1 h₁₀
  refine ⟨t₁, t₂, t₃, t₄, names, markers, n, ht₁, ht₂, ht₃, hnames, ht₄, hmarkers, ?_⟩
  rw [written_nil.1 hnil]
  simp

/-! ### Failing readers -/

/-- No name stands at the end of a clause, if the keywords that may stand there are reserved. -/
theorem EndsClause.freeName?_eq_none {ks : List Keyword} {ts : List Token} (h : EndsClause ks ts)
    (hks : ∀ k ∈ ks, k.isReserved = true) : ∀ t ∈ ts.head?, Grammar.freeName? t = none := by
  intro t ht
  rcases h t ht with rfl | ⟨k, hk, hkey⟩
  · rfl
  · have hkeyword : t.keyword? = some k := of_decide_eq_true hkey
    cases t with
    | word w =>
      have hw : Keyword.ofWord? w = some k := hkeyword
      simp [Grammar.freeName?, Grammar.isReserved, hw, hks k hk]
    | _ => cases hkeyword

namespace Grammar

theorem finish_semicolons (n : Nat) : finish (List.replicate n .semicolon) = .ok () :=
  finish_of_semicolons fun _ => List.eq_of_mem_replicate

/-- Where no name stands, none is read. -/
theorem exists_name_eq_error {ts : List Token} (h : ∀ t ∈ ts.head?, freeName? t = none) :
    ∃ e, name ts = .error e := by
  cases ts with
  | nil => exact ⟨_, rfl⟩
  | cons t ts => exact ⟨_, by rw [name, h t rfl]⟩

/-! ### Readings -/

section Readings

variable {columns : Columns} {table : String} {filters : List String} {order : List SortForm}
  {limit offset : Option CountForm}

/-- What is written behind `FROM` is read back, if the counts are counts. -/
theorem read_of_written {t : Token} {conditions keys limits offsets : List Token}
    (ht : IsNameToken table t) (hfilters : Written IsNameToken (wherePieces filters) conditions)
    (horder : Written IsNameToken (orderPieces order) keys)
    (hlimit : Written IsNameToken (countPieces .LIMIT limit) limits)
    (hoffset : Written IsNameToken (countPieces .OFFSET offset) offsets) (n : Nat)
    (read : CountReader) :
    (Source.read read ⟨.sequential, 0⟩ (t :: (conditions ++ (keys ++ (limits ++ (offsets ++
        List.replicate n .semicolon)))))).toOption =
      (countAt? read filters.length limit).bind fun l => (countAt? read l.2 offset).map fun o =>
        ⟨table, (parameterFilters filters 0).map some, order.map SortForm.key, l.1, o.1⟩ := by
  have hend : EndsClause [] (List.replicate n .semicolon) := endsClause_semicolons _ n
  have hoffsets := (endsClause_countPieces hoffset).append hend
  have hcounts := (endsClause_countPieces hlimit).append hoffsets
  have hkeys := (endsClause_orderPieces horder).append hcounts
  have hwhere := (endsClause_wherePieces hfilters).append hkeys
  obtain ⟨spans, hspans, hall⟩ := whereClause_of_written hfilters hkeys
  rw [Source.read, name_of_isNameToken ht (hwhere.head?_ne rfl (by simp)), bind_ok]
  dsimp only
  rw [hspans, bind_ok, Cursor.conditions_of_written hall]
  dsimp only
  rw [orderClause_of_written horder hcounts, bind_ok]
  dsimp only
  rw [toOption_bind, countClause_of_written hlimit hoffsets (by decide), Nat.zero_add]
  cases countAt? read filters.length limit with
  | none => rfl
  | some l =>
    simp only [Option.map_some, Option.bind_some]
    rw [toOption_bind, countClause_of_written hoffset hend (by decide)]
    cases countAt? read l.2 offset with
    | none => rfl
    | some o =>
      simp only [Option.map_some, Option.bind_some]
      rw [finish_semicolons, bind_ok]
      rfl

/-- A written reading is read back, if its counts are counts and it has a column. -/
theorem select_of_written {ts : List Token}
    (h : (Form.select columns table filters order limit offset).Writes IsNameToken ts)
    (read : CountReader) :
    ((select read ⟨.sequential, 0⟩ ts).map Statement.select).toOption =
      (Form.select columns table filters order limit offset).prepared? read := by
  obtain ⟨_, n, h₁, rfl⟩ := h
  obtain ⟨t₁, _, ht₁, h₂, rfl⟩ := written_cons.1 h₁
  obtain ⟨cols, _, hcols, h₃, rfl⟩ := written_append.1 h₂
  obtain ⟨t₂, _, ht₂, h₄, rfl⟩ := written_cons.1 h₃
  obtain ⟨t₃, _, ht₃, h₅, rfl⟩ := written_cons.1 h₄
  obtain ⟨conditions, _, hfilters, h₆, rfl⟩ := written_append.1 h₅
  obtain ⟨keys, _, horder, h₇, rfl⟩ := written_append.1 h₆
  obtain ⟨limits, offsets, hlimit, hoffset, rfl⟩ := written_append.1 h₇
  have hfrom (ts : List Token) : EndsClause [.FROM] (t₂ :: ts) :=
    endsClause_cons List.mem_cons_self ht₂ ts
  simp only [List.cons_append, List.append_assoc]
  rw [Form.prepared?, select, keyword_of_isKeyword ht₁, bind_ok]
  by_cases hne : columns = .named []
  · subst hne
    obtain ⟨e, he⟩ := exists_name_eq_error ((hfrom _).freeName?_eq_none (by decide))
    rw [written_nil.1 hcols, List.nil_append, columns_of_head? ((hfrom _).head?_ne rfl (by simp)),
      names_of_error he]
    rfl
  · rw [columns_of_written hne hcols ((hfrom _).head?_ne rfl (by simp))
      ((hfrom _).head?_ne rfl (by simp)), bind_ok]
    dsimp only
    rw [keyword_of_isKeyword ht₂, bind_ok, toOption_map, toOption_bind,
      read_of_written ht₃ hfilters horder hlimit hoffset n read]
    rw [if_neg hne]
    cases countAt? read filters.length limit with
    | none => rfl
    | some l =>
      simp only [Option.bind_some]
      cases countAt? read l.2 offset with
      | none => rfl
      | some o =>
        simp only [Option.map_some, Option.bind_some, Source.filters, List.filterMap_map,
          Function.id_comp, List.filterMap_some]
        rfl

end Readings

/-! ### Insertions -/

/-- A written insertion is read back, if it has a column and as many values as columns. -/
theorem insert_of_written {table : String} {columns : List String} {m : Nat} {ts : List Token}
    (h : (Form.insert table columns m).Writes IsNameToken ts) (read : CountReader) :
    ((insert ⟨.sequential, 0⟩ ts).map fun r => Statement.insert r.1 r.2).toOption =
      (Form.insert table columns m).prepared? read := by
  obtain ⟨t₁, t₂, t₃, t₄, names, markers, n, ht₁, ht₂, ht₃, hnames, ht₄, hmarkers, rfl⟩ :=
    Form.exists_of_writes_insert h
  have hmark {u : Token} {r : RequiredMark} (ts : List Token) : mark u r (u :: ts) = .ok ts :=
    if_pos rfl
  have hend : EndsClause [] (List.replicate n .semicolon) := endsClause_semicolons _ n
  rw [Form.prepared?, insert, keyword_of_isKeyword ht₁, bind_ok, keyword_of_isKeyword ht₂, bind_ok,
    name_of_isNameToken ht₃ (by simp), bind_ok]
  dsimp only
  rw [hmark, bind_ok]
  by_cases hcolumns : columns = []
  · obtain ⟨e, he⟩ : ∃ e, name (.closeParen :: t₄ :: .openParen :: (markers ++ .closeParen ::
        List.replicate n .semicolon)) = .error e := exists_name_eq_error (by simp [freeName?])
    subst hcolumns
    rw [written_nil.1 hnames, List.nil_append, names_of_error he, if_neg (by simp)]
    rfl
  rw [names_of_written hcolumns hnames (by simp) (by simp), bind_ok]
  dsimp only
  rw [hmark, bind_ok, keyword_of_isKeyword ht₄, bind_ok, hmark, bind_ok]
  by_cases hm : m = 0
  · subst hm
    rw [written_nil.1 hmarkers, List.nil_append, values_of_error (operand_of_nil rfl _),
      if_neg (by simp [hcolumns])]
    rfl
  rw [values_of_written 0 hm hmarkers, bind_ok]
  dsimp only
  rw [hmark, bind_ok, if_neg (hend.head?_ne rfl (by simp)), finish_semicolons, bind_ok,
    length_parametersFrom]
  by_cases hlength : columns.length = m
  · subst hlength
    rw [if_neg (not_not_intro rfl), if_pos ⟨hcolumns, rfl⟩]
    rfl
  · rw [if_pos hlength, if_neg fun h => hlength h.2]
    rfl

/-! ### Changes and removals -/

/-- The filters of a written write are read back, if there is one. -/
theorem writeFilters_of_written (verb : Keyword) (k : Nat) {filters : List String}
    (hne : filters ≠ []) {us : List Token} (h : Written IsNameToken (wherePieces filters) us)
    (n : Nat) :
    writeFilters verb ⟨.sequential, k⟩ (us ++ List.replicate n .semicolon) =
      .ok (parameterFilters filters k) := by
  rw [wherePieces, if_neg hne] at h
  obtain ⟨t, us, ht, hus, rfl⟩ := written_cons.1 h
  obtain ⟨spans, hspans, hall⟩ := conjuncts_of_written hne hus (endsClause_semicolons _ n)
  have hfilters : (parameterFilters filters k).isEmpty = false := by
    simp [parameterFilters, parametersFrom, hne]
  rw [List.cons_append, writeFilters, keyword_of_isKeyword ht, bind_ok, hspans, bind_ok]
  dsimp only
  rw [finish_semicolons, bind_ok, Cursor.conditions_of_written hall, List.filterMap_map,
    Function.id_comp, List.filterMap_some, hfilters]
  rfl

/-- Without a `WHERE` there is no write. -/
theorem exists_where_of_update {c : Cursor} {ts : List Token}
    {r : String × Record Operand × List (Filter Operand)} (h : update c ts = .ok r) :
    ∃ t ∈ ts, t.isKeyword .WHERE = true := by
  obtain ⟨t₁, _, t₃, _, xs, d, _, -, rfl, hname, -, hassigned, hfs, -⟩ := exists_of_update_eq_ok h
  obtain ⟨clause, -, -, hwhere, -⟩ := exists_of_writeFilters hfs
  obtain ⟨t₂, -, rfl⟩ := eq_cons_of_name hname
  obtain ⟨taken, rfl, -, -⟩ := closed_of_assignments hassigned
  obtain ⟨w, hw, rfl⟩ := eq_cons_of_keyword hwhere
  exact ⟨w, by simp, hw⟩

/-- No token that stands for the piece is a `WHERE`. -/
def NeverWhere (p : Piece) : Prop :=
  ∀ t, p.Is IsNameToken t → t.isKeyword .WHERE = false

theorem neverWhere_keyword {k : Keyword} (hk : k ≠ .WHERE) : NeverWhere (.keyword k) :=
  fun _ ht => decide_eq_false fun hwhere => hk (isKeyword_unique ht (decide_eq_true hwhere))

theorem neverWhere_name (w : String) : NeverWhere (.name w) :=
  fun _ ht => ht.isKeyword_eq_false rfl

theorem neverWhere_token {u : Token} (hu : u.keyword? = none) : NeverWhere (.token u) := by
  rintro t rfl
  simp [Token.isKeyword, hu]

/-- Without a condition there is no `WHERE` in a change. -/
theorem forall_isKeyword_where_eq_false {table : String} {columns : List String} {ts : List Token}
    (h : (Form.update table columns []).Writes IsNameToken ts) :
    ∀ t ∈ ts, t.isKeyword .WHERE = false := by
  have hassigned : ∀ p ∈ assignmentPieces columns, NeverWhere p := by
    refine forall_mem_listed (neverWhere_token rfl) ?_
    simpa [equationPieces] using
      fun w _ => ⟨neverWhere_name w, neverWhere_token rfl, neverWhere_token rfl⟩
  have hpieces : ∀ p ∈ (Form.update table columns []).pieces, NeverWhere p := by
    rw [Form.pieces, wherePieces, if_pos rfl, List.append_nil]
    exact List.forall_mem_cons.2 ⟨neverWhere_keyword (by decide),
      List.forall_mem_cons.2 ⟨neverWhere_name table,
        List.forall_mem_cons.2 ⟨neverWhere_keyword (by decide), hassigned⟩⟩⟩
  obtain ⟨us, n, hus, rfl⟩ := h
  refine List.forall_mem_append.2 ⟨hus.forall_mem hpieces, fun t ht => ?_⟩
  rw [List.eq_of_mem_replicate ht]
  rfl

/-- So a change without a condition is refused. -/
theorem exists_update_eq_error {table : String} {columns : List String} {ts : List Token}
    (h : (Form.update table columns []).Writes IsNameToken ts) (c : Cursor) :
    ∃ e, update c ts = .error e := by
  cases hupdate : update c ts with
  | error e => exact ⟨e, rfl⟩
  | ok r =>
    obtain ⟨t, ht, hwhere⟩ := exists_where_of_update hupdate
    exact absurd hwhere (Bool.eq_false_iff.1 (forall_isKeyword_where_eq_false h t ht))

/-- A written change is read back, if it has a column and a condition. The parameters of its filters
are behind those of its values. -/
theorem update_of_written {table : String} {columns filters : List String} {ts : List Token}
    (h : (Form.update table columns filters).Writes IsNameToken ts) (read : CountReader) :
    ((update ⟨.sequential, 0⟩ ts).map fun r => Statement.update r.1 r.2.1 r.2.2).toOption =
      (Form.update table columns filters).prepared? read := by
  by_cases hnone : filters = []
  · subst hnone
    obtain ⟨e, he⟩ := exists_update_eq_error h ⟨.sequential, 0⟩
    rw [he, Form.prepared?, if_neg (by simp)]
    rfl
  obtain ⟨_, n, h₁, rfl⟩ := h
  obtain ⟨t₁, _, ht₁, h₂, rfl⟩ := written_cons.1 h₁
  obtain ⟨t₂, _, ht₂, h₃, rfl⟩ := written_cons.1 h₂
  obtain ⟨t₃, _, ht₃, h₄, rfl⟩ := written_cons.1 h₃
  obtain ⟨assigned, conditions, hcolumns, hfilters, rfl⟩ := written_append.1 h₄
  have hset (ts : List Token) : EndsClause [.SET] (t₃ :: ts) :=
    endsClause_cons List.mem_cons_self ht₃ ts
  simp only [List.cons_append, List.append_assoc]
  rw [Form.prepared?, update, keyword_of_isKeyword ht₁, bind_ok,
    name_of_isNameToken ht₂ ((hset _).head?_ne rfl (by simp)), bind_ok]
  dsimp only
  rw [keyword_of_isKeyword ht₃, bind_ok]
  have hwhere := (endsClause_wherePieces hfilters).append (endsClause_semicolons [] n)
  by_cases hne : columns = []
  · subst hne
    obtain ⟨e, he⟩ := exists_name_eq_error (hwhere.freeName?_eq_none (by decide))
    rw [written_nil.1 hcolumns, List.nil_append, assignments_of_error (by rw [assignment, he]),
      if_neg (by simp)]
    rfl
  have hfilters' := hfilters
  rw [wherePieces, if_neg hnone] at hfilters'
  obtain ⟨w, clause, hw, -, rfl⟩ := written_cons.1 hfilters'
  rw [List.cons_append, assignments_of_written 0 hne hcolumns hw, bind_ok]
  dsimp only
  rw [← List.cons_append, writeFilters_of_written _ _ hnone hfilters, bind_ok, Nat.zero_add,
    if_pos ⟨hne, hnone⟩]
  rfl

/-- A written removal is read back, if it has a condition. -/
theorem delete_of_written {table : String} {filters : List String} {ts : List Token}
    (h : (Form.delete table filters).Writes IsNameToken ts) (read : CountReader) :
    ((delete ⟨.sequential, 0⟩ ts).map fun r => Statement.delete r.1 r.2).toOption =
      (Form.delete table filters).prepared? read := by
  obtain ⟨_, n, h₁, rfl⟩ := h
  obtain ⟨t₁, _, ht₁, h₂, rfl⟩ := written_cons.1 h₁
  obtain ⟨t₂, _, ht₂, h₃, rfl⟩ := written_cons.1 h₂
  obtain ⟨t₃, conditions, ht₃, hfilters, rfl⟩ := written_cons.1 h₃
  have hwhere := (endsClause_wherePieces hfilters).append (endsClause_semicolons [] n)
  simp only [List.cons_append]
  rw [Form.prepared?, delete, keyword_of_isKeyword ht₁, bind_ok, keyword_of_isKeyword ht₂, bind_ok,
    name_of_isNameToken ht₃ (hwhere.head?_ne rfl (by simp)), bind_ok]
  dsimp only
  by_cases hne : filters = []
  · have hstart : startsWith .WHERE (conditions ++ List.replicate n .semicolon) = false := by
      subst hne
      rw [written_nil.1 hfilters]
      exact (endsClause_semicolons [] n).startsWith_eq_false (by simp)
    rw [writeFilters, keyword, hstart, if_neg (not_not_intro hne)]
    rfl
  · rw [writeFilters_of_written _ _ hne hfilters, bind_ok, if_pos hne]
    rfl

end Grammar

/-! ### The kind of a statement -/

theorem isAggregateWord_of_isKeyword {k : Keyword} {t : Token} (h : t.isKeyword k = true) :
    t.isAggregateWord = false := by
  cases t with
  | word w =>
    have hw : Keyword.ofWord? w = some k := of_decide_eq_true h
    have hspelling : k.spelling = Text.upper w := by
      unfold Keyword.ofWord? at hw
      simpa using List.find?_some hw
    rw [Token.isAggregateWord, isAggregateFunction, ← hspelling]
    cases k <;> decide
  | _ => rfl

theorem kindOfTokens_of_isKeyword {k : Keyword} {t : Token} (h : t.isKeyword k = true)
    (ts : List Token) : kindOfTokens (t :: ts) =
      if hasAggregateCall (t :: ts) then .aggregate else k.statementKind := by
  cases t with
  | word w =>
    have hw : Keyword.ofWord? w = some k := of_decide_eq_true h
    rw [kindOfTokens, hw]
    rfl
  | _ => cases h

/-- Tokens without an opening parenthesis in front of others begin no call. -/
theorem hasAggregateCall_append_of_forall {us vs : List Token} (h : ∀ t ∈ us, t ≠ .openParen)
    (hvs : vs.head? ≠ some .openParen) : hasAggregateCall (us ++ vs) = hasAggregateCall vs := by
  induction us with
  | nil => rfl
  | cons t us ih =>
    obtain ⟨ht, hus⟩ := List.forall_mem_cons.1 h
    have hhead : (us ++ vs).head? ≠ some .openParen := by
      cases us with
      | nil => exact hvs
      | cons u us => simpa using (List.forall_mem_cons.1 hus).1
    rw [List.cons_append, hasAggregateCall_cons, decide_eq_false hhead, ih hus]
    rfl

theorem hasAggregateCall_eq_false_of_forall {ts : List Token} (h : ∀ t ∈ ts, t ≠ .openParen) :
    hasAggregateCall ts = false := by
  have happend : hasAggregateCall (ts ++ []) = hasAggregateCall [] :=
    hasAggregateCall_append_of_forall h (by simp)
  rwa [List.append_nil] at happend

/-- The pieces of clauses are no opening parentheses. -/
theorem holdsInClauses_ne_openParen :
    HoldsInClauses fun p => ∀ t, p.Is Grammar.IsNameToken t → t ≠ .openParen where
  keyword _ _ ht := (ne_parens_of_isKeyword ht).1
  name _ _ ht := ht.ne_parens.1
  comma := by rintro _ rfl; simp
  equals := by rintro _ rfl; simp
  next := by rintro _ rfl; simp
  star := by rintro _ rfl; simp
  number := by rintro s _ rfl; simp

/-- No piece of a statement is a numbered marker. -/
theorem holdsInClauses_isNumbered :
    HoldsInClauses fun p => ∀ t, p.Is Grammar.IsNameToken t → MarkerMode.isNumbered t = false where
  keyword k t ht := by cases t <;> first | rfl | cases ht
  name _ _ ht := ht.isNumbered_eq_false
  comma := by rintro _ rfl; rfl
  equals := by rintro _ rfl; rfl
  next := by rintro _ rfl; rfl
  star := by rintro _ rfl; rfl
  number := by rintro s _ rfl; rfl

theorem detect_of_writes {f : Form} {ts : List Token} (h : f.Writes Grammar.IsNameToken ts) :
    MarkerMode.detect ts = .sequential := by
  obtain ⟨us, n, hus, rfl⟩ := h
  have hpieces := holdsInClauses_isNumbered.pieces f fun _ =>
    ⟨by rintro _ rfl; rfl, by rintro _ rfl; rfl⟩
  have hall : ∀ t ∈ us ++ List.replicate n .semicolon, MarkerMode.isNumbered t = false := by
    refine List.forall_mem_append.2 ⟨hus.forall_mem hpieces, fun t ht => ?_⟩
    rw [List.eq_of_mem_replicate ht]
    rfl
  rw [MarkerMode.detect, if_neg]
  rw [Bool.not_eq_true, List.any_eq_false]
  exact fun t ht => Bool.eq_false_iff.1 (hall t ht)

theorem semicolons_ne_openParen (n : Nat) : ∀ t ∈ List.replicate n Token.semicolon,
    t ≠ .openParen := by
  intro t ht
  simp [List.eq_of_mem_replicate ht]

namespace Form

/-- Only an insertion has parentheses. -/
theorem hasAggregateCall_eq_false_of_writes {f : Form} {ts : List Token}
    (h : f.Writes Grammar.IsNameToken ts) (hinto : f.insertedInto? = none) :
    hasAggregateCall ts = false := by
  obtain ⟨us, n, hus, rfl⟩ := h
  have hpieces := holdsInClauses_ne_openParen.pieces f fun h => by simp [hinto] at h
  exact hasAggregateCall_eq_false_of_forall
    (List.forall_mem_append.2 ⟨hus.forall_mem hpieces, semicolons_ne_openParen n⟩)

/-- In an insertion the name of the table stands in front of a parenthesis, and no other name
does. -/
theorem hasAggregateCall_of_writes_insert {calls : String → Bool} {table : String}
    {columns : List String} {m : Nat} {ts : List Token} (h : (insert table columns m).Writes
      (fun w t => Grammar.IsNameToken w t ∧ t.isAggregateWord = calls w) ts) :
    hasAggregateCall ts = calls table := by
  obtain ⟨t₁, t₂, t₃, t₄, names, markers, n, ht₁, ht₂, ht₃, hnames, ht₄, hmarkers, rfl⟩ :=
    exists_of_writes_insert h
  have hfree : ∀ t ∈ names, t ≠ .openParen :=
    (hnames.mono fun _ _ _ h => h.1).forall_mem (holdsInClauses_ne_openParen.names columns)
  have hfree' : ∀ t ∈ markers, t ≠ .openParen :=
    (hmarkers.mono fun _ _ _ h => h.1).forall_mem (holdsInClauses_ne_openParen.markers m)
  have hlast : hasAggregateCall (markers ++ .closeParen :: List.replicate n .semicolon) = false :=
    hasAggregateCall_eq_false_of_forall (List.forall_mem_append.2 ⟨hfree',
      List.forall_mem_cons.2 ⟨by simp, semicolons_ne_openParen n⟩⟩)
  have hmark : Token.openParen.isAggregateWord = false ∧ Token.closeParen.isAggregateWord = false :=
    ⟨rfl, rfl⟩
  simp only [hasAggregateCall_cons, isAggregateWord_of_isKeyword ht₁,
    isAggregateWord_of_isKeyword ht₂, ht₃.2, hmark]
  rw [hasAggregateCall_append_of_forall hfree (by simp)]
  simp [hasAggregateCall_cons, isAggregateWord_of_isKeyword ht₄, hlast, hmark]

/-- An insertion has an aggregate call if the token of its table makes one, and no other statement
has one. -/
theorem hasAggregateCall_of_writes {calls : String → Bool} {f : Form} {ts : List Token}
    (h : f.Writes (fun w t => Grammar.IsNameToken w t ∧ t.isAggregateWord = calls w) ts) :
    hasAggregateCall ts = f.insertedInto?.any calls := by
  have hname : f.Writes Grammar.IsNameToken ts := h.mono fun _ _ _ h => h.1
  cases f with
  | insert table columns m => exact hasAggregateCall_of_writes_insert h
  | select | update | delete => exact hasAggregateCall_eq_false_of_writes hname rfl

end Form

/-- The keyword that a statement begins with. -/
def Form.keyword : Form → Keyword
  | select _ _ _ _ _ _ => .SELECT
  | insert _ _ _ => .INSERT
  | update _ _ _ => .UPDATE
  | delete _ _ => .DELETE

theorem Form.kindOfTokens_of_writes {naming : String → Token → Prop} {f : Form} {ts : List Token}
    (h : f.Writes naming ts) :
    kindOfTokens ts = if hasAggregateCall ts then .aggregate else f.keyword.statementKind := by
  obtain ⟨us, n, hus, rfl⟩ := h
  have hfirst : ∃ ps, f.pieces = .keyword f.keyword :: ps := by
    cases f <;> exact ⟨_, rfl⟩
  obtain ⟨ps, hps⟩ := hfirst
  obtain ⟨t, _, ht, -, rfl⟩ := written_cons.1 (hps ▸ hus)
  exact kindOfTokens_of_isKeyword ht _

/-! ### What is prepared -/

/-- What is prepared from a statement without an aggregate call is what its form says. -/
theorem Scan.toOption_prepareTokens_of_writes {f : Form} {s : Scan}
    (h : f.Writes Grammar.IsNameToken s.tokens) (hcall : hasAggregateCall s.tokens = false)
    (read : Grammar.CountReader) : (s.prepareTokens read).toOption = f.prepared? read := by
  have hkind := f.kindOfTokens_of_writes h
  rw [hcall, if_neg Bool.false_ne_true] at hkind
  rw [Scan.prepareTokens, detect_of_writes h, hkind]
  cases f with
  | select => exact Grammar.select_of_written h read
  | insert => exact Grammar.insert_of_written h read
  | update => exact Grammar.update_of_written h read
  | delete => exact Grammar.delete_of_written h read

end TableSql
