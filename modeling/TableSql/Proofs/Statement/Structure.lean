import TableSql.Proofs.Statement.Readers

/-!
# The structure of a statement does not depend on its parameters

Parameters take part in reading a statement at one place only: a count of rows that is a marker is
read from its parameter, and may be refused. So two runs with different parameters are compared
reader by reader. Wherever both accept a count, they go on with the same tokens and the same cursor;
and what the two read differs in the counts and, once the parameters are in place, in the values.

## Main definitions

* `Select.outline`, `AggregateShape.outline` — what is left without the values.
* `Statement.SameStructure` — two statements with the same outline.

## Main results

* `Grammar.Source.outline_eq_of_read` — two readings of the same tokens have the same outline.
* `parse_structure_independent` — parameters change neither the structure of a statement nor,
  outside readings of rows, whether it is accepted.
-/

namespace TableSql

/-! ### Outlines -/

variable {α β γ : Type}

/-- The filters without their values. -/
def Filter.outlines (fs : List (Filter α)) : List (Filter Unit) :=
  fs.map (Filter.map fun _ => ())

/-- The reading without the values of its filters, its counts kept only as present or missing. -/
def Select.outline (q : Select α) : Select Unit :=
  ⟨q.table, q.columns, Filter.outlines q.filters, q.order, q.limit.map fun _ => 0,
    q.offset.map fun _ => 0⟩

/-- The shape without the values of its filters. -/
def AggregateShape.outline (s : AggregateShape α) : AggregateShape Unit :=
  s.map fun _ => ()

/-- The two statements are of one kind and differ only in their values and counts of rows. Of two
aggregates either may lack a shape. -/
def Statement.SameStructure : Statement α → Statement β → Prop
  | select q, select q' => q.outline = q'.outline
  | insert table values, insert table' values' => table = table' ∧ values.names = values'.names
  | update table values filters, update table' values' filters' =>
    table = table' ∧ values.names = values'.names ∧
      Filter.outlines filters = Filter.outlines filters'
  | delete table filters, delete table' filters' =>
    table = table' ∧ Filter.outlines filters = Filter.outlines filters'
  | aggregate plan, aggregate plan' =>
    (∀ s ∈ plan.shape, ∀ s' ∈ plan'.shape, s.outline = s'.outline) ∧
      plan.text.map (Fragment.map fun _ => ()) = plan'.text.map (Fragment.map fun _ => ())
  | schema keyword, schema keyword' => keyword = keyword'
  | _, _ => False

/-- Statements of one structure are of one kind. -/
theorem Statement.SameStructure.kind_eq {s : Statement α} {s' : Statement β}
    (h : s.SameStructure s') : s.kind = s'.kind := by
  cases s <;> cases s' <;> first | rfl | exact h.elim

@[simp]
theorem Filter.outlines_map (f : α → β) (fs : List (Filter α)) :
    Filter.outlines (fs.map (Filter.map f)) = Filter.outlines fs := by
  simp [Filter.outlines, Filter.map, Function.comp_def]

@[simp]
theorem Select.outline_map (f : α → β) (q : Select α) : (q.map f).outline = q.outline := by
  simp [Select.outline, Select.map]

@[simp]
theorem AggregateShape.outline_map (f : α → β) (s : AggregateShape α) :
    (s.map f).outline = s.outline := by
  simp [AggregateShape.outline, AggregateShape.map, Filter.map, Function.comp_def]

theorem Fragment.outlines_map (f : α → β) (fs : List (Fragment α)) :
    (fs.map (Fragment.map f)).map (Fragment.map fun _ => ()) =
      fs.map (Fragment.map fun _ => ()) := by
  rw [List.map_map]
  refine List.map_congr_left fun x _ => ?_
  cases x <;> rfl

/-- Putting values in the places of operands keeps the structure. -/
theorem Statement.SameStructure.map {s : Statement α} {s' : Statement α} (f : α → β) (g : α → γ)
    (h : s.SameStructure s') : (s.map f).SameStructure (s'.map g) := by
  cases s <;> cases s' <;> try exact h.elim
  case select q q' =>
    show (q.map f).outline = (q'.map g).outline
    rw [Select.outline_map, Select.outline_map]
    exact h
  case schema => exact h
  case insert => exact ⟨h.1, by simpa using h.2⟩
  case update => exact ⟨h.1, by simpa using h.2.1, by simpa using h.2.2⟩
  case delete => exact ⟨h.1, by simpa using h.2⟩
  case aggregate plan plan' =>
    refine ⟨?_, ?_⟩
    · intro s hs s' hs'
      obtain ⟨t, ht, rfl⟩ := Option.map_eq_some_iff.1 hs
      obtain ⟨t', ht', rfl⟩ := Option.map_eq_some_iff.1 hs'
      rw [AggregateShape.outline_map, AggregateShape.outline_map]
      exact h.1 t ht t' ht'
    · show (plan.text.map (Fragment.map f)).map _ = (plan'.text.map (Fragment.map g)).map _
      rw [Fragment.outlines_map, Fragment.outlines_map]
      exact h.2

/-- A statement has its own structure. -/
theorem Statement.SameStructure.refl (s : Statement α) : s.SameStructure s := by
  cases s with
  | select q => rfl
  | insert table values => exact ⟨rfl, rfl⟩
  | update table values filters => exact ⟨rfl, rfl, rfl⟩
  | delete table filters => exact ⟨rfl, rfl⟩
  | aggregate plan =>
    refine ⟨?_, rfl⟩
    intro s hs s' hs'
    rw [Option.mem_unique hs hs']
  | schema keyword => rfl

/-! ### Two runs of the readers -/

namespace Grammar

section TwoReaders

variable {read read' : CountReader} {c : Cursor} {ts : List Token}

/-- Two counts that are both accepted leave the same cursor and the same tokens. -/
theorem count_agree {n n' : Nat} {d d' : Cursor} {rest rest' : List Token}
    (h : count read c ts = .ok ((n, d), rest)) (h' : count read' c ts = .ok ((n', d'), rest')) :
    d = d' ∧ rest = rest' := by
  unfold count at h h'
  split at h
  · split at h
    · rename_i hn
      simp only [hn] at h'
      cases h
      cases h'
      exact ⟨rfl, rfl⟩
    · cases h
  · dsimp only at h'
    split at h
    · split at h'
      · cases h
        cases h'
        exact ⟨rfl, rfl⟩
      · cases h'
    · cases h
  · cases h

/-- Two clauses that are both accepted have both a count or none, and leave the same cursor and the
same tokens. -/
theorem countClause_agree {k : Keyword} {n n' : Option Nat} {d d' : Cursor}
    {rest rest' : List Token} (h : countClause k read c ts = .ok ((n, d), rest))
    (h' : countClause k read' c ts = .ok ((n', d'), rest')) :
    n.map (fun _ => 0) = n'.map (fun _ => 0) ∧ d = d' ∧ rest = rest' := by
  unfold countClause at h h'
  split at h
  · rename_i hk
    rw [if_pos hk] at h'
    split at h
    · rename_i hcount
      split at h'
      · rename_i hcount'
        cases h
        cases h'
        exact ⟨rfl, count_agree hcount hcount'⟩
      · cases h'
    · cases h
  · rename_i hk
    rw [if_neg hk] at h'
    cases h
    cases h'
    exact ⟨rfl, rfl, rfl⟩

/-- The clauses of a reading with its counts kept only as present or missing. -/
def Source.outline (s : Source) : Source :=
  ⟨s.table, s.conditions, s.order, s.limit.map fun _ => 0, s.offset.map fun _ => 0⟩

/-- Two readings of the same tokens have the same outline. -/
theorem Source.outline_eq_of_read {s s' : Source} (h : Source.read read c ts = .ok s)
    (h' : Source.read read' c ts = .ok s') : s.outline = s'.outline := by
  unfold Source.read at h h'
  obtain ⟨⟨table, ts₁⟩, h₁, h⟩ := exists_of_bind_eq_ok h
  obtain ⟨⟨spans, ts₂⟩, h₂, h⟩ := exists_of_bind_eq_ok h
  obtain ⟨⟨order, ts₃⟩, h₃, h⟩ := exists_of_bind_eq_ok h
  obtain ⟨⟨⟨limit, c₁⟩, ts₄⟩, h₄, h⟩ := exists_of_bind_eq_ok h
  obtain ⟨⟨⟨offset, c₂⟩, ts₅⟩, h₅, h⟩ := exists_of_bind_eq_ok h
  obtain ⟨-, h₆, h⟩ := exists_of_bind_eq_ok h
  obtain ⟨⟨table', ts₁'⟩, h₁', h'⟩ := exists_of_bind_eq_ok h'
  cases h₁.symm.trans h₁'
  obtain ⟨⟨spans', ts₂'⟩, h₂', h'⟩ := exists_of_bind_eq_ok h'
  cases h₂.symm.trans h₂'
  obtain ⟨⟨order', ts₃'⟩, h₃', h'⟩ := exists_of_bind_eq_ok h'
  cases h₃.symm.trans h₃'
  obtain ⟨⟨⟨limit', c₁'⟩, ts₄'⟩, h₄', h'⟩ := exists_of_bind_eq_ok h'
  obtain ⟨hlimit, rfl, rfl⟩ := countClause_agree h₄ h₄'
  obtain ⟨⟨⟨offset', c₂'⟩, ts₅'⟩, h₅', h'⟩ := exists_of_bind_eq_ok h'
  obtain ⟨hoffset, rfl, rfl⟩ := countClause_agree h₅ h₅'
  obtain ⟨-, h₆', h'⟩ := exists_of_bind_eq_ok h'
  cases h
  cases h'
  show Source.mk _ _ _ _ _ = Source.mk _ _ _ _ _
  rw [hlimit, hoffset]

/-- Two readings of rows have the same outline. -/
theorem outline_eq_of_select {q q' : Select Operand} (h : select read c ts = .ok q)
    (h' : select read' c ts = .ok q') : q.outline = q'.outline := by
  obtain ⟨_, _, cols, _, _, s, -, rfl, hcols, -, hs, rfl⟩ := exists_of_select_eq_ok h
  obtain ⟨_, _, cols', _, _, s', -, hts, hcols', -, hs', rfl⟩ := exists_of_select_eq_ok h'
  cases hts
  cases hcols.symm.trans hcols'
  have hout := Source.outline_eq_of_read hs hs'
  simp only [Source.outline, Source.mk.injEq] at hout
  obtain ⟨htable, hconditions, horder, hlimit, hoffset⟩ := hout
  simp only [Select.outline, Source.filters, htable, hconditions, horder, hlimit, hoffset]

/-- Two shapes of an aggregate are the same, since they have no counts. -/
theorem aggregateShape_agree {excerpt : Nat → Nat → String} {s s' : AggregateShape Operand}
    (h : aggregateShape? excerpt read c ts = some s)
    (h' : aggregateShape? excerpt read' c ts = some s') : s = s' := by
  unfold aggregateShape? at h h'
  obtain ⟨ts₁, h₁, h⟩ := Option.bind_eq_some_iff.1 h
  obtain ⟨ts₂, h₂, h⟩ := Option.bind_eq_some_iff.1 h
  obtain ⟨r, hr, h⟩ := Option.bind_eq_some_iff.1 h
  obtain ⟨call, hcall, h⟩ := Option.bind_eq_some_iff.1 h
  obtain ⟨length, hlength, h⟩ := Option.bind_eq_some_iff.1 h
  obtain ⟨ts₁', h₁', h'⟩ := Option.bind_eq_some_iff.1 h'
  cases h₁.symm.trans h₁'
  obtain ⟨ts₂', h₂', h'⟩ := Option.bind_eq_some_iff.1 h'
  cases h₂.symm.trans h₂'
  obtain ⟨r', hr', h'⟩ := Option.bind_eq_some_iff.1 h'
  obtain ⟨call', hcall', h'⟩ := Option.bind_eq_some_iff.1 h'
  cases hcall.symm.trans hcall'
  obtain ⟨length', hlength', h'⟩ := Option.bind_eq_some_iff.1 h'
  cases hlength.symm.trans hlength'
  have hout := Source.outline_eq_of_read (eq_ok_of_mem_toOption hr) (eq_ok_of_mem_toOption hr')
  simp only [Source.outline, Source.mk.injEq] at hout
  obtain ⟨htable, hconditions, -⟩ := hout
  cases h
  cases h'
  simp only [Source.filters, htable, hconditions]

end TwoReaders

end Grammar

/-! ### Two runs of a statement -/

section TwoRuns

variable {s : Scan} {read read' : Grammar.CountReader}

/-- Two statements that are prepared from the same tokens have the same structure. -/
theorem Scan.sameStructure_of_prepareTokens {p p' : Statement Operand}
    (h : s.prepareTokens read = .ok p) (h' : s.prepareTokens read' = .ok p') :
    p.SameStructure p' := by
  unfold prepareTokens at h h'
  cases hk : kindOfTokens s.tokens with
  | select =>
    simp only [hk] at h h'
    obtain ⟨q, hq, rfl⟩ := exists_of_map_eq_ok h
    obtain ⟨q', hq', rfl⟩ := exists_of_map_eq_ok h'
    exact Grammar.outline_eq_of_select hq hq'
  | aggregate =>
    simp only [hk] at h h'
    cases h
    cases h'
    refine ⟨?_, rfl⟩
    intro a ha a' ha'
    rw [Grammar.aggregateShape_agree ha ha']
  | _ =>
    simp only [hk] at h h'
    cases h.symm.trans h'
    exact .refl _

/-- Outside readings of rows and aggregates, the parameters take no part in preparing. -/
theorem Scan.prepareTokens_eq_of_ne (hs : kindOfTokens s.tokens ≠ .select)
    (ha : kindOfTokens s.tokens ≠ .aggregate) (read read' : Grammar.CountReader) :
    s.prepareTokens read = s.prepareTokens read' := by
  unfold prepareTokens
  cases hk : kindOfTokens s.tokens with
  | select => exact absurd hk hs
  | aggregate => exact absurd hk ha
  | _ => simp only [hk]

/-- An aggregate is accepted whatever its parameters are. -/
theorem Scan.prepareTokens_of_aggregate (h : kindOfTokens s.tokens = .aggregate)
    (read : Grammar.CountReader) :
    ∃ plan, s.prepareTokens read = .ok (.aggregate plan) := by
  unfold prepareTokens
  simp only [h]
  exact ⟨_, rfl⟩

end TwoRuns

/-- Outside readings of rows, the error by which a text is refused does not depend on the
parameters. -/
theorem parse_eq_error_of_parse_eq_error {sql : String} (hs : classify sql ≠ .select)
    {b : Bindings} {e : SyntaxError} (h : parse b sql = .error e) (b' : Bindings) :
    parse b' sql = .error e := by
  cases hscan : scanTrimmed sql with
  | error e' =>
    rw [parse_of_scan_error hscan] at h ⊢
    exact h
  | ok s =>
    simp only [classify, hscan] at hs
    rw [parse_of_scan hscan] at h ⊢
    by_cases ha : kindOfTokens s.tokens = .aggregate
    · obtain ⟨plan, hplan⟩ := Scan.prepareTokens_of_aggregate ha b.count?
      rw [hplan] at h
      cases h
    · rw [Scan.prepareTokens_eq_of_ne hs ha b'.count? b.count?]
      cases hp : s.prepareTokens b.count? with
      | error fault =>
        rw [hp] at h
        cases h
        rfl
      | ok p =>
        rw [hp] at h
        cases h

/-- The values of parameters act on no more than the values of a statement. Two runs on one text
that are both accepted read statements of the same structure. And outside readings of rows, whose
counts may be parameters, a text is accepted with all parameters or refused with all of them, by the
same error. -/
theorem parse_structure_independent (sql : String) (b b' : Bindings) :
    (classify sql ≠ .select →
      ((∃ s, parse b sql = .ok s) ↔ ∃ s, parse b' sql = .ok s) ∧
        ∀ e, parse b sql = .error e ↔ parse b' sql = .error e) ∧
      ∀ s s', parse b sql = .ok s → parse b' sql = .ok s' →
        s.kind = s'.kind ∧ s.SameStructure s' := by
  refine ⟨fun hs => ?_, fun s s' h h' => ?_⟩
  · have herror (e : SyntaxError) : parse b sql = .error e ↔ parse b' sql = .error e :=
      ⟨fun h => parse_eq_error_of_parse_eq_error hs h b',
        fun h => parse_eq_error_of_parse_eq_error hs h b⟩
    refine ⟨?_, herror⟩
    cases h : parse b sql with
    | error e => simp [(herror e).1 h]
    | ok s =>
      cases h' : parse b' sql with
      | error e => simp [(herror e).2 h'] at h
      | ok s' => simp
  · obtain ⟨scan, p, hscan, hp, rfl⟩ := exists_of_parse_eq_ok h
    obtain ⟨scan', p', hscan', hp', rfl⟩ := exists_of_parse_eq_ok h'
    cases hscan.symm.trans hscan'
    have hsame := (Scan.sameStructure_of_prepareTokens hp hp').map b.value b'.value
    exact ⟨hsame.kind_eq, hsame⟩

/-- A removal is accepted without its parameter as it is with it, and two readings with different
counts have the same structure. -/
theorem parse_structure_independent_counts :
    (∃ s, parse ⟨[], ""⟩ "DELETE FROM t WHERE a = ?" = .ok s) ∧
      ∃ s s', parse ⟨[.text "x", .int 1], ""⟩ "SELECT b FROM t WHERE a = ? LIMIT ?" = .ok s ∧
        parse ⟨[.null, .text "20"], ""⟩ "SELECT b FROM t WHERE a = ? LIMIT ?" = .ok s' ∧
        s.kind = s'.kind ∧ s.SameStructure s' := by
  have hdelete : ∃ s ∈ (parse ⟨[.int 7], ""⟩ "DELETE FROM t WHERE a = ?").toOption,
      s.kind = .delete := by decide +kernel
  have hone : ∃ s ∈ (parse ⟨[.text "x", .int 1], ""⟩
      "SELECT b FROM t WHERE a = ? LIMIT ?").toOption, s.kind = .select := by decide +kernel
  have htwenty : ∃ s ∈ (parse ⟨[.null, .text "20"], ""⟩
      "SELECT b FROM t WHERE a = ? LIMIT ?").toOption, s.kind = .select := by decide +kernel
  obtain ⟨s, hs, -⟩ := hdelete
  obtain ⟨q, hq, -⟩ := hone
  obtain ⟨q', hq', -⟩ := htwenty
  have hq := eq_ok_of_mem_toOption hq
  have hq' := eq_ok_of_mem_toOption hq'
  refine ⟨?_, q, q', hq, hq', (parse_structure_independent _ _ _).2 q q' hq hq'⟩
  exact ((parse_structure_independent _ _ _).1 (by decide +kernel)).1.1
    ⟨s, eq_ok_of_mem_toOption hs⟩

end TableSql
