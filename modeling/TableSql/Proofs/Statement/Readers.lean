import TableSql.Proofs.Steps

/-!
# One step of each reader

The readers of lists take one item, look for the mark behind it and go on. Each of them is described
here by its steps: a first item that is refused, an item with a mark behind it, and a last item. The
readers that count parentheses are described by their step over a token that is none. What the
others have read, if they succeeded, is told by the readers that they are made of.

## Main results

* `takeSpan_cons_of_ne`, `closing?_cons_of_ne` — tokens that are no parentheses.
* `conjuncts_of_and`, `conjuncts_of_head?` — conjuncts with `AND` behind them, and the last one.
* `Grammar.names_of_comma`, `Grammar.names_of_head?` and their like — items with a comma behind
  them, and the last one.
* `Grammar.eq_cons_of_keyword`, `Grammar.exists_of_operand_eq_ok`,
  `Grammar.exists_of_select_eq_ok` and their like — what a reader that succeeded has read.
-/

namespace TableSql

/-! ### Spans and conjuncts -/

/-- Outside parentheses a span ends where its test holds. -/
theorem takeSpan_cons_of_ne {stop : Token → Bool} {depth : Nat} {t : Token} {ts : List Token}
    (ho : t ≠ .openParen) (hc : t ≠ .closeParen) :
    takeSpan stop depth (t :: ts) =
      if depth = 0 ∧ stop t then ([], t :: ts) else pushToken t (takeSpan stop depth ts) := by
  cases t <;> first | rfl | contradiction

theorem closing?_cons_of_ne {depth : Nat} {t : Token} {ts : List Token} (ho : t ≠ .openParen)
    (hc : t ≠ .closeParen) : closing? depth (t :: ts) = (closing? depth ts).map (· + 1) := by
  cases t <;> first | rfl | contradiction

theorem hasAggregateCall_cons (t : Token) (ts : List Token) :
    hasAggregateCall (t :: ts) =
      (ts.head? = some .openParen && t.isAggregateWord || hasAggregateCall ts) := by
  cases ts with
  | nil => rfl
  | cons u ts => cases u <;> simp [hasAggregateCall]

theorem conjuncts_of_nil {ts rest : List Token} (h : takeSpan endsConjunct 0 ts = ([], rest)) :
    conjuncts ts = .error (.before ts.length .expectedCondition) := by
  rw [conjuncts]
  split <;> simp_all

theorem conjuncts_of_and {ts span rest : List Token} {t : Token}
    (h : takeSpan endsConjunct 0 ts = (span, t :: rest)) (hspan : span ≠ [])
    (hand : t.isKeyword .AND = true) :
    conjuncts ts = (conjuncts rest).map fun r => (span :: r.1, r.2) := by
  rw [conjuncts]
  split
  · simp_all
  · simp_all
  · rename_i heq
    cases h.symm.trans heq
    rw [if_pos hand]
    cases conjuncts rest <;> rfl

theorem conjuncts_of_head? {ts span rest : List Token}
    (h : takeSpan endsConjunct 0 ts = (span, rest)) (hspan : span ≠ [])
    (hand : rest.head?.any (Token.isKeyword .AND) = false) : conjuncts ts = .ok ([span], rest) := by
  rw [conjuncts]
  split
  · simp_all
  · simp_all
  · rename_i heq
    cases h.symm.trans heq
    rw [if_neg (by simpa using hand)]

/-! ### Keywords, marks and names -/

theorem isKeyword_unique {t : Token} {k k' : Keyword} (h : t.isKeyword k = true)
    (h' : t.isKeyword k' = true) : k = k' :=
  Option.some.inj ((of_decide_eq_true h).symm.trans (of_decide_eq_true h'))

namespace Grammar

theorem exists_of_startsWith {k : Keyword} {ts : List Token} (h : startsWith k ts = true) :
    ∃ t, t.isKeyword k = true ∧ ts = t :: ts.tail := by
  cases ts with
  | nil => cases h
  | cons t ts => exact ⟨t, by simpa [startsWith] using h, rfl⟩

theorem eq_cons_of_keyword {k : Keyword} {ts rest : List Token} (h : keyword k ts = .ok rest) :
    ∃ t, t.isKeyword k = true ∧ ts = t :: rest := by
  unfold keyword at h
  split at h
  · rename_i hstart
    cases h
    exact exists_of_startsWith hstart
  · cases h

theorem eq_cons_of_mark {t : Token} {m : RequiredMark} {ts rest : List Token}
    (h : mark t m ts = .ok rest) : ts = t :: rest := by
  unfold mark at h
  split at h
  · rename_i hhead
    cases h
    cases ts with
    | nil => cases hhead
    | cons t' rest => cases hhead; rfl
  · cases h

theorem eq_cons_of_name {ts rest : List Token} {w : String} (h : name ts = .ok (w, rest)) :
    ∃ t, freeName? t = some w ∧ ts = t :: rest := by
  unfold name at h
  split at h
  · cases h
  · split at h
    · cases h
    · rename_i hname
      split at h
      · cases h
      · cases h
        exact ⟨_, hname, rfl⟩

/-! ### Names and sort keys -/

theorem head?_ne_of_forall {t : Token} {ts : List Token} (h : ∀ rest, ts = t :: rest → False) :
    ts.head? ≠ some t := by
  cases ts with
  | nil => simp
  | cons u ts =>
    intro hu
    exact h ts (by rw [Option.some.inj hu])

theorem names_of_error {ts : List Token} {e : Fault} (h : name ts = .error e) :
    names ts = .error e := by
  rw [names]
  split <;> simp_all

theorem names_of_comma {ts rest : List Token} {w : String} (h : name ts = .ok (w, .comma :: rest)) :
    names ts = (names rest).map fun r => (w :: r.1, r.2) := by
  rw [names]
  split
  · simp_all
  · rename_i w' rest' heq
    cases h.symm.trans heq
    cases names rest <;> rfl
  · rename_i w' rest' hne heq
    cases h.symm.trans heq
    exact absurd rfl (hne rest)

theorem names_of_head? {ts rest : List Token} {w : String} (h : name ts = .ok (w, rest))
    (hrest : rest.head? ≠ some .comma) : names ts = .ok ([w], rest) := by
  rw [names]
  split
  · simp_all
  · rename_i w' rest' heq
    cases h.symm.trans heq
    exact absurd rfl hrest
  · rename_i w' rest' hne heq
    cases h.symm.trans heq
    rfl

theorem columns_of_head? {ts : List Token} (h : ts.head? ≠ some .star) :
    columns ts = (names ts).map fun r => (.named r.1, r.2) := by
  unfold columns
  split
  · exact absurd rfl h
  · cases names ts <;> rfl

theorem exists_of_columns_eq_ok {ts rest : List Token} {cols : Columns}
    (h : columns ts = .ok (cols, rest)) :
    (cols = .all ∧ ts = .star :: rest) ∨ ∃ ws, cols = .named ws ∧ names ts = .ok (ws, rest) := by
  unfold columns at h
  split at h
  · cases h
    exact .inl ⟨rfl, rfl⟩
  · split at h
    · cases h
      exact .inr ⟨_, rfl, ‹_›⟩
    · cases h

theorem sortKeys_of_error {ts : List Token} {e : Fault} (h : name ts = .error e) :
    sortKeys ts = .error e := by
  rw [sortKeys]
  split <;> simp_all

theorem sortKeys_of_comma {ts behind rest : List Token} {w : String} {d : Direction}
    (h : name ts = .ok (w, behind)) (hd : direction behind = (d, .comma :: rest)) :
    sortKeys ts = (sortKeys rest).map fun r => (⟨w, d⟩ :: r.1, r.2) := by
  rw [sortKeys]
  split
  · simp_all
  · rename_i w' behind' heq
    cases h.symm.trans heq
    split
    · rename_i d' rest' heq'
      cases hd.symm.trans heq'
      cases sortKeys rest <;> rfl
    · rename_i hne heq'
      cases hd.symm.trans heq'
      exact absurd rfl (hne rest)

theorem sortKeys_of_head? {ts behind rest : List Token} {w : String} {d : Direction}
    (h : name ts = .ok (w, behind)) (hd : direction behind = (d, rest))
    (hrest : rest.head? ≠ some .comma) : sortKeys ts = .ok ([⟨w, d⟩], rest) := by
  rw [sortKeys]
  split
  · simp_all
  · rename_i w' behind' heq
    cases h.symm.trans heq
    split
    · rename_i d' rest' heq'
      cases hd.symm.trans heq'
      exact absurd rfl hrest
    · rename_i hne heq'
      cases hd.symm.trans heq'
      rfl

/-! ### Values and assignments -/

section Values

variable {c : Cursor} {ts : List Token}

theorem operand_of_nil {stop : Token → Bool} {ts rest : List Token}
    (h : takeSpan stop 0 ts = ([], rest)) (c : Cursor) :
    operand stop c ts = .error (.before ts.length .expectedValue) := by
  rw [operand, h]

theorem operand_of_ne_nil {stop : Token → Bool} {ts span rest : List Token}
    (h : takeSpan stop 0 ts = (span, rest)) (hspan : span ≠ []) (c : Cursor) :
    operand stop c ts =
      match c.value span with
      | (some a, c) => .ok ((a, c), rest)
      | (none, _) => .error (.before ts.length .unsupportedValue) := by
  rw [operand, h]
  cases span with
  | nil => exact absurd rfl hspan
  | cons t span => rfl

theorem exists_of_operand_eq_ok {stop : Token → Bool} {a : Operand} {c' : Cursor}
    {rest : List Token} (h : operand stop c ts = .ok ((a, c'), rest)) :
    ∃ span, takeSpan stop 0 ts = (span, rest) ∧ span ≠ [] ∧ c.value span = (some a, c') := by
  unfold operand at h
  split at h
  · cases h
  · rename_i span rest' hne hspan
    split at h
    · cases h
      exact ⟨span, hspan, hne, ‹_›⟩
    · cases h

theorem exists_of_assignment_eq_ok {x : String × Operand} {c' : Cursor} {rest : List Token}
    (h : assignment c ts = .ok ((x, c'), rest)) :
    ∃ behind, name ts = .ok (x.1, .equals :: behind) ∧
      operand endsAssignment c behind = .ok ((x.2, c'), rest) := by
  unfold assignment at h
  split at h
  · cases h
  · rename_i w rest₁ hname
    split at h
    · cases h
    · rename_i rest₂ hmark
      obtain rfl := eq_cons_of_mark hmark
      split at h
      · cases h
      · cases h
        exact ⟨rest₂, hname, ‹_›⟩

theorem values_of_error {e : Fault} (h : operand (· = .comma) c ts = .error e) :
    values c ts = .error e := by
  rw [values]
  split <;> simp_all

theorem values_of_comma {a : Operand} {c' : Cursor} {rest : List Token}
    (h : operand (· = .comma) c ts = .ok ((a, c'), .comma :: rest)) :
    values c ts = (values c' rest).map fun r => (a :: r.1, r.2) := by
  rw [values]
  split
  · simp_all
  · rename_i heq
    cases h.symm.trans heq
    cases values c' rest <;> rfl
  · rename_i hne heq
    cases h.symm.trans heq
    exact absurd rfl (hne rest)

theorem values_of_head? {a : Operand} {c' : Cursor} {rest : List Token}
    (h : operand (· = .comma) c ts = .ok ((a, c'), rest)) (hrest : rest.head? ≠ some .comma) :
    values c ts = .ok ([a], rest) := by
  rw [values]
  split
  · simp_all
  · rename_i heq
    cases h.symm.trans heq
    exact absurd rfl hrest
  · rename_i hne heq
    cases h.symm.trans heq
    rfl

theorem assignments_of_error {e : Fault} (h : assignment c ts = .error e) :
    assignments c ts = .error e := by
  rw [assignments]
  split <;> simp_all

theorem assignments_of_comma {x : String × Operand} {c' : Cursor} {rest : List Token}
    (h : assignment c ts = .ok ((x, c'), .comma :: rest)) :
    assignments c ts = (assignments c' rest).map fun r => ((x :: r.1.1, r.1.2), r.2) := by
  rw [assignments]
  split
  · simp_all
  · rename_i heq
    cases h.symm.trans heq
    cases assignments c' rest <;> rfl
  · rename_i hne heq
    cases h.symm.trans heq
    exact absurd rfl (hne rest)

theorem assignments_of_head? {x : String × Operand} {c' : Cursor} {rest : List Token}
    (h : assignment c ts = .ok ((x, c'), rest)) (hrest : rest.head? ≠ some .comma) :
    assignments c ts = .ok (([x], c'), rest) := by
  rw [assignments]
  split
  · simp_all
  · rename_i heq
    cases h.symm.trans heq
    exact absurd rfl hrest
  · rename_i hne heq
    cases h.symm.trans heq
    rfl

end Values

/-! ### Calls -/

theorem firstCall?_cons (t : Token) (ts : List Token) :
    firstCall? (t :: ts) =
      if ts.head? = some .openParen ∧ t.isAggregateWord then
        some ⟨0, Text.upper (t.name?.getD ""), ts.tail⟩
      else (firstCall? ts).map fun a => ⟨a.before + 1, a.function, a.behind⟩ := by
  cases ts with
  | nil => cases t <;> rfl
  | cons u ts =>
    by_cases hu : u = .openParen
    · subst hu
      cases t with
      | word w => simp [firstCall?, Token.isAggregateWord, Token.name?]
      | _ => simp [firstCall?, Token.isAggregateWord]
    · have hhead : (u :: ts).head? ≠ some .openParen := by simpa using hu
      rw [if_neg fun h => hhead h.1]
      cases t with
      | word w => cases u <;> first | rfl | contradiction
      | _ => rfl

/-! ### Statements -/

section Statements

variable {c : Cursor} {ts : List Token} {table : String} {fs : List (Filter Operand)}

theorem exists_of_select_eq_ok {read : CountReader} {q : Select Operand}
    (h : select read c ts = .ok q) :
    ∃ t₁ ts₁ cols t₂ ts₂ s, t₁.isKeyword .SELECT = true ∧ ts = t₁ :: ts₁ ∧
      columns ts₁ = .ok (cols, t₂ :: ts₂) ∧ t₂.isKeyword .FROM = true ∧
      Source.read read c ts₂ = .ok s ∧
      q = ⟨s.table, cols, s.filters, s.order, s.limit, s.offset⟩ := by
  unfold select at h
  obtain ⟨ts₁, hselect, h⟩ := exists_of_bind_eq_ok h
  obtain ⟨⟨cols, rest⟩, hcolumns, h⟩ := exists_of_bind_eq_ok h
  obtain ⟨ts₂, hfrom, h⟩ := exists_of_bind_eq_ok h
  obtain ⟨s, hsource, h⟩ := exists_of_bind_eq_ok h
  cases h
  obtain ⟨t₁, ht₁, hts⟩ := eq_cons_of_keyword hselect
  obtain ⟨t₂, ht₂, rfl⟩ := eq_cons_of_keyword hfrom
  exact ⟨t₁, ts₁, cols, t₂, ts₂, s, ht₁, hts, hcolumns, ht₂, hsource, rfl⟩

theorem exists_of_update_eq_ok {values : Record Operand}
    (h : update c ts = .ok (table, values, fs)) :
    ∃ t₁ ts₁ t₂ ts₂ xs d rest, t₁.isKeyword .UPDATE = true ∧ ts = t₁ :: ts₁ ∧
      name ts₁ = .ok (table, t₂ :: ts₂) ∧ t₂.isKeyword .SET = true ∧
      assignments c ts₂ = .ok ((xs, d), rest) ∧ writeFilters .UPDATE d rest = .ok fs ∧
      values = .ofList xs := by
  unfold update at h
  obtain ⟨ts₁, hupdate, h⟩ := exists_of_bind_eq_ok h
  obtain ⟨⟨w, behind⟩, hname, h⟩ := exists_of_bind_eq_ok h
  obtain ⟨ts₂, hset, h⟩ := exists_of_bind_eq_ok h
  obtain ⟨⟨⟨xs, d⟩, rest⟩, hassigned, h⟩ := exists_of_bind_eq_ok h
  obtain ⟨fs', hfs, h⟩ := exists_of_bind_eq_ok h
  cases h
  obtain ⟨t₁, ht₁, hts⟩ := eq_cons_of_keyword hupdate
  obtain ⟨t₂, ht₂, rfl⟩ := eq_cons_of_keyword hset
  exact ⟨t₁, ts₁, t₂, ts₂, xs, d, rest, ht₁, hts, hname, ht₂, hassigned, hfs, rfl⟩

theorem exists_of_delete_eq_ok (h : delete c ts = .ok (table, fs)) :
    ∃ t₁ t₂ ts₂ rest, t₁.isKeyword .DELETE = true ∧ t₂.isKeyword .FROM = true ∧
      ts = t₁ :: t₂ :: ts₂ ∧ name ts₂ = .ok (table, rest) ∧
      writeFilters .DELETE c rest = .ok fs := by
  unfold delete at h
  obtain ⟨ts₁, hdelete, h⟩ := exists_of_bind_eq_ok h
  obtain ⟨ts₂, hfrom, h⟩ := exists_of_bind_eq_ok h
  obtain ⟨⟨w, rest⟩, hname, h⟩ := exists_of_bind_eq_ok h
  obtain ⟨fs', hfs, h⟩ := exists_of_bind_eq_ok h
  cases h
  obtain ⟨t₁, ht₁, hts⟩ := eq_cons_of_keyword hdelete
  obtain ⟨t₂, ht₂, rfl⟩ := eq_cons_of_keyword hfrom
  exact ⟨t₁, t₂, ts₂, rest, ht₁, ht₂, hts, hname, hfs⟩

end Statements

end Grammar

end TableSql
