import TableSql.Proofs.Statement.Reading

/-!
# What stands in front of the conditions

The readers go through the tokens from the front. Where one of them is done, it has looked at the
tokens that it has taken and at the next one, and at nothing behind that. So what a statement has in
front of its conditions is read in the same way whatever the conditions are, and the first `WHERE`
outside all parentheses is the one that the conditions stand behind.

## Main definitions

* `Grammar.Takes` — a reader takes some tokens if a given one follows.

## Main results

* `Grammar.exists_takes_of_columns`, `Grammar.exists_takes_of_assignments` — what the readers of
  lists take.
* `Ending.closed` — there is no `WHERE` behind the conditions.
* `Grammar.select_front`, `Grammar.update_front`, `Grammar.delete_front` — what is read of a
  statement if the tokens behind its `WHERE` are others.
-/

namespace TableSql

/-! ### Tokens in front of a `WHERE` -/

theorem Cut.of_head {stop : Token → Bool} {depth : Nat} {span behind : List Token} {t : Token}
    (h : Cut stop depth span (t :: behind)) (behind' : List Token) :
    Cut stop depth span (t :: behind') :=
  ⟨h.uncut, h.ends⟩

theorem Closed.cut {stop : Token → Bool} {span : List Token} {t : Token}
    (h : Closed stop span) (ht : endsSpan stop t = true) (behind : List Token) :
    Cut stop 0 span (t :: behind) :=
  ⟨h.uncut, fun _ hu => by cases hu; exact ⟨h.openParens_eq, ht⟩⟩

/-- Closed tokens are a whole span with no open parenthesis behind it. -/
theorem closed_iff {stop : Token → Bool} {ts : List Token} :
    Closed stop ts ↔ takeSpan stop 0 ts = (ts, []) ∧ openParens 0 ts = 0 := by
  constructor
  · intro h
    exact ⟨takeSpan_eq_iff.2 ⟨by simp, h.uncut, by simp⟩, h.openParens_eq⟩
  · rintro ⟨htake, hopen⟩
    exact ⟨(takeSpan_eq_iff.1 htake).2.uncut, hopen⟩

instance (stop : Token → Bool) (ts : List Token) : Decidable (Closed stop ts) :=
  decidable_of_iff _ closed_iff.symm

/-- Tokens each of which is closed are closed. -/
theorem closed_of_forall {stop : Token → Bool} {ts : List Token}
    (h : ∀ t ∈ ts, Closed stop [t]) : Closed stop ts := by
  induction ts with
  | nil => exact ⟨uncut_nil stop 0, rfl⟩
  | cons t ts ih =>
    obtain ⟨ht, hts⟩ := List.forall_mem_cons.1 h
    exact ht.append (ih hts)

/-- The first `WHERE` outside parentheses stands in one place. -/
theorem eq_of_append_where {front head behind clause : List Token} {w' w : Token}
    (hfront : Closed (Token.isKeyword .WHERE) front) (hw' : w'.isKeyword .WHERE = true)
    (hhead : Closed (Token.isKeyword .WHERE) head) (hw : w.isKeyword .WHERE = true)
    (h : front ++ w' :: behind = head ++ w :: clause) :
    front = head ∧ w' = w ∧ behind = clause := by
  have htake := takeSpan_of_cut (hfront.cut (endsSpan_where hw') behind)
  rw [h, takeSpan_of_cut (hhead.cut (endsSpan_where hw) clause)] at htake
  cases htake
  exact ⟨rfl, rfl, rfl⟩

/-! ### Readers and the next token -/

namespace Grammar

/-- If the token `w` follows the tokens, the reader takes them and stops in front of `w`, whatever
is behind it. -/
def Takes {α : Type} (reader : List Token → Reading α) (a : α) (taken : List Token) (w : Token) :
    Prop :=
  ∀ behind, reader (taken ++ w :: behind) = .ok (a, w :: behind)

section Readers

variable {c c' : Cursor} {ts rest : List Token} {w : Token}

theorem name_of_freeName? {t : Token} {x : String} (ht : freeName? t = some x) (w : Token)
    (behind : List Token) :
    name (t :: w :: behind) =
      if w = .dot then .error (.before (behind.length + 1) .qualifiedName)
      else .ok (x, w :: behind) := by
  simp [name, ht]

theorem exists_takes_of_name {x : String} (h : name ts = .ok (x, w :: rest)) :
    ∃ t, freeName? t = some x ∧ ts = t :: w :: rest ∧ Takes name x [t] w := by
  obtain ⟨t, ht, rfl⟩ := eq_cons_of_name h
  refine ⟨t, ht, rfl, fun behind => ?_⟩
  rw [name_of_freeName? ht] at h
  split at h
  · cases h
  · rename_i hdot
    exact (name_of_freeName? ht w behind).trans (if_neg hdot)

/-- Names with commas between them have no `WHERE` among them. -/
theorem exists_takes_of_names {xs : List String} (h : names ts = .ok (xs, w :: rest)) :
    ∃ taken, ts = taken ++ w :: rest ∧ Takes names xs taken w ∧
      Closed (Token.isKeyword .WHERE) taken := by
  fun_induction names ts generalizing xs with
  | case1 => cases h
  | case2 ts x rest' hname xs' rest'' hrest ih =>
    cases h
    obtain ⟨t, ht, rfl, htakes⟩ := exists_takes_of_name hname
    obtain ⟨taken, rfl, htakes', hclosed⟩ := ih hrest
    have hcomma : Closed (Token.isKeyword .WHERE) [.comma] :=
      closed_singleton (by simp) (by simp) rfl
    refine ⟨[t] ++ ([.comma] ++ taken), rfl, fun behind => ?_,
      (closed_of_freeName? ht).append (hcomma.append hclosed)⟩
    have hnames := names_of_comma (htakes (taken ++ w :: behind))
    rwa [htakes' behind] at hnames
  | case3 => cases h
  | case4 ts x rest' hne hname =>
    cases h
    obtain ⟨t, ht, rfl, htakes⟩ := exists_takes_of_name hname
    refine ⟨[t], rfl, fun behind => names_of_head? (htakes behind) ?_, closed_of_freeName? ht⟩
    simpa using fun hw => hne rest (by rw [hw])

theorem exists_takes_of_columns {cols : Columns} (h : columns ts = .ok (cols, w :: rest)) :
    ∃ taken, ts = taken ++ w :: rest ∧ Takes columns cols taken w ∧
      Closed (Token.isKeyword .WHERE) taken := by
  obtain ⟨rfl, rfl⟩ | ⟨ws, rfl, hnames⟩ := exists_of_columns_eq_ok h
  · exact ⟨[.star], rfl, fun behind => rfl, closed_singleton (by simp) (by simp) rfl⟩
  · obtain ⟨taken, rfl, htakes, hclosed⟩ := exists_takes_of_names hnames
    refine ⟨taken, rfl, fun behind => ?_, hclosed⟩
    have hstar : (taken ++ w :: behind).head? ≠ some .star := by
      intro hstar
      obtain ⟨us, hus⟩ := List.head?_eq_some_iff.1 hstar
      have hnames := htakes behind
      rw [hus, names_of_error (by rfl)] at hnames
      cases hnames
    rw [columns_of_head? hstar, htakes behind, map_ok]

theorem exists_takes_of_operand {a : Operand}
    (h : operand endsAssignment c ts = .ok ((a, c'), w :: rest)) :
    ∃ taken, ts = taken ++ w :: rest ∧ Takes (operand endsAssignment c) (a, c') taken w := by
  obtain ⟨span, hspan, hne, hvalue⟩ := exists_of_operand_eq_ok h
  obtain ⟨rfl, hcut⟩ := takeSpan_eq_iff.1 hspan
  refine ⟨span, rfl, fun behind => ?_⟩
  have htake := takeSpan_of_cut (hcut.of_head behind)
  rw [operand_of_ne_nil htake hne, hvalue]

theorem exists_takes_of_assignment {x : String × Operand}
    (h : assignment c ts = .ok ((x, c'), w :: rest)) :
    ∃ taken, ts = taken ++ w :: rest ∧ Takes (assignment c) (x, c') taken w := by
  obtain ⟨_, hname, hoperand⟩ := exists_of_assignment_eq_ok h
  obtain ⟨t, -, rfl, htakes⟩ := exists_takes_of_name hname
  obtain ⟨taken, rfl, htakes'⟩ := exists_takes_of_operand hoperand
  refine ⟨t :: .equals :: taken, rfl, fun behind => ?_⟩
  have hname := htakes (taken ++ w :: behind)
  have hmark : mark .equals .assign (.equals :: (taken ++ w :: behind)) =
      .ok (taken ++ w :: behind) := rfl
  simp only [List.cons_append, List.nil_append] at hname ⊢
  simp only [assignment, hname, hmark, htakes' behind]

theorem exists_takes_of_assignments {xs : List (String × Operand)}
    (h : assignments c ts = .ok ((xs, c'), w :: rest)) :
    ∃ taken, ts = taken ++ w :: rest ∧ Takes (assignments c) (xs, c') taken w := by
  fun_induction assignments c ts generalizing xs c' with
  | case1 => cases h
  | case2 c ts x d rest' hx ys d' rest'' hrest ih =>
    cases h
    obtain ⟨taken, rfl, htakes⟩ := exists_takes_of_assignment hx
    obtain ⟨taken', rfl, htakes'⟩ := ih hrest
    refine ⟨taken ++ .comma :: taken', by simp, fun behind => ?_⟩
    have hassignments := assignments_of_comma (htakes (taken' ++ w :: behind))
    rw [htakes' behind, map_ok] at hassignments
    simpa using hassignments
  | case3 => cases h
  | case4 c ts x d rest' hne hx =>
    cases h
    obtain ⟨taken, rfl, htakes⟩ := exists_takes_of_assignment hx
    refine ⟨taken, rfl, fun behind => assignments_of_head? (htakes behind) ?_⟩
    simpa using fun hw => hne rest (by rw [hw])

end Readers

end Grammar

/-! ### Behind the conditions -/

theorem IsSortKey.closed {ts : List Token} (h : IsSortKey ts) :
    Closed (Token.isKeyword .WHERE) ts := by
  cases h with
  | plain ht => exact Grammar.closed_of_freeName? ht
  | directed ht d hu =>
    exact (Grammar.closed_of_freeName? ht).append
      (Grammar.closed_of_isKeyword (by cases d <;> decide) hu)

theorem SortList.closed {ts : List Token} (h : SortList ts) :
    Closed (Token.isKeyword .WHERE) ts := by
  induction h with
  | last hkey => exact hkey.closed
  | comma hkey _ ih =>
    have hcomma : Closed (Token.isKeyword .WHERE) [.comma] :=
      closed_singleton (by simp) (by simp) rfl
    exact hkey.closed.append (hcomma.append ih)

theorem OrderedBy.closed {ts : List Token} (h : OrderedBy ts) :
    Closed (Token.isKeyword .WHERE) ts := by
  cases h with
  | mk ht h => exact (Grammar.closed_of_isKeyword (by decide) ht).append h.closed

theorem IsCount.closed {ts : List Token} (h : IsCount ts) :
    Closed (Token.isKeyword .WHERE) ts := by
  cases h <;> exact closed_singleton (by simp) (by simp) rfl

theorem Optionally.closed {k : Keyword} (hk : k ≠ .WHERE) {body : List Token → Prop}
    {ts : List Token} (h : Optionally k body ts)
    (hbody : ∀ ts, body ts → Closed (Token.isKeyword .WHERE) ts) :
    Closed (Token.isKeyword .WHERE) ts := by
  cases h with
  | missing => exact closed_of_forall nofun
  | present ht h => exact (Grammar.closed_of_isKeyword hk ht).append (hbody _ h)

/-- There is no `WHERE` behind the conditions, or where they would stand. -/
theorem Ending.closed {ts : List Token} (h : Ending ts) : Closed (Token.isKeyword .WHERE) ts := by
  obtain ⟨order, limit, offset, semicolons, rfl, horder, hlimit, hoffset, hsemicolons⟩ := h
  have hends : Closed (Token.isKeyword .WHERE) semicolons := by
    refine closed_of_forall fun t ht => ?_
    rw [hsemicolons t ht]
    exact closed_singleton (by simp) (by simp) rfl
  exact (horder.closed (by decide) fun _ => OrderedBy.closed).append
    ((hlimit.closed (by decide) fun _ => IsCount.closed).append
      ((hoffset.closed (by decide) fun _ => IsCount.closed).append hends))

/-! ### Statements with other tokens behind their `WHERE` -/

namespace Grammar

section Fronts

variable {c : Cursor} {head clause : List Token} {w : Token} {table : String}
  {fs : List (Filter Operand)}

theorem keyword_of_isKeyword {k : Keyword} {t : Token} (h : t.isKeyword k = true)
    (ts : List Token) : keyword k (t :: ts) = .ok ts := by
  simp [keyword, startsWith, h]

/-- A reading with other tokens behind its `WHERE` has the same columns and the same table. -/
theorem select_front {read : CountReader} {q : Select Operand}
    (hhead : Closed (Token.isKeyword .WHERE) head) (hw : w.isKeyword .WHERE = true)
    (h : select read c (head ++ w :: clause) = .ok q) :
    ∃ t, freeName? t = some q.table ∧ ∀ behind, select read c (head ++ w :: behind) =
      (Source.read read c (t :: w :: behind)).map fun s =>
        ⟨s.table, q.columns, s.filters, s.order, s.limit, s.offset⟩ := by
  obtain ⟨t₁, _, cols, t₂, _, source, ht₁, hts, hcols, ht₂, hsource, rfl⟩ :=
    exists_of_select_eq_ok h
  obtain ⟨taken, rfl, htakes, htaken⟩ := exists_takes_of_columns hcols
  obtain ⟨spans, hreads, -⟩ := readsFrom_of_read hsource
  have hfront {t : Token} (ht : freeName? t = some source.table) :
      Closed (Token.isKeyword .WHERE) ([t₁] ++ (taken ++ ([t₂] ++ [t]))) :=
    (closed_of_isKeyword (by decide) ht₁).append
      (htaken.append ((closed_of_isKeyword (by decide) ht₂).append (closed_of_freeName? ht)))
  cases hreads with
  | @all t ending ht hending =>
    -- Without conditions there would be no `WHERE` at all.
    have htake := takeSpan_of_cut (hhead.cut (endsSpan_where hw) clause)
    have hall : Closed (Token.isKeyword .WHERE) (head ++ w :: clause) := by
      rw [hts]
      simpa using (hfront ht).append hending.closed
    have hnone := (closed_iff.1 hall).1
    rw [htake] at hnone
    cases (Prod.mk.inj hnone).2
  | @filtered t w' clause' _ _ ht hw' _ _ =>
    obtain ⟨rfl, rfl, -⟩ := eq_of_append_where (hfront ht) hw' hhead hw (by simpa using hts.symm)
    refine ⟨t, ht, fun behind => ?_⟩
    have hcolumns := htakes (t :: w' :: behind)
    simp only [List.cons_append, List.nil_append, List.append_assoc]
    simp only [select, keyword_of_isKeyword ht₁, bind_ok, hcolumns, keyword_of_isKeyword ht₂]
    cases Source.read read c (t :: w' :: behind) <;> rfl

/-- A removal with other tokens behind its `WHERE` is from the same table. -/
theorem delete_front (hhead : Closed (Token.isKeyword .WHERE) head)
    (hw : w.isKeyword .WHERE = true) (h : delete c (head ++ w :: clause) = .ok (table, fs))
    (behind : List Token) : delete c (head ++ w :: behind) =
      (writeFilters .DELETE c (w :: behind)).map fun fs => (table, fs) := by
  obtain ⟨t₁, t₂, _, _, ht₁, ht₂, hts, hname, hfs⟩ := exists_of_delete_eq_ok h
  obtain ⟨clause', -, -, hwhere, -⟩ := exists_of_writeFilters hfs
  obtain ⟨w', hw', rfl⟩ := eq_cons_of_keyword hwhere
  obtain ⟨t₃, ht₃, rfl, htakes⟩ := exists_takes_of_name hname
  have hfront := (closed_of_isKeyword (by decide) ht₁).append
    ((closed_of_isKeyword (by decide) ht₂).append (closed_of_freeName? ht₃))
  obtain ⟨rfl, rfl, -⟩ := eq_of_append_where hfront hw' hhead hw (by simpa using hts.symm)
  have hname := htakes behind
  simp only [List.cons_append, List.nil_append] at hname ⊢
  simp only [delete, keyword_of_isKeyword ht₁, keyword_of_isKeyword ht₂, bind_ok, hname]
  cases writeFilters .DELETE c (w' :: behind) <;> rfl

/-- A change with other tokens behind its `WHERE` is of the same table and has the same values. The
assignments take their parameters in the same mode. -/
theorem update_front {values : Record Operand} (hhead : Closed (Token.isKeyword .WHERE) head)
    (hw : w.isKeyword .WHERE = true)
    (h : update c (head ++ w :: clause) = .ok (table, values, fs)) :
    ∃ d : Cursor, d.mode = c.mode ∧ ∀ behind, update c (head ++ w :: behind) =
      (writeFilters .UPDATE d (w :: behind)).map fun fs => (table, values, fs) := by
  obtain ⟨t₁, _, t₃, _, xs, d, _, ht₁, hts, hname, ht₃, hassigned, hfs, rfl⟩ :=
    exists_of_update_eq_ok h
  obtain ⟨clause', -, -, hwhere, -⟩ := exists_of_writeFilters hfs
  obtain ⟨w', hw', rfl⟩ := eq_cons_of_keyword hwhere
  obtain ⟨t₂, ht₂, rfl, htable⟩ := exists_takes_of_name hname
  obtain ⟨taken', heq, hmode, htaken⟩ := closed_of_assignments hassigned
  obtain ⟨taken, rfl, htakes⟩ := exists_takes_of_assignments hassigned
  obtain rfl := List.append_cancel_right heq
  have hfront := (closed_of_isKeyword (by decide) ht₁).append ((closed_of_freeName? ht₂).append
    ((closed_of_isKeyword (by decide) ht₃).append (htaken (List.cons_ne_nil _ _))))
  obtain ⟨rfl, rfl, -⟩ := eq_of_append_where hfront hw' hhead hw (by simpa using hts.symm)
  refine ⟨d, hmode, fun behind => ?_⟩
  have htable := htable (taken ++ w' :: behind)
  simp only [List.cons_append, List.nil_append] at htable ⊢
  simp only [update, keyword_of_isKeyword ht₁, keyword_of_isKeyword ht₃, bind_ok, htable,
    htakes behind]
  cases writeFilters .UPDATE d (w' :: behind) <;> rfl

end Fronts

end Grammar

end TableSql
