import Mathlib.Data.List.TakeWhile
import TableSql.Proofs.Marker.Alignment
import TableSql.Proofs.Statement.Comparison
import TableSql.Proofs.Statement.Cut

/-!
# The conditions of a write

A change or a removal of rows has a `WHERE` clause, which begins with the first `WHERE` outside all
parentheses and lasts to the semicolons at the end. Its conjuncts stand between the `AND`s outside
parentheses. The filters of the statement are those of the comparisons among the conjuncts, and
there is one at least.

## Main definitions

* `Statement.Writes` — the statements that change or remove rows.
* `HasConjuncts` — the conjuncts of a `WHERE` clause.
* `Scan.byNumber` — a statement whose markers name their parameters.

## Main results

* `hasConjuncts_iff`, `HasConjuncts.unique` — the readers find the conjuncts of a statement, and
  it has them in one way only.
* `Grammar.closed_of_assignments` — no assignment hides the `WHERE` behind it.
* `exists_conjuncts_of_parse` — where the filters of a write come from.
-/

namespace TableSql

/-- The statement changes or removes the rows of a table that pass the filters. -/
inductive Statement.Writes {α : Type} : Statement α → String → List (Filter α) → Prop
  | update {table : String} {values : Record α} {filters : List (Filter α)} :
      Writes (.update table values filters) table filters
  | delete {table : String} {filters : List (Filter α)} :
      Writes (.delete table filters) table filters

/-- The conjuncts of the `WHERE` clause, which begins with the first `WHERE` outside parentheses and
has nothing but semicolons behind it. -/
def HasConjuncts (ts : List Token) (spans : List (List Token)) : Prop :=
  ∃ before w clause rest, ts = before ++ w :: clause ∧ w.isKeyword .WHERE = true ∧
    Cut (Token.isKeyword .WHERE) 0 before (w :: clause) ∧ Conjunction clause spans rest ∧
    ∀ t ∈ rest, t = .semicolon

/-- The readers of spans and of conjuncts find the conjuncts. -/
theorem hasConjuncts_iff {ts : List Token} {spans : List (List Token)} :
    HasConjuncts ts spans ↔ ∃ before w clause rest,
      takeSpan (Token.isKeyword .WHERE) 0 ts = (before, w :: clause) ∧ w.isKeyword .WHERE = true ∧
        conjuncts clause = .ok (spans, rest) ∧ ∀ t ∈ rest, t = .semicolon := by
  constructor
  · rintro ⟨before, w, clause, rest, hts, hw, hcut, hspans, hrest⟩
    exact ⟨before, w, clause, rest, takeSpan_eq_iff.2 ⟨hts, hcut⟩, hw,
      conjuncts_eq_ok_iff.2 hspans, hrest⟩
  · rintro ⟨before, w, clause, rest, htake, hw, hread, hrest⟩
    obtain ⟨hts, hcut⟩ := takeSpan_eq_iff.1 htake
    exact ⟨before, w, clause, rest, hts, hw, hcut, conjuncts_eq_ok_iff.1 hread, hrest⟩

/-- A statement has its conjuncts in one way only. -/
theorem HasConjuncts.unique {ts : List Token} {spans spans' : List (List Token)}
    (h : HasConjuncts ts spans) (h' : HasConjuncts ts spans') : spans = spans' := by
  obtain ⟨before, w, clause, rest, htake, -, hread, -⟩ := hasConjuncts_iff.1 h
  obtain ⟨before', w', clause', rest', htake', -, hread', -⟩ := hasConjuncts_iff.1 h'
  cases htake.symm.trans htake'
  cases hread.symm.trans hread'
  rfl

/-! ### Closed tokens -/

/-- None of the tokens ends a span, and all parentheses are closed behind them. -/
structure Closed (stop : Token → Bool) (ts : List Token) : Prop where
  uncut : Uncut stop 0 ts
  openParens_eq : openParens 0 ts = 0

section Closed

variable {stop : Token → Bool} {ts us : List Token}

theorem Closed.append (hts : Closed stop ts) (hus : Closed stop us) : Closed stop (ts ++ us) where
  uncut := uncut_append.2 ⟨hts.uncut, hts.openParens_eq.symm ▸ hus.uncut⟩
  openParens_eq := by rw [openParens_append, hts.openParens_eq, hus.openParens_eq]

/-- A token that is no parenthesis and ends no span. -/
theorem closed_singleton {t : Token} (ho : t ≠ .openParen) (hc : t ≠ .closeParen)
    (ht : stop t = false) : Closed stop [t] where
  uncut := uncut_cons.2 ⟨fun _ => by simp [endsSpan, hc, ht], uncut_nil stop _⟩
  openParens_eq := by cases t <;> first | rfl | contradiction

theorem Closed.mono {stop' : Token → Bool} (h : ∀ t, stop' t = true → stop t = true)
    (hts : Closed stop ts) : Closed stop' ts :=
  ⟨hts.uncut.mono h, hts.openParens_eq⟩

/-- A span with something behind it is closed. -/
theorem Cut.closed (h : Cut stop 0 ts us) (hus : us ≠ []) : Closed stop ts := by
  obtain ⟨t, us, rfl⟩ := List.exists_cons_of_ne_nil hus
  exact ⟨h.uncut, (h.ends t rfl).1⟩

end Closed

/-! ### Readers of closed tokens -/

theorem ne_parens_of_isKeyword {k : Keyword} {t : Token} (h : t.isKeyword k = true) :
    t ≠ .openParen ∧ t ≠ .closeParen := by
  constructor <;> (rintro rfl; cases h)

theorem endsSpan_where {w : Token} (hw : w.isKeyword .WHERE = true) :
    endsSpan (Token.isKeyword .WHERE) w = true := by
  simp [endsSpan, hw, (ne_parens_of_isKeyword hw).1]

namespace Grammar

/-- A keyword other than `WHERE` leaves the `WHERE` clause to what is behind it. -/
theorem closed_of_isKeyword {k : Keyword} (hk : k ≠ .WHERE) {t : Token}
    (h : t.isKeyword k = true) : Closed (Token.isKeyword .WHERE) [t] := by
  obtain ⟨ho, hc⟩ := ne_parens_of_isKeyword h
  exact closed_singleton ho hc
    (decide_eq_false fun hwhere => hk (isKeyword_unique h (decide_eq_true hwhere)))

/-- So does a name, since `WHERE` is reserved. -/
theorem closed_of_freeName? {t : Token} {w : String} (h : freeName? t = some w) :
    Closed (Token.isKeyword .WHERE) [t] := by
  refine closed_singleton (by rintro rfl; cases h) (by rintro rfl; cases h) ?_
  cases t with
  | word w' =>
    refine decide_eq_false fun hwhere => ?_
    have hreserved : isReserved w' = true := by
      show (Keyword.ofWord? w').any Keyword.isReserved = true
      rw [show Keyword.ofWord? w' = some .WHERE from hwhere]
      rfl
    simp [freeName?, hreserved] at h
  | quotedName w' => rfl
  | _ => cases h

/-- A value is closed if something follows it. -/
theorem closed_of_operand {c c' : Cursor} {ts rest : List Token} {a : Operand}
    (h : operand endsAssignment c ts = .ok ((a, c'), rest)) :
    ∃ taken, ts = taken ++ rest ∧ c'.mode = c.mode ∧
      (rest ≠ [] → Closed (Token.isKeyword .WHERE) taken) := by
  obtain ⟨span, hspan, -, hvalue⟩ := exists_of_operand_eq_ok h
  obtain ⟨rfl, hcut⟩ := takeSpan_eq_iff.1 hspan
  refine ⟨span, rfl, ?_, fun hrest => (hcut.closed hrest).mono fun t ht => ?_⟩
  · rw [← Cursor.mode_value c span, hvalue]
  · simp [endsAssignment, ht]

theorem closed_of_assignment {c c' : Cursor} {ts rest : List Token} {x : String × Operand}
    (h : assignment c ts = .ok ((x, c'), rest)) :
    ∃ taken, ts = taken ++ rest ∧ c'.mode = c.mode ∧
      (rest ≠ [] → Closed (Token.isKeyword .WHERE) taken) := by
  obtain ⟨_, hname, hoperand⟩ := exists_of_assignment_eq_ok h
  obtain ⟨t, ht, rfl⟩ := eq_cons_of_name hname
  obtain ⟨taken, rfl, hmode, hclosed⟩ := closed_of_operand hoperand
  refine ⟨[t] ++ ([.equals] ++ taken), by simp, hmode, fun hrest => ?_⟩
  have hequals : Closed (Token.isKeyword .WHERE) [.equals] :=
    closed_singleton (by simp) (by simp) rfl
  exact (closed_of_freeName? ht).append (hequals.append (hclosed hrest))

/-- No assignment hides the `WHERE` behind the assignments. -/
theorem closed_of_assignments {c c' : Cursor} {ts rest : List Token} {xs : List (String × Operand)}
    (h : assignments c ts = .ok ((xs, c'), rest)) :
    ∃ taken, ts = taken ++ rest ∧ c'.mode = c.mode ∧
      (rest ≠ [] → Closed (Token.isKeyword .WHERE) taken) := by
  fun_induction assignments c ts generalizing xs c' with
  | case1 => cases h
  | case2 c ts x d rest' hx ys d' rest'' hrest ih =>
    cases h
    obtain ⟨taken, rfl, hmode, hclosed⟩ := closed_of_assignment hx
    obtain ⟨taken', rfl, hmode', hclosed'⟩ := ih hrest
    refine ⟨taken ++ ([.comma] ++ taken'), by simp, hmode'.trans hmode, fun hne => ?_⟩
    have hcomma : Closed (Token.isKeyword .WHERE) [.comma] :=
      closed_singleton (by simp) (by simp) rfl
    exact (hclosed (by simp)).append (hcomma.append (hclosed' hne))
  | case3 => cases h
  | case4 c ts x d rest' hne hx =>
    cases h
    exact closed_of_assignment hx

theorem forall_semicolon_of_finish {ts : List Token} (h : finish ts = .ok ()) :
    ∀ t ∈ ts, t = .semicolon := by
  unfold finish at h
  split at h
  · rename_i hdrop
    simpa using List.dropWhile_eq_nil_iff.1 hdrop
  · cases h

theorem finish_of_semicolons {ts : List Token} (h : ∀ t ∈ ts, t = .semicolon) :
    finish ts = .ok () := by
  have hdrop : ts.dropWhile (fun t => decide (t = .semicolon)) = [] :=
    List.dropWhile_eq_nil_iff.2 (by simpa using h)
  rw [finish, hdrop]

section Writes

variable {c : Cursor} {ts : List Token} {table : String} {fs : List (Filter Operand)}

/-- What the reader of the filters of a write has read: conjuncts behind `WHERE`, nothing but
semicolons behind them, and a filter at least. -/
theorem exists_of_writeFilters {verb : Keyword} (h : writeFilters verb c ts = .ok fs) :
    ∃ clause spans rest, keyword .WHERE ts = .ok clause ∧ conjuncts clause = .ok (spans, rest) ∧
      (∀ t ∈ rest, t = .semicolon) ∧ fs = (c.conditions spans).1.filterMap id ∧ fs ≠ [] := by
  unfold writeFilters at h
  obtain ⟨clause, hwhere, h⟩ := exists_of_bind_eq_ok h
  obtain ⟨⟨spans, rest⟩, hspans, h⟩ := exists_of_bind_eq_ok h
  dsimp only at h
  obtain ⟨⟨⟩, hfinish, h⟩ := exists_of_bind_eq_ok h
  split at h
  · cases h
  · rename_i hne
    cases h
    exact ⟨clause, spans, rest, hwhere, hspans, forall_semicolon_of_finish hfinish, rfl,
      by simpa using hne⟩

/-- The filters of a write are those of the comparisons behind its `WHERE`, and there is one. -/
theorem exists_conjunction_of_writeFilters {verb : Keyword} (hc : c.ByNumber ts)
    (h : writeFilters verb c ts = .ok fs) :
    ∃ w clause spans rest, w.isKeyword .WHERE = true ∧ ts = w :: clause ∧
      Conjunction clause spans rest ∧ (∀ t ∈ rest, t = .semicolon) ∧ Keeps spans fs ∧ fs ≠ [] := by
  obtain ⟨clause, spans, rest, hwhere, hspans, hrest, rfl, hne⟩ := exists_of_writeFilters h
  obtain ⟨w, hw, hts⟩ := eq_cons_of_keyword hwhere
  have hconjuncts := conjuncts_eq_ok_iff.1 hspans
  have hsubset : spans.flatten ⊆ ts := by
    rw [hts]
    exact fun t ht => List.mem_cons_of_mem w (hconjuncts.flatten_subset ht)
  exact ⟨w, clause, spans, rest, hw, hts, hconjuncts, hrest,
    keeps_conditions (hc.of_subset hsubset rfl), hne⟩

/-- The `WHERE` clause of a write begins behind closed tokens. -/
theorem hasConjuncts_of_writeFilters {verb : Keyword} {before : List Token}
    (hbefore : Closed (Token.isKeyword .WHERE) before) (hc : c.ByNumber ts)
    (h : writeFilters verb c ts = .ok fs) :
    ∃ spans, HasConjuncts (before ++ ts) spans ∧ Keeps spans fs ∧ fs ≠ [] := by
  obtain ⟨w, clause, spans, rest, hw, rfl, hspans, hrest, hkeeps, hne⟩ :=
    exists_conjunction_of_writeFilters hc h
  have hcut : Cut (Token.isKeyword .WHERE) 0 before (w :: clause) := by
    refine ⟨hbefore.uncut, fun t ht => ?_⟩
    cases ht
    exact ⟨hbefore.openParens_eq, endsSpan_where hw⟩
  exact ⟨spans, ⟨before, w, clause, rest, rfl, hw, hcut, hspans, hrest⟩, hkeeps, hne⟩

theorem hasConjuncts_of_update {values : Record Operand} (hc : c.ByNumber ts)
    (h : update c ts = .ok (table, values, fs)) :
    ∃ spans, HasConjuncts ts spans ∧ Keeps spans fs ∧ fs ≠ [] := by
  obtain ⟨t₁, _, t₃, ts₃, xs, d, rest, ht₁, rfl, hname, ht₃, hassigned, hfs, -⟩ :=
    exists_of_update_eq_ok h
  obtain ⟨t₂, ht₂, rfl⟩ := eq_cons_of_name hname
  obtain ⟨taken, rfl, hmode, hclosed⟩ := closed_of_assignments hassigned
  have hd : d.ByNumber rest := hc.of_subset (fun t ht => by simp [ht]) hmode
  have hne : rest ≠ [] := by
    obtain ⟨w, clause, _, _, _, rfl, _⟩ := exists_conjunction_of_writeFilters hd hfs
    simp
  have hbefore := (closed_of_isKeyword (by decide) ht₁).append ((closed_of_freeName? ht₂).append
    ((closed_of_isKeyword (by decide) ht₃).append (hclosed hne)))
  simpa using hasConjuncts_of_writeFilters hbefore hd hfs

theorem hasConjuncts_of_delete (hc : c.ByNumber ts) (h : delete c ts = .ok (table, fs)) :
    ∃ spans, HasConjuncts ts spans ∧ Keeps spans fs ∧ fs ≠ [] := by
  obtain ⟨t₁, t₂, _, rest, ht₁, ht₂, rfl, hname, hfs⟩ := exists_of_delete_eq_ok h
  obtain ⟨t₃, ht₃, rfl⟩ := eq_cons_of_name hname
  have hbefore := (closed_of_isKeyword (by decide) ht₁).append
    ((closed_of_isKeyword (by decide) ht₂).append (closed_of_freeName? ht₃))
  have hrest : c.ByNumber rest := hc.of_subset (fun t ht => by simp [ht]) rfl
  simpa using hasConjuncts_of_writeFilters hbefore hrest hfs

end Writes

end Grammar

/-! ### Writes of texts -/

/-- The scan with its markers numbered in order if they are sequential, so that every marker names
its parameter. -/
def Scan.byNumber (s : Scan) : Scan :=
  match MarkerMode.detect s.tokens with
  | .sequential => s.numbered
  | .numbered => s

/-- No marker that stands in turn is tested for null. -/
def Scan.Untested (s : Scan) : Prop :=
  MarkerMode.detect s.tokens = .sequential → s.tested = []

theorem next_notMem_numberFrom (k : Nat) (ts : List Token) :
    Token.marker .next ∉ numberFrom k ts := by
  fun_induction numberFrom k ts with
  | case1 => simp
  | case2 k m ts ih => simpa using ih
  | case3 k t ts ht ih =>
    rw [List.mem_cons, not_or]
    refine ⟨?_, ih⟩
    rintro rfl
    exact ht .next rfl

/-- What is put in place of the operands of a write is put in place of those of its filters. -/
theorem Statement.Writes.of_map {α β : Type} {f : α → β} {p : Statement α} {table : String}
    {filters : List (Filter β)} (h : (p.map f).Writes table filters) :
    ∃ fs, p.Writes table fs ∧ filters = fs.map (Filter.map f) := by
  cases p <;> cases h
  · exact ⟨_, .update, rfl⟩
  · exact ⟨_, .delete, rfl⟩

theorem Statement.Writes.of_mapFilters {α : Type} {f : α → α} {p : Statement α} {table : String}
    {filters : List (Filter α)} (h : (p.mapFilters f).Writes table filters) :
    ∃ fs, p.Writes table fs ∧ filters = fs.map (Filter.map f) := by
  cases p <;> cases h
  · exact ⟨_, .update, rfl⟩
  · exact ⟨_, .delete, rfl⟩

/-- The filters of a write are those of the comparisons among its conjuncts, if its markers name
their parameters. -/
theorem Scan.exists_conjuncts_of_prepareTokens {s : Scan} {read : Grammar.CountReader}
    {p : Statement Operand} {table : String} {fs : List (Filter Operand)}
    (hs : (Cursor.start (.detect s.tokens)).ByNumber s.tokens) (h : s.prepareTokens read = .ok p)
    (hw : p.Writes table fs) : ∃ spans, HasConjuncts s.tokens spans ∧ Keeps spans fs ∧ fs ≠ [] := by
  have hkind := kindOfTokens_of_prepareTokens h
  unfold prepareTokens at h
  cases hw with
  | update =>
    simp only [hkind, Statement.kind] at h
    obtain ⟨⟨table', values, fs⟩, hupdate, hp⟩ := exists_of_map_eq_ok h
    cases hp
    exact Grammar.hasConjuncts_of_update hs hupdate
  | delete =>
    simp only [hkind, Statement.kind] at h
    obtain ⟨⟨table', fs⟩, hdelete, hp⟩ := exists_of_map_eq_ok h
    cases hp
    exact Grammar.hasConjuncts_of_delete hs hdelete

/-- The filters of a write come from the comparisons among the conjuncts of its `WHERE` clause.
There is one for each of them, on its column and in the same order. It has the value that the
comparison has with the parameters in place, unless a marker that stands in turn is tested for
null. -/
theorem exists_conjuncts_of_parse {b : Bindings} {sql : String} {statement : Statement Value}
    {table : String} {filters : List (Filter Value)} (h : parse b sql = .ok statement)
    (hw : statement.Writes table filters) :
    ∃ s spans fs, scanTrimmed sql = .ok s ∧ HasConjuncts s.byNumber.tokens spans ∧
      Keeps spans fs ∧ fs ≠ [] ∧ filters.map Filter.column = fs.map Filter.column ∧
      (s.Untested → filters = fs.map (Filter.map b.value)) := by
  obtain ⟨s, p, hscan, hp, rfl⟩ := exists_of_parse_eq_ok h
  obtain ⟨fs, hpw, rfl⟩ := hw.of_map
  cases hmode : MarkerMode.detect s.tokens with
  | numbered =>
    have hs : (Cursor.start (.detect s.tokens)).ByNumber s.tokens := .inl hmode
    obtain ⟨spans, hspans, hkeeps, hne⟩ := Scan.exists_conjuncts_of_prepareTokens hs hp hpw
    refine ⟨s, spans, fs, hscan, ?_, hkeeps, hne, by simp [Filter.map], fun _ => rfl⟩
    rwa [Scan.byNumber, hmode]
  | sequential =>
    rw [Scan.prepareTokens_numbered hmode] at hp
    obtain ⟨p', hp', rfl⟩ := exists_of_map_eq_ok hp
    obtain ⟨fs, hpw', rfl⟩ := hpw.of_mapFilters
    have hs : (Cursor.start (.detect s.numbered.tokens)).ByNumber s.numbered.tokens := by
      refine .inr ?_
      rw [Scan.tokens_numbered]
      exact next_notMem_numberFrom 0 s.tokens
    obtain ⟨spans, hspans, hkeeps, hne⟩ := Scan.exists_conjuncts_of_prepareTokens hs hp' hpw'
    refine ⟨s, spans, fs, hscan, ?_, hkeeps, hne, by simp [Filter.map], fun htested => ?_⟩
    · rwa [Scan.byNumber, hmode]
    · have hid : Operand.slipped [] = id := funext Operand.slipped_nil
      rw [htested hmode, hid]
      simp [Filter.map]

/-- A write has a filter. -/
theorem filters_ne_nil_of_parse {b : Bindings} {sql : String} {statement : Statement Value}
    {table : String} {filters : List (Filter Value)} (h : parse b sql = .ok statement)
    (hw : statement.Writes table filters) : filters ≠ [] := by
  obtain ⟨s, spans, fs, -, -, -, hne, hcolumns, -⟩ := exists_conjuncts_of_parse h hw
  rintro rfl
  exact hne (List.map_eq_nil_iff.1 hcolumns.symm)

end TableSql
