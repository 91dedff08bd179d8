import TableSql.Proofs.Marker.Cursor

/-!
# What conditions say

A condition is understood if it compares a column with a value: a name, an equality sign and a
value, or a name and `IS NULL`. A value is a single token or one of the calls that mean the current
time. Here this is a relation between tokens and filters, said without a reader. A marker has to
name its parameter for that, so this is about statements whose markers are numbered. The reader of
conditions makes a filter of every comparison and of nothing else, so the filters of a list of
conditions are those of its comparisons, in their order.

## Main definitions

* `Denotes` — a value and its operand.
* `Compares` — a comparison and its filter.
* `Keeps` — conditions and the filters of the comparisons among them.
* `Cursor.ByNumber` — tokens whose markers name their parameters.

## Main results

* `condition_eq_some_iff` — a condition is read as a filter exactly if it is its comparison.
* `Keeps.unique` — the filters of the comparisons are determined by the conditions.
* `keeps_conditions` — the reader keeps the filters of all comparisons.
* `Keeps.length_eq_iff` — no filter is missing exactly if every condition is a comparison.
-/

namespace TableSql

/-- The tokens are a value and have the operand: a token that can be a value on its own, or a call
that means the current time. A marker names its parameter, and a bare `?` is a text. -/
inductive Denotes : List Token → Operand → Prop
  | token {t : Token} (ht : t.isValue = true) :
      Denotes [t] ((Cursor.start .numbered).resolve t).1
  | now {w : String} (hw : Text.Caseless w "current_timestamp" ∨ Text.Caseless w "now") :
      Denotes [.word w, .openParen, .closeParen] .now
  | datetime {w s : String} (hw : Text.Caseless w "datetime") (hs : Text.Caseless s "now") :
      Denotes [.word w, .openParen, .string s, .closeParen] .now

/-- The tokens compare a column with a value, or with null. -/
inductive Compares : List Token → Filter Operand → Prop
  | equals {column : Token} {name : String} {span : List Token} {a : Operand}
      (hcolumn : column.name? = some name) (hspan : Denotes span a) :
      Compares (column :: .equals :: span) ⟨name, a⟩
  | null {column is null : Token} {name : String} (hcolumn : column.name? = some name)
      (his : is.isKeyword .IS = true) (hnull : null.isKeyword .NULL = true) :
      Compares [column, is, null] ⟨name, .literal .null⟩

/-- The filters of the comparisons among a list of conditions, in their order. -/
inductive Keeps : List (List Token) → List (Filter Operand) → Prop
  | nil : Keeps [] []
  | keep {span : List Token} {f : Filter Operand} {spans : List (List Token)}
      {fs : List (Filter Operand)} (hspan : Compares span f) (h : Keeps spans fs) :
      Keeps (span :: spans) (f :: fs)
  | drop {span : List Token} {spans : List (List Token)} {fs : List (Filter Operand)}
      (hspan : ∀ f, ¬Compares span f) (h : Keeps spans fs) : Keeps (span :: spans) fs

/-! ### Markers that name their parameters -/

namespace Cursor

/-- No parameter is taken in turn: the markers of the tokens name theirs, and a bare `?` is a text
for the cursor if there is one. -/
def ByNumber (c : Cursor) (ts : List Token) : Prop :=
  c.mode = .numbered ∨ .marker .next ∉ ts

theorem ByNumber.of_subset {c d : Cursor} {ts us : List Token} (h : c.ByNumber us) (hts : ts ⊆ us)
    (hmode : d.mode = c.mode) : d.ByNumber ts :=
  h.imp hmode.trans fun hnext ht => hnext (hts ht)

theorem resolve_of_byNumber {c : Cursor} {t : Token} (h : c.ByNumber [t]) :
    (c.resolve t).1 = ((start .numbered).resolve t).1 := by
  cases t with
  | marker m =>
    cases m with
    | next =>
      have hmode : c.mode = .numbered := h.resolve_right (by simp)
      simp [resolve, Token.marker?, take, hmode, start]
    | numbered n => cases n <;> rfl
  | _ => rfl

@[simp]
theorem mode_resolve (c : Cursor) (t : Token) : (c.resolve t).2.mode = c.mode := by
  unfold resolve
  split
  · exact mode_take c _
  · rfl

@[simp]
theorem mode_value (c : Cursor) (span : List Token) : (c.value span).2.mode = c.mode := by
  unfold value
  split
  · split
    · exact mode_resolve c _
    · rfl
  · split <;> exact mode_skipAll c _

@[simp]
theorem mode_condition (c : Cursor) (span : List Token) : (c.condition span).2.mode = c.mode := by
  unfold condition
  split
  · split
    · exact mode_value c _
    · exact mode_skipAll c _
  · split
    · rfl
    · exact mode_skipAll c _
  · exact mode_skipAll c _

end Cursor

/-! ### Values -/

/-- A call is a word and its arguments between parentheses. -/
theorem eq_of_ofSpan? {span : List Token} {call : FunctionCall}
    (h : FunctionCall.ofSpan? span = some call) :
    span = .word call.function :: .openParen :: (call.args ++ [.closeParen]) := by
  unfold FunctionCall.ofSpan? at h
  split at h
  · rename_i w t ts
    split at h
    · rename_i hclosing
      cases h
      have hsplit := eq_append_of_closing? hclosing
      have hdrop : (t :: ts).drop (ts.length + 1) = [] := List.drop_eq_nil_of_le (by simp)
      rw [hdrop] at hsplit
      exact congrArg (fun us => Token.word w :: Token.openParen :: us) hsplit
    · cases h
  · cases h

/-- The calls that have a value are those that mean the current time. -/
theorem denotes_of_callOperand? {call : FunctionCall} {a : Operand}
    (h : callOperand? call.function call.args = some a) :
    Denotes (.word call.function :: .openParen :: (call.args ++ [.closeParen])) a := by
  rcases call with ⟨w, args⟩
  dsimp only at h ⊢
  unfold callOperand? at h
  split at h
  · split at h
    · cases h
      exact .now ‹_›
    · cases h
  · split at h
    · rename_i hnow
      cases h
      exact .datetime hnow.1 hnow.2
    · cases h
  · cases h

theorem denotes_of_value {c : Cursor} {span : List Token} {a : Operand} (hc : c.ByNumber span)
    (h : (c.value span).1 = some a) : Denotes span a := by
  by_cases hlength : span.length = 1
  · obtain ⟨t, rfl⟩ := List.length_eq_one_iff.1 hlength
    cases ht : t.isValue with
    | true =>
      simp only [Cursor.value, ht, if_pos] at h
      cases h
      rw [Cursor.resolve_of_byNumber hc]
      exact .token ht
    | false => simp [Cursor.value, ht] at h
  · rw [Cursor.value_of_length hlength] at h
    cases hcall : FunctionCall.ofSpan? span with
    | none => simp [hcall] at h
    | some call =>
      rw [hcall] at h
      rw [eq_of_ofSpan? hcall]
      exact denotes_of_callOperand? h

theorem value_of_denotes {c : Cursor} {span : List Token} {a : Operand} (hc : c.ByNumber span)
    (h : Denotes span a) : (c.value span).1 = some a := by
  cases h with
  | token ht =>
    rw [← Cursor.resolve_of_byNumber hc]
    simp [Cursor.value, ht]
  | @now w hw =>
    have hcall : FunctionCall.ofSpan? [.word w, .openParen, .closeParen] = some ⟨w, []⟩ := rfl
    rw [Cursor.value_of_length (by simp), hcall]
    simp [callOperand?, hw]
  | @datetime w s hw hs =>
    have hcall : FunctionCall.ofSpan? [.word w, .openParen, .string s, .closeParen] =
        some ⟨w, [.string s]⟩ := rfl
    rw [Cursor.value_of_length (by simp), hcall]
    simp [callOperand?, hw, hs]

theorem Denotes.ne_nil {span : List Token} {a : Operand} (h : Denotes span a) : span ≠ [] := by
  cases h <;> simp

/-! ### Conditions -/

/-- Every filter is that of a comparison. -/
theorem compares_of_condition {c : Cursor} {span : List Token} {f : Filter Operand}
    (hc : c.ByNumber span) (h : (c.condition span).1 = some f) : Compares span f := by
  unfold Cursor.condition at h
  split at h
  · split at h
    · rename_i name hname
      obtain ⟨a, ha, rfl⟩ := Option.map_eq_some_iff.1 h
      exact .equals hname (denotes_of_value (hc.of_subset (by simp) rfl) ha)
    · cases h
  · split at h
    · rename_i hnull
      obtain ⟨name, hname, rfl⟩ := Option.map_eq_some_iff.1 h
      exact .null hname hnull.1 hnull.2
    · cases h
  · cases h

/-- Every comparison becomes its filter. -/
theorem condition_of_compares {c : Cursor} {span : List Token} {f : Filter Operand}
    (hc : c.ByNumber span) (h : Compares span f) : (c.condition span).1 = some f := by
  cases h with
  | equals hcolumn hspan =>
    obtain ⟨t, ts, rfl⟩ := List.exists_cons_of_ne_nil hspan.ne_nil
    have hvalue := value_of_denotes (hc.of_subset (by simp) rfl) hspan
    rw [Cursor.condition_of_equals, hcolumn, hvalue]
    rfl
  | null hcolumn his hnull =>
    rw [Cursor.condition_of_test (by rintro rfl; cases his), if_pos ⟨his, hnull⟩, hcolumn]
    rfl

/-- A condition is read as a filter exactly if it is the comparison of this filter. -/
theorem condition_eq_some_iff {c : Cursor} {span : List Token} {f : Filter Operand}
    (hc : c.ByNumber span) : (c.condition span).1 = some f ↔ Compares span f :=
  ⟨compares_of_condition hc, condition_of_compares hc⟩

theorem Compares.unique {span : List Token} {f g : Filter Operand} (hf : Compares span f)
    (hg : Compares span g) : f = g := by
  have hc : (Cursor.start .numbered).ByNumber span := .inl rfl
  have h := condition_of_compares hc hf
  rw [condition_of_compares hc hg] at h
  exact (Option.some.inj h).symm

/-- The filters of a list of conditions are those of its comparisons. -/
theorem keeps_conditions {c : Cursor} {spans : List (List Token)} (hc : c.ByNumber spans.flatten) :
    Keeps spans ((c.conditions spans).1.filterMap id) := by
  induction spans generalizing c with
  | nil => exact .nil
  | cons span spans ih =>
    have hspan : c.ByNumber span := hc.of_subset (by simp) rfl
    have hspans : (c.condition span).2.ByNumber spans.flatten :=
      hc.of_subset (by simp) (c.mode_condition span)
    cases hf : (c.condition span).1 with
    | none =>
      have hdrop : ∀ f, ¬Compares span f := by
        intro f hcompares
        simp [(condition_eq_some_iff hspan).2 hcompares] at hf
      simpa [Cursor.conditions, hf] using Keeps.drop hdrop (ih hspans)
    | some f =>
      simpa [Cursor.conditions, hf] using
        Keeps.keep ((condition_eq_some_iff hspan).1 hf) (ih hspans)

namespace Keeps

variable {spans : List (List Token)} {fs gs : List (Filter Operand)}

/-- The filters of the comparisons are determined by the conditions. -/
theorem unique (hfs : Keeps spans fs) (hgs : Keeps spans gs) : fs = gs := by
  induction hfs generalizing gs with
  | nil =>
    cases hgs
    rfl
  | keep hspan _ ih =>
    cases hgs with
    | keep hspan' hgs => rw [hspan.unique hspan', ih hgs]
    | drop hspan' _ => exact absurd hspan (hspan' _)
  | drop hspan _ ih =>
    cases hgs with
    | keep hspan' _ => exact absurd hspan' (hspan _)
    | drop _ hgs => exact ih hgs

theorem length_le (h : Keeps spans fs) : fs.length ≤ spans.length := by
  induction h with
  | nil => exact Nat.le_refl 0
  | keep _ _ ih => exact Nat.succ_le_succ ih
  | drop _ _ ih => exact Nat.le_succ_of_le ih

/-- There is a filter for every condition exactly if every condition is a comparison. -/
theorem length_eq_iff (h : Keeps spans fs) :
    fs.length = spans.length ↔ ∀ span ∈ spans, ∃ f, Compares span f := by
  induction h with
  | nil => simp
  | keep hspan _ ih =>
    rw [List.length_cons, List.length_cons, Nat.add_right_cancel_iff, ih, List.forall_mem_cons]
    exact (and_iff_right ⟨_, hspan⟩).symm
  | @drop span spans fs hspan h ih =>
    have hlt : fs.length < (span :: spans).length := Nat.lt_succ_of_le h.length_le
    refine iff_of_false (Nat.ne_of_lt hlt) fun hall => ?_
    obtain ⟨f, hf⟩ := hall span List.mem_cons_self
    exact hspan f hf

/-- The filters are on the columns that the conditions compare. -/
theorem exists_column_iff {p : String → Prop} (h : Keeps spans fs) :
    (∃ f ∈ fs, p f.column) ↔ ∃ span ∈ spans, ∃ f, Compares span f ∧ p f.column := by
  induction h with
  | nil => simp
  | @keep span f spans fs hspan _ ih =>
    simp only [List.mem_cons, exists_eq_or_imp, ih]
    refine or_congr_left ⟨fun hp => ⟨f, hspan, hp⟩, ?_⟩
    rintro ⟨g, hg, hp⟩
    rwa [← hg.unique hspan]
  | @drop span spans fs hspan _ ih =>
    simp only [List.mem_cons, exists_eq_or_imp, ih]
    rw [or_iff_right]
    rintro ⟨f, hf, -⟩
    exact hspan f hf

end Keeps

end TableSql
