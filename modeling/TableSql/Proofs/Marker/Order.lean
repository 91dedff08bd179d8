import TableSql.Proofs.Marker.Unnumbered

/-!
# Markers in order

The markers of a statement are numbered in the order in which they stand. Every reader takes tokens
from the front, so the markers that it leaves behind are numbered in order as well, and the number
of the first of them says how many markers the reader has taken.

## Main definitions

* `markers` — the markers of a list of tokens.
* `InOrder` — markers that are numbered one after the other.
* `numberFrom` — tokens with their markers numbered in order.

## Main results

* `inOrder_append` — markers in order, taken apart.
* `markers_of_conjuncts`, `markers_of_sortKeys` — which markers a reader leaves behind.
-/

namespace TableSql

/-- The markers of a list of tokens. -/
def markers (ts : List Token) : List Marker :=
  ts.filterMap Token.marker?

/-- The markers are numbered one after the other, behind so many others. -/
def InOrder : Nat → List Marker → Prop
  | _, [] => True
  | k, m :: ms => m = .numbered (k + 1) ∧ InOrder (k + 1) ms

/-- The tokens with their markers numbered in order, behind so many others. -/
def numberFrom : Nat → List Token → List Token
  | _, [] => []
  | k, .marker _ :: ts => .marker (.numbered (k + 1)) :: numberFrom (k + 1) ts
  | k, t :: ts => t :: numberFrom k ts

@[simp]
theorem markers_nil : markers [] = [] := rfl

@[simp]
theorem markers_cons_marker (m : Marker) (ts : List Token) :
    markers (.marker m :: ts) = m :: markers ts := rfl

theorem markers_cons_of_none {t : Token} (h : t.marker? = none) (ts : List Token) :
    markers (t :: ts) = markers ts := by
  simp [markers, h]

@[simp]
theorem markers_append (ts us : List Token) : markers (ts ++ us) = markers ts ++ markers us := by
  simp [markers]

theorem markers_unnumbered (ts : List Token) :
    markers (ts.map Token.unnumbered) = (markers ts).map fun _ => .next := by
  rw [markers, markers, List.filterMap_map, List.map_filterMap]
  exact congrArg (List.filterMap · ts) (funext Token.marker?_unnumbered)

/-- Markers in order are some of them in order, and the others behind them. -/
theorem inOrder_append {k : Nat} {ms ns : List Marker} :
    InOrder k (ms ++ ns) ↔ InOrder k ms ∧ InOrder (k + ms.length) ns := by
  induction ms generalizing k with
  | nil => simp [InOrder]
  | cons m ms ih =>
    rw [List.cons_append, InOrder, InOrder, ih, and_assoc, List.length_cons]
    rw [show k + (ms.length + 1) = k + 1 + ms.length by omega]

theorem numberFrom_cons_of_none {t : Token} (h : t.marker? = none) (k : Nat) (ts : List Token) :
    numberFrom k (t :: ts) = t :: numberFrom k ts := by
  cases t <;> first | rfl | cases h

theorem inOrder_numberFrom (k : Nat) (ts : List Token) : InOrder k (markers (numberFrom k ts)) := by
  induction ts generalizing k with
  | nil => trivial
  | cons t ts ih =>
    cases h : t.marker? with
    | none =>
      rw [numberFrom_cons_of_none h, markers_cons_of_none h]
      exact ih k
    | some m =>
      cases t <;> cases h
      exact ⟨rfl, ih (k + 1)⟩

/-- Numbering is undone by taking the numbers away, if there were none. -/
theorem unnumbered_numberFrom {ts : List Token} (h : ∀ t ∈ ts, MarkerMode.isNumbered t = false)
    (k : Nat) : (numberFrom k ts).map Token.unnumbered = ts := by
  induction ts generalizing k with
  | nil => rfl
  | cons t ts ih =>
    obtain ⟨ht, hts⟩ := List.forall_mem_cons.1 h
    cases t with
    | marker m =>
      cases m with
      | next => simp [numberFrom, Token.unnumbered, ih hts]
      | numbered n => cases ht
    | _ => simp [numberFrom, Token.unnumbered, ih hts]

/-! ### Which markers a reader leaves behind -/

theorem marker?_eq_none_of_isKeyword {k : Keyword} {t : Token} (h : t.isKeyword k = true) :
    t.marker? = none := by
  cases t <;> first | rfl | cases h

theorem markers_of_takeSpan (stop : Token → Bool) (depth : Nat) (ts : List Token) :
    markers (takeSpan stop depth ts).1 ++ markers (takeSpan stop depth ts).2 = markers ts := by
  rw [← markers_append, takeSpan_append]

/-- The conjuncts and what follows them have the markers of the tokens: `AND` is none. -/
theorem markers_of_conjuncts {ts rest : List Token} {spans : List (List Token)}
    (h : conjuncts ts = .ok (spans, rest)) :
    markers ts = markers spans.flatten ++ markers rest := by
  induction conjuncts_eq_ok_iff.1 h with
  | last => simp [markers_append]
  | and _ _ hand hspans ih =>
    rw [markers_append, markers_cons_of_none (marker?_eq_none_of_isKeyword hand),
      ih (conjuncts_eq_ok_iff.2 hspans), List.flatten_cons, markers_append, List.append_assoc]

namespace Grammar

theorem markers_tail_of_startsWith {k : Keyword} {ts : List Token} (h : startsWith k ts = true) :
    markers ts.tail = markers ts := by
  obtain ⟨t, ht, hts⟩ := exists_of_startsWith h
  conv => rhs; rw [hts]
  rw [markers_cons_of_none (marker?_eq_none_of_isKeyword ht)]

theorem markers_of_keyword {k : Keyword} {ts rest : List Token} (h : keyword k ts = .ok rest) :
    markers rest = markers ts := by
  obtain ⟨t, ht, rfl⟩ := eq_cons_of_keyword h
  rw [markers_cons_of_none (marker?_eq_none_of_isKeyword ht)]

theorem markers_of_mark {t : Token} (ht : t.marker? = none) {m : RequiredMark}
    {ts rest : List Token} (h : mark t m ts = .ok rest) : markers rest = markers ts := by
  obtain rfl := eq_cons_of_mark h
  rw [markers_cons_of_none ht]

theorem marker?_eq_none_of_freeName? {t : Token} {w : String} (h : freeName? t = some w) :
    t.marker? = none := by
  cases t <;> first | rfl | cases h

theorem markers_of_name {ts rest : List Token} {w : String} (h : name ts = .ok (w, rest)) :
    markers rest = markers ts := by
  obtain ⟨t, ht, rfl⟩ := eq_cons_of_name h
  rw [markers_cons_of_none (marker?_eq_none_of_freeName? ht)]

theorem markers_of_names {ts rest : List Token} {ws : List String} (h : names ts = .ok (ws, rest)) :
    markers rest = markers ts := by
  fun_induction names ts generalizing ws with
  | case1 => cases h
  | case2 ts w rest' hname ws' rest'' hrest ih =>
    cases h
    rw [ih hrest, ← markers_of_name hname]
    rfl
  | case3 => cases h
  | case4 ts w rest' hne hname =>
    cases h
    exact markers_of_name hname

theorem markers_of_columns {ts rest : List Token} {cols : Columns}
    (h : columns ts = .ok (cols, rest)) : markers rest = markers ts := by
  obtain ⟨-, rfl⟩ | ⟨ws, -, hnames⟩ := exists_of_columns_eq_ok h
  · rfl
  · exact markers_of_names hnames

theorem markers_of_direction (ts : List Token) : markers (direction ts).2 = markers ts := by
  unfold direction
  split
  · exact markers_tail_of_startsWith ‹_›
  · split
    · exact markers_tail_of_startsWith ‹_›
    · rfl

theorem markers_of_sortKeys {ts rest : List Token} {keys : List SortKey}
    (h : sortKeys ts = .ok (keys, rest)) : markers rest = markers ts := by
  have hdirection {behind rest : List Token} {d : Direction} (h : direction behind = (d, rest)) :
      markers rest = markers behind := by
    rw [← markers_of_direction behind, h]
  fun_induction sortKeys ts generalizing keys with
  | case1 => cases h
  | case2 ts w behind hname d rest' hd keys' rest'' hrest ih =>
    cases h
    rw [ih hrest, ← markers_of_name hname, ← hdirection hd]
    rfl
  | case3 => cases h
  | case4 ts w behind hname d rest' hne hd =>
    cases h
    rw [hdirection hd, markers_of_name hname]

theorem markers_of_orderClause {ts rest : List Token} {keys : List SortKey}
    (h : orderClause ts = .ok (keys, rest)) : markers rest = markers ts := by
  unfold orderClause at h
  split at h
  · rename_i horder
    split at h
    · rename_i hby
      rw [markers_of_sortKeys h, markers_of_keyword hby, markers_tail_of_startsWith horder]
    · cases h
  · cases h
    rfl

theorem markers_of_whereClause {ts rest : List Token} {spans : List (List Token)}
    (h : whereClause ts = .ok (spans, rest)) :
    markers ts = markers spans.flatten ++ markers rest := by
  unfold whereClause at h
  split at h
  · rename_i hwhere
    rw [← markers_tail_of_startsWith hwhere, markers_of_conjuncts h]
  · cases h
    rfl

end Grammar

end TableSql
