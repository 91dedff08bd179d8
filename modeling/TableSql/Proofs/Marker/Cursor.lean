import TableSql.Proofs.Marker.Order

/-!
# The cursor and the markers behind it

When a statement with sequential markers is read, the cursor says how many parameters were taken. If
the same statement has its markers numbered, the numbers say which markers they are. The two agree
except for a marker that a condition tests for null: such a condition takes no parameter for its
marker, so every marker behind it takes the parameter of the one before.

## Main definitions

* `testedMarkers` — the markers that conditions test for null.
* `slips`, `Operand.slipped` — by how many parameters a marker is behind, and what it takes instead.

## Main results

* `Cursor.value_unnumbered` — a value takes a parameter for each of its markers.
* `Cursor.condition_unnumbered` — so does a condition, except a test of a marker for null.
* `Cursor.conditions_unnumbered` — what the conditions of a statement take.
-/

namespace TableSql

/-! ### Slips -/

/-- The index of the marker that a condition tests for null. -/
def testedMarker? : List Token → Option Nat
  | [.marker (.numbered (n + 1)), is, null] =>
    if is.isKeyword .IS ∧ null.isKeyword .NULL then some n else none
  | _ => none

/-- The indices of the markers that conditions test for null. -/
def testedMarkers (spans : List (List Token)) : List Nat :=
  spans.filterMap testedMarker?

/-- How many of the tested markers stand in front of the marker with the given index. -/
def slips (tested : List Nat) (k : Nat) : Nat :=
  tested.countP (· < k)

/-- The operand that is taken in place of the given one. -/
def Operand.slipped (tested : List Nat) : Operand → Operand
  | parameter k => parameter (k - slips tested k)
  | a => a

/-- The next `n` markers, the first of them with index `k`, all take the parameter of a marker
further in front, the first of them the one with index `used`. -/
def Lag (tested : List Nat) (used k n : Nat) : Prop :=
  ∀ j, k ≤ j → j < k + n → used + slips tested j = k

/-- All tested markers stand in front of the marker with index `k`, and all other markers in front
of it have taken their parameters. -/
structure Behind (tested : List Nat) (used k : Nat) : Prop where
  lt : ∀ i ∈ tested, i < k
  used_add : used + tested.length = k

theorem slips_append (tested tested' : List Nat) (k : Nat) :
    slips (tested ++ tested') k = slips tested k + slips tested' k := by
  simp [slips]

theorem slips_of_forall_lt {tested : List Nat} {k : Nat} (h : ∀ i ∈ tested, i < k) :
    slips tested k = tested.length :=
  List.countP_eq_length.2 fun i hi => decide_eq_true (h i hi)

theorem slips_of_forall_le {tested : List Nat} {k : Nat} (h : ∀ i ∈ tested, k ≤ i) :
    slips tested k = 0 :=
  List.countP_eq_zero.2 fun i hi => by simpa using h i hi

theorem behind_nil (k : Nat) : Behind [] k k :=
  ⟨by simp, rfl⟩

theorem Behind.lag {tested : List Nat} {u k : Nat} (h : Behind tested u k) (n : Nat) :
    Lag tested u k n := by
  intro j hkj _
  rw [slips_of_forall_lt fun i hi => Nat.lt_of_lt_of_le (h.lt i hi) hkj]
  exact h.used_add

/-- A token that is no marker takes no parameter. -/
theorem slipped_tokenLiteral (tested : List Nat) (t : Token) :
    t.literal.slipped tested = t.literal := by
  cases t with
  | word w =>
    simp only [Token.literal]
    split <;> rfl
  | marker m => cases m <;> rfl
  | _ => rfl

theorem callOperand?_slipped (tested : List Nat) (name : String) (args : List Token) :
    (callOperand? name args).map (Operand.slipped tested) = callOperand? name args := by
  unfold callOperand?
  split
  · split <;> rfl
  · split <;> rfl
  · rfl

theorem callOperand?_unnumbered (name : String) (args : List Token) :
    callOperand? name (args.map Token.unnumbered) = callOperand? name args := by
  match args with
  | [] => rfl
  | [t] => cases t <;> rfl
  | t :: _ :: _ => cases t <;> rfl

/-! ### Taking and passing over markers -/

namespace Cursor

variable {c : Cursor} {tested : List Nat} {u k : Nat}

theorem skipAll_eq (c : Cursor) (ts : List Token) : c.skipAll ts = (markers ts).foldl skip c := rfl

theorem skipAll_append (c : Cursor) (ts us : List Token) :
    c.skipAll (ts ++ us) = (c.skipAll ts).skipAll us := by
  rw [skipAll_eq, skipAll_eq, skipAll_eq, markers_append, List.foldl_append]

theorem skipAll_of_markers_eq {ts us : List Token} (h : markers ts = markers us) (c : Cursor) :
    c.skipAll ts = c.skipAll us := by
  rw [skipAll_eq, skipAll_eq, h]

/-- Passing over sequential markers takes a parameter for each. -/
theorem skipAll_unnumbered (u : Nat) (ts : List Token) :
    (⟨.sequential, u⟩ : Cursor).skipAll (ts.map Token.unnumbered) =
      ⟨.sequential, u + (markers ts).length⟩ := by
  rw [skipAll_eq, markers_unnumbered]
  induction markers ts generalizing u with
  | nil => rfl
  | cons m ms ih =>
    rw [List.map_cons, List.foldl_cons, List.length_cons]
    exact (ih (u + 1)).trans (by rw [Nat.add_right_comm, Nat.add_assoc])

/-- Numbered markers take no parameter from the cursor. -/
theorem skipAll_of_inOrder {ts : List Token} (h : InOrder k (markers ts)) : c.skipAll ts = c := by
  rw [skipAll_eq]
  generalize markers ts = ms at h
  induction ms generalizing k with
  | nil => rfl
  | cons m ms ih =>
    obtain ⟨rfl, h⟩ := h
    exact ih h

theorem resolve_unnumbered {t : Token} (ho : InOrder k (markers [t]))
    (hl : Lag tested u k (markers [t]).length) :
    (⟨.sequential, u⟩ : Cursor).resolve t.unnumbered =
      ((c.resolve t).1.slipped tested, ⟨.sequential, u + (markers [t]).length⟩) := by
  cases t with
  | marker m =>
    obtain ⟨rfl, -⟩ := ho
    have hu : u = k - slips tested k := by
      have := hl k (Nat.le_refl k) (Nat.lt_succ_self k)
      omega
    show (Operand.parameter u, _) = (Operand.parameter (k - slips tested k), _)
    rw [← hu]
    rfl
  | _ => exact congrArg (·, _) (slipped_tokenLiteral tested _).symm

theorem resolve_of_inOrder {t : Token} (ho : InOrder k (markers [t])) : (c.resolve t).2 = c := by
  cases t with
  | marker m =>
    obtain ⟨rfl, -⟩ := ho
    rfl
  | _ => rfl

end Cursor

/-- The parenthesis that closes a call stands where it is found. -/
theorem eq_append_of_closing? {depth n : Nat} {ts : List Token} (h : closing? depth ts = some n) :
    ts = ts.take n ++ .closeParen :: ts.drop (n + 1) := by
  induction ts generalizing depth n with
  | nil => cases h
  | cons t ts ih =>
    have hstep {depth : Nat} (h : (closing? depth ts).map (· + 1) = some n) :
        t :: ts = (t :: ts).take n ++ .closeParen :: (t :: ts).drop (n + 1) := by
      obtain ⟨m, hm, rfl⟩ := Option.map_eq_some_iff.1 h
      rw [List.take_succ_cons, List.drop_succ_cons, List.cons_append, ← ih hm]
    by_cases ho : t = .openParen
    · subst ho
      exact hstep h
    by_cases hc : t = .closeParen
    · subst hc
      cases depth with
      | zero =>
        cases h
        rfl
      | succ depth => exact hstep h
    rw [closing?_cons_of_ne ho hc] at h
    exact hstep h

/-- The markers of a call are those of its arguments. -/
theorem markers_of_ofSpan? {span : List Token} {call : FunctionCall}
    (h : FunctionCall.ofSpan? span = some call) : markers call.args = markers span := by
  unfold FunctionCall.ofSpan? at h
  split at h
  · rename_i w t ts
    split at h
    · rename_i hclosing
      cases h
      have hsplit := eq_append_of_closing? hclosing
      have hdrop : (t :: ts).drop (ts.length + 1) = [] := List.drop_eq_nil_of_le (by simp)
      rw [hdrop] at hsplit
      have hmarkers : markers (t :: ts) = markers ((t :: ts).take ts.length) := by
        conv => lhs; rw [hsplit]
        rw [markers_append, markers_cons_of_none rfl, markers_nil, List.append_nil]
      exact hmarkers.symm
    · cases h
  · cases h

namespace Cursor

variable {c : Cursor} {tested : List Nat} {u k : Nat}

theorem value_of_length {span : List Token} (h : span.length ≠ 1) (c : Cursor) :
    c.value span =
      match FunctionCall.ofSpan? span with
      | some call => (callOperand? call.function call.args, c.skipAll call.args)
      | none => (none, c.skipAll span) := by
  match span with
  | [] => rfl
  | [t] => exact absurd rfl h
  | _ :: _ :: _ => rfl

theorem markers_of_isValue_eq_false {t : Token} (h : t.isValue = false) : markers [t] = [] := by
  cases t <;> first | rfl | cases h

/-- A value takes a parameter for each of its markers, and its operand is behind by the markers that
were tested before. -/
theorem value_unnumbered {span : List Token} (ho : InOrder k (markers span))
    (hl : Lag tested u k (markers span).length) :
    (⟨.sequential, u⟩ : Cursor).value (span.map Token.unnumbered) =
      ((c.value span).1.map (Operand.slipped tested),
        ⟨.sequential, u + (markers span).length⟩) := by
  by_cases hlength : span.length = 1
  · obtain ⟨t, rfl⟩ := List.length_eq_one_iff.1 hlength
    rw [List.map_singleton]
    cases hvalue : t.isValue with
    | true =>
      simp only [value, Token.isValue_unnumbered, hvalue, if_pos]
      rw [resolve_unnumbered (c := c) ho hl]
      rfl
    | false =>
      rw [markers_of_isValue_eq_false hvalue]
      simp [value, hvalue]
  · rw [value_of_length hlength, value_of_length (by rwa [List.length_map]),
      FunctionCall.ofSpan?_unnumbered]
    cases hcall : FunctionCall.ofSpan? span with
    | none => exact congrArg _ (skipAll_unnumbered u span)
    | some call =>
      rw [← markers_of_ofSpan? hcall]
      show (callOperand? _ (call.args.map _), Cursor.skipAll _ (call.args.map _)) = _
      rw [callOperand?_unnumbered, skipAll_unnumbered]
      exact congrArg (·, _) (callOperand?_slipped tested _ _).symm

theorem value_of_inOrder {span : List Token} (ho : InOrder k (markers span)) :
    (c.value span).2 = c := by
  by_cases hlength : span.length = 1
  · obtain ⟨t, rfl⟩ := List.length_eq_one_iff.1 hlength
    simp only [value]
    split
    · exact resolve_of_inOrder ho
    · rfl
  · rw [value_of_length hlength]
    split
    · rename_i hcall
      exact skipAll_of_inOrder (k := k) (by rwa [markers_of_ofSpan? hcall])
    · exact skipAll_of_inOrder ho

/-! ### Conditions -/

theorem condition_of_equals {column t : Token} {ts : List Token} (c : Cursor) :
    c.condition (column :: .equals :: t :: ts) =
      match column.name? with
      | some name => ((c.value (t :: ts)).1.map (Filter.mk name), (c.value (t :: ts)).2)
      | none => (none, c.skipAll (column :: .equals :: t :: ts)) := rfl

theorem condition_of_test {column is null : Token} (h : is ≠ .equals) (c : Cursor) :
    c.condition [column, is, null] =
      if is.isKeyword .IS ∧ null.isKeyword .NULL then
        (column.name?.map fun name => ⟨name, .literal .null⟩, c)
      else (none, c.skipAll [column, is, null]) := by
  cases is <;> first | rfl | contradiction

theorem condition_of_long {column t u v : Token} {ts : List Token} (h : t ≠ .equals) (c : Cursor) :
    c.condition (column :: t :: u :: v :: ts) =
      (none, c.skipAll (column :: t :: u :: v :: ts)) := by
  cases t <;> first | rfl | contradiction

theorem testedMarker?_of_length {span : List Token} (h : span.length ≠ 3) :
    testedMarker? span = none := by
  unfold testedMarker?
  split
  · exact absurd rfl h
  · rfl

theorem testedMarker?_of_equals (column : Token) (ts : List Token) :
    testedMarker? (column :: .equals :: ts) = none := by
  unfold testedMarker?
  split
  · rename_i heq
    obtain ⟨-, rfl, -⟩ : _ ∧ _ ∧ _ := by simpa using heq
    rfl
  · rfl

theorem testedMarker?_of_ne {column is null : Token}
    (h : ¬(is.isKeyword .IS ∧ null.isKeyword .NULL)) : testedMarker? [column, is, null] = none := by
  cases column with
  | marker m => rcases m with _ | _ | n <;> simp [testedMarker?, h]
  | _ => rfl

/-- A test for null takes no parameter, also if it tests a marker. -/
theorem condition_test_unnumbered {column is null : Token} (his : is.isKeyword .IS = true)
    (hnull : null.isKeyword .NULL = true) (ho : InOrder k (markers [column, is, null])) :
    (⟨.sequential, u⟩ : Cursor).condition ([column, is, null].map Token.unnumbered) =
      ((c.condition [column, is, null]).1.map (Filter.map (Operand.slipped tested)),
        ⟨.sequential, u + (markers [column, is, null]).length -
          (testedMarker? [column, is, null]).toList.length⟩) := by
  have hne : is ≠ .equals := by
    rintro rfl
    cases his
  have hne' : is.unnumbered ≠ .equals := mt (Token.unnumbered_eq_iff rfl).1 hne
  have hmarkers : markers [is, null] = [] := by
    rw [markers_cons_of_none (marker?_eq_none_of_isKeyword his),
      markers_cons_of_none (marker?_eq_none_of_isKeyword hnull), markers_nil]
  simp only [List.map_cons, List.map_nil]
  rw [condition_of_test hne', condition_of_test hne, Token.isKeyword_unnumbered,
    Token.isKeyword_unnumbered, Token.name?_unnumbered, if_pos ⟨his, hnull⟩, if_pos ⟨his, hnull⟩]
  cases hm : column.marker? with
  | none =>
    have htested : testedMarker? [column, is, null] = none := by
      cases column <;> first | rfl | cases hm
    rw [markers_cons_of_none hm, hmarkers, htested]
    cases column.name? <;> rfl
  | some m =>
    cases column <;> cases hm
    obtain ⟨rfl, -⟩ := ho
    simp [testedMarker?, his, hnull, hmarkers, Token.name?]

/-- A condition takes a parameter for each of its markers, except for a marker that it tests for
null. -/
theorem condition_unnumbered {span : List Token} (ho : InOrder k (markers span))
    (hl : Lag tested u k (markers span).length) :
    (⟨.sequential, u⟩ : Cursor).condition (span.map Token.unnumbered) =
      ((c.condition span).1.map (Filter.map (Operand.slipped tested)),
        ⟨.sequential, u + (markers span).length - (testedMarker? span).toList.length⟩) := by
  -- A condition that is not understood passes over its markers.
  have hskip {span : List Token} (htested : testedMarker? span = none)
      (h : ∀ c : Cursor, c.condition span = (none, c.skipAll span))
      (h' : ∀ c : Cursor, c.condition (span.map Token.unnumbered) =
        (none, c.skipAll (span.map Token.unnumbered))) :
      (⟨.sequential, u⟩ : Cursor).condition (span.map Token.unnumbered) =
        ((c.condition span).1.map (Filter.map (Operand.slipped tested)),
          ⟨.sequential, u + (markers span).length - (testedMarker? span).toList.length⟩) := by
    rw [h', h, skipAll_unnumbered, htested]
    rfl
  match span with
  | [] => exact hskip rfl (fun _ => rfl) fun _ => rfl
  | [_] => exact hskip (testedMarker?_of_length (by simp)) (fun _ => rfl) fun _ => rfl
  | [_, s] =>
    refine hskip (testedMarker?_of_length (by simp)) (fun _ => ?_) fun _ => ?_
    · cases s <;> rfl
    · cases s <;> rfl
  | column :: s :: t :: ts =>
    by_cases hs : s = .equals
    · subst hs
      cases hname : column.name? with
      | none =>
        refine hskip (testedMarker?_of_equals column _) (fun c => ?_) fun c => ?_
        · rw [condition_of_equals, hname]
        · show c.condition (column.unnumbered :: .equals :: t.unnumbered :: _) = _
          rw [condition_of_equals, Token.name?_unnumbered, hname]
          rfl
      | some name =>
        have hcolumn : column.marker? = none := by
          cases column <;> first | rfl | cases hname
        rw [markers_cons_of_none hcolumn, markers_cons_of_none rfl] at ho hl ⊢
        rw [testedMarker?_of_equals, condition_of_equals, hname]
        show Cursor.condition _ (column.unnumbered :: .equals :: t.unnumbered :: _) = _
        rw [condition_of_equals, Token.name?_unnumbered, hname, ← List.map_cons]
        dsimp only
        rw [value_unnumbered (c := c) ho hl]
        cases (c.value (t :: ts)).1 <;> rfl
    · have hs' : s.unnumbered ≠ .equals := mt (Token.unnumbered_eq_iff rfl).1 hs
      cases ts with
      | nil =>
        by_cases htest : s.isKeyword .IS ∧ t.isKeyword .NULL
        · exact condition_test_unnumbered htest.1 htest.2 ho
        · have htest' : ¬(s.unnumbered.isKeyword .IS ∧ t.unnumbered.isKeyword .NULL) := by
            simpa using htest
          refine hskip (testedMarker?_of_ne htest) (fun c => ?_) fun c => ?_
          · rw [condition_of_test hs, if_neg htest]
          · exact (condition_of_test hs' c).trans (if_neg htest')
      | cons v ts =>
        exact hskip (testedMarker?_of_length (by simp)) (fun c => condition_of_long hs c)
          fun c => condition_of_long hs' c

theorem condition_of_inOrder {span : List Token} (ho : InOrder k (markers span)) :
    (c.condition span).2 = c := by
  unfold condition
  split
  · rename_i column t ts
    split
    · rename_i hname
      have hcolumn : column.marker? = none := by
        cases column <;> first | rfl | cases hname
      rw [markers_cons_of_none hcolumn, markers_cons_of_none rfl] at ho
      exact value_of_inOrder ho
    · exact skipAll_of_inOrder ho
  · split
    · rfl
    · exact skipAll_of_inOrder ho
  · exact skipAll_of_inOrder ho

theorem conditions_of_inOrder {spans : List (List Token)}
    (ho : InOrder k (markers spans.flatten)) : (c.conditions spans).2 = c := by
  induction spans generalizing k with
  | nil => rfl
  | cons span spans ih =>
    rw [List.flatten_cons, markers_append, inOrder_append] at ho
    simp only [conditions, condition_of_inOrder ho.1, ih ho.2]

/-- The marker that a condition tests for null is its only one. -/
theorem eq_of_testedMarker? {span : List Token} {i : Nat} (h : testedMarker? span = some i)
    (ho : InOrder k (markers span)) : i = k ∧ (markers span).length = 1 := by
  unfold testedMarker? at h
  split at h
  · rename_i n is null
    split at h
    · rename_i htest
      cases h
      have hmarkers : markers [is, null] = [] := by
        rw [markers_cons_of_none (marker?_eq_none_of_isKeyword htest.1),
          markers_cons_of_none (marker?_eq_none_of_isKeyword htest.2), markers_nil]
      rw [markers_cons_marker, hmarkers] at ho ⊢
      exact ⟨by simpa using (Marker.numbered.inj ho.1), rfl⟩
    · cases h
  · cases h

theorem le_of_mem_testedMarkers {spans : List (List Token)} {i : Nat}
    (ho : InOrder k (markers spans.flatten)) (hi : i ∈ testedMarkers spans) : k ≤ i := by
  induction spans generalizing k with
  | nil => cases hi
  | cons span spans ih =>
    rw [List.flatten_cons, markers_append, inOrder_append] at ho
    obtain ⟨span', hspan', hi'⟩ := List.mem_filterMap.1 hi
    rcases List.mem_cons.1 hspan' with rfl | hspan'
    · exact Nat.le_of_eq (eq_of_testedMarker? hi' ho.1).1.symm
    · exact Nat.le_of_add_right_le (ih ho.2 (List.mem_filterMap.2 ⟨span', hspan', hi'⟩))

theorem testedMarkers_cons (span : List Token) (spans : List (List Token)) :
    testedMarkers (span :: spans) = (testedMarker? span).toList ++ testedMarkers spans := by
  rw [testedMarkers, List.filterMap_cons]
  cases testedMarker? span <;> rfl

theorem length_testedMarker?_le {span : List Token} (ho : InOrder k (markers span)) :
    (testedMarker? span).toList.length ≤ (markers span).length := by
  cases h : testedMarker? span with
  | none => exact Nat.zero_le _
  | some i => exact Nat.le_of_eq (eq_of_testedMarker? h ho).2.symm

/-- Inside a condition all markers are behind by those that were tested before it. -/
theorem lag_of_condition {span : List Token} {spans : List (List Token)} {before : List Nat}
    (ho : InOrder k (markers span))
    (hrest : InOrder (k + (markers span).length) (markers spans.flatten))
    (hb : Behind before u k) :
    Lag (before ++ testedMarkers (span :: spans)) u k (markers span).length := by
  intro j hkj hj
  have hspan : slips (testedMarker? span).toList j = 0 := by
    refine slips_of_forall_le fun i hi => ?_
    obtain ⟨rfl, hone⟩ := eq_of_testedMarker? (Option.mem_toList.1 hi) ho
    omega
  have hspans : slips (testedMarkers spans) j = 0 := by
    refine slips_of_forall_le fun i hi => ?_
    have := le_of_mem_testedMarkers hrest hi
    omega
  have hlength := hb.lag (markers span).length j hkj hj
  rw [testedMarkers_cons, slips_append, slips_append, hspan, hspans]
  exact hlength

/-- Behind a condition, the marker that it tested for null is one more that took no parameter. -/
theorem behind_condition {span : List Token} {before : List Nat} (ho : InOrder k (markers span))
    (hb : Behind before u k) :
    Behind (before ++ (testedMarker? span).toList)
      (u + (markers span).length - (testedMarker? span).toList.length)
      (k + (markers span).length) := by
  have hle := length_testedMarker?_le ho
  have hused := hb.used_add
  refine ⟨fun i hi => ?_, ?_⟩
  · rcases List.mem_append.1 hi with hi | hi
    · exact Nat.lt_of_lt_of_le (hb.lt i hi) (Nat.le_add_right _ _)
    · obtain ⟨rfl, hone⟩ := eq_of_testedMarker? (Option.mem_toList.1 hi) ho
      omega
  · rw [List.length_append]
    omega

/-- The conditions of a statement take a parameter for each of their markers, except for those that
they test for null, and the operands of each condition are behind by the markers that were tested
before it. -/
theorem conditions_unnumbered {spans : List (List Token)} {before : List Nat}
    (ho : InOrder k (markers spans.flatten)) (hb : Behind before u k) (c : Cursor) :
    ∃ u', Behind (before ++ testedMarkers spans) u' (k + (markers spans.flatten).length) ∧
      (⟨.sequential, u⟩ : Cursor).conditions (spans.map (List.map Token.unnumbered)) =
        ((c.conditions spans).1.map
            (Option.map (Filter.map (Operand.slipped (before ++ testedMarkers spans)))),
          ⟨.sequential, u'⟩) := by
  induction spans generalizing u k before with
  | nil => exact ⟨u, by simpa [testedMarkers] using hb, rfl⟩
  | cons span spans ih =>
    rw [List.flatten_cons, markers_append, inOrder_append] at ho
    obtain ⟨hspan, hspans⟩ := ho
    have hlag := lag_of_condition hspan hspans hb
    obtain ⟨u', hb', hrest⟩ := ih hspans (behind_condition hspan hb)
    rw [List.append_assoc, ← testedMarkers_cons] at hb' hrest
    refine ⟨u', ?_, ?_⟩
    · rwa [List.flatten_cons, markers_append, List.length_append, ← Nat.add_assoc]
    · simp only [List.map_cons, conditions, condition_unnumbered (c := c) hspan hlag,
        condition_of_inOrder hspan, hrest]

end Cursor

end TableSql
