import TableSql.Proofs.Statement.Nesting

/-!
# Spans by places

A span goes from the place where it starts to the first place behind it that is outside all
parentheses opened since, and holds a token that ends the span or a closing parenthesis, which then
closes none. If there is no such place, it goes to the end. The readers cut the tokens into such
spans and lose none of them: conditions are spans with the `AND`s outside parentheses between them,
and put side by side they are the tokens that were read.

## Main definitions

* `EndsAt` — the places where a span ends.
* `IsSpan` — so many tokens are the span at the front of a list.
* `withSeparators` — spans side by side, with a token behind each.
* `Partition` — tokens that are cut into conditions at the `AND`s outside parentheses.

## Main results

* `Cut.isSpan` — what is cut off is the span at the front.
* `exists_partition` — the reader of conditions cuts the tokens it reads into pieces.
* `spans_exact` — spans and conditions by places.
-/

namespace TableSql

/-! ### Spans -/

/-- A span ends at a place outside all parentheses, if the token there is a closing parenthesis or
one that `stop` holds of. -/
def EndsAt (stop : Token → Bool) (ts : List Token) (i : Nat) : Prop :=
  Outside ts i ∧ ∃ t ∈ ts[i]?, t = .closeParen ∨ stop t = true

/-- The span at the front of a list has so many tokens: it ends at the first place where one does,
or with the list. The counter of parentheses does not go below zero on the way. -/
structure IsSpan (stop : Token → Bool) (ts : List Token) (n : Nat) : Prop where
  le_length : n ≤ ts.length
  not_endsAt : ∀ m < n, ¬EndsAt stop ts m
  endsAt : n ≠ ts.length → EndsAt stop ts n
  isSome_counter? : ∀ m ≤ n, (counter? 0 (ts.take m)).isSome = true

section Spans

variable {stop : Token → Bool} {ts us span rest : List Token} {i : Nat}

theorem endsAt_iff : EndsAt stop ts i ↔
    openParens 0 (ts.take i) = 0 ∧ ∃ t ∈ ts[i]?, endsSpan stop t = true := by
  rw [EndsAt, outside_iff, and_assoc]
  refine and_congr_right fun _ => ⟨?_, ?_⟩
  · rintro ⟨hopen, t, ht, hstop⟩
    refine ⟨t, ht, ?_⟩
    have hne : t ≠ .openParen := by
      rintro rfl
      exact hopen ht
    simpa [endsSpan, hne] using hstop
  · rintro ⟨t, ht, hends⟩
    refine ⟨fun hopen => ?_, t, ht, ?_⟩
    · rw [hopen] at ht
      cases ht
      cases hends
    · simp only [endsSpan, Bool.or_eq_true, Bool.and_eq_true, decide_eq_true_eq] at hends
      exact hends.imp_right And.right

/-- What is cut off from the rest is the span at the front. -/
theorem Cut.isSpan (h : Cut stop 0 span rest) : IsSpan stop (span ++ rest) span.length where
  le_length := by simp
  not_endsAt m hm hends := by
    obtain ⟨hopen, t, ht, hends⟩ := endsAt_iff.1 hends
    rw [List.take_append_of_le_length hm.le] at hopen
    rw [List.getElem?_append_left hm] at ht
    obtain ⟨hlt, hget⟩ := List.getElem?_eq_some_iff.1 ht
    have hsplit : span = span.take m ++ t :: span.drop (m + 1) := by
      rw [← hget, List.getElem_cons_drop, List.take_append_drop]
    exact Bool.false_ne_true ((h.uncut _ t _ hsplit hopen).symm.trans hends)
  endsAt hne := by
    cases rest with
    | nil => simp at hne
    | cons t rest =>
      obtain ⟨hopen, hends⟩ := h.ends t rfl
      exact endsAt_iff.2 ⟨by rwa [List.take_left], t, by simp, hends⟩
  isSome_counter? m hm := by
    rw [List.take_append_of_le_length hm, isSome_counter?_iff, opened_iff]
    have huncut : Uncut (fun _ => false) 0 (span.take m ++ span.drop m) := by
      rw [List.take_append_drop]
      exact h.uncut.mono nofun
    exact (uncut_append.1 huncut).1

/-- A span is taken off from a place on, and what is left begins right behind it. -/
theorem exists_takeSpan_drop (stop : Token → Bool) (ts : List Token) (start : Nat) :
    ∃ n, IsSpan stop (ts.drop start) n ∧
      takeSpan stop 0 (ts.drop start) = ((ts.drop start).take n, ts.drop (start + n)) := by
  rcases h : takeSpan stop 0 (ts.drop start) with ⟨span, rest⟩
  obtain ⟨happend, hcut⟩ := takeSpan_eq_iff.1 h
  refine ⟨span.length, happend ▸ hcut.isSpan, ?_⟩
  rw [← List.drop_drop, happend, List.take_left, List.drop_left]

end Spans

/-! ### Conditions -/

/-- An `AND` stands at a place outside all parentheses. -/
def AndAt (ts : List Token) (i : Nat) : Prop :=
  Outside ts i ∧ ∃ t ∈ ts[i]?, t.isKeyword .AND = true

/-- Spans side by side, with a token behind each of them. -/
def withJoints (pairs : List (List Token × Token)) : List Token :=
  pairs.flatMap fun p => p.1 ++ [p.2]

/-- The token behind one of the spans stands at the place. -/
def JointAt (pairs : List (List Token × Token)) (i : Nat) : Prop :=
  ∃ front p behind, pairs = front ++ p :: behind ∧ i = (withJoints front ++ p.1).length

/-- The tokens are conditions with a token behind each, a last condition, and the rest. The
conditions are the spans at their places, and none but perhaps the last one is empty. The tokens
between them are the `AND`s outside parentheses, and a last condition that is not empty has no
`AND` behind it. -/
structure Partition (ts : List Token) (pairs : List (List Token × Token)) (last rest : List Token) :
    Prop where
  eq_append : ts = withJoints pairs ++ (last ++ rest)
  isSpan : ∀ front p behind, pairs = front ++ p :: behind →
    p.1 ≠ [] ∧ IsSpan endsConjunct (ts.drop (withJoints front).length) p.1.length
  isSpan_last : IsSpan endsConjunct (ts.drop (withJoints pairs).length) last.length
  andAt_iff : ∀ i < (withJoints pairs ++ last).length, AndAt ts i ↔ JointAt pairs i
  head?_rest : last ≠ [] → rest.head?.any (Token.isKeyword .AND) = false

section Conditions

variable {ts us span last rest : List Token} {t : Token} {pairs : List (List Token × Token)}
  {i : Nat}

theorem andAt_append (h : Closed (fun _ => false) us) :
    AndAt (us ++ ts) (us.length + i) ↔ AndAt ts i := by
  rw [AndAt, AndAt, outside_append h, getElem?_append_add]

/-- An `AND` ends a condition. -/
theorem AndAt.endsAt (h : AndAt ts i) : EndsAt endsConjunct ts i := by
  obtain ⟨houtside, t, ht, hand⟩ := h
  exact ⟨houtside, t, ht, .inr (by simp [endsConjunct, hand])⟩

theorem withJoints_cons (span : List Token) (t : Token) (pairs : List (List Token × Token)) :
    withJoints ((span, t) :: pairs) = (span ++ [t]) ++ withJoints pairs :=
  List.flatMap_cons

theorem length_withJoints_cons (span : List Token) (t : Token) (pairs : List (List Token × Token))
    (us : List Token) : (withJoints ((span, t) :: pairs) ++ us).length =
      (span ++ [t]).length + (withJoints pairs ++ us).length := by
  rw [withJoints_cons, List.append_assoc, List.length_append]

theorem jointAt_cons : JointAt ((span, t) :: pairs) i ↔
    i = span.length ∨ ∃ j, JointAt pairs j ∧ i = (span ++ [t]).length + j := by
  constructor
  · rintro ⟨front, p, behind, heq, rfl⟩
    cases front with
    | nil =>
      obtain ⟨rfl, -⟩ := List.cons.inj heq
      exact .inl rfl
    | cons q front =>
      obtain ⟨rfl, htail⟩ := List.cons.inj heq
      exact .inr ⟨_, ⟨front, p, behind, htail, rfl⟩, length_withJoints_cons span t front p.1⟩
  · rintro (rfl | ⟨j, ⟨front, p, behind, rfl, rfl⟩, rfl⟩)
    · exact ⟨[], (span, t), pairs, rfl, rfl⟩
    · exact ⟨(span, t) :: front, p, behind, rfl, (length_withJoints_cons span t front p.1).symm⟩

/-- A single condition, perhaps empty. -/
theorem partition_last (hcut : Cut endsConjunct 0 last rest)
    (hrest : last ≠ [] → rest.head?.any (Token.isKeyword .AND) = false) :
    Partition (last ++ rest) [] last rest where
  eq_append := rfl
  isSpan front p behind h := by simp at h
  isSpan_last := hcut.isSpan
  andAt_iff i hi := by
    refine iff_of_false (fun hand => hcut.isSpan.not_endsAt i hi hand.endsAt) ?_
    rintro ⟨front, p, behind, h, -⟩
    simp at h
  head?_rest := hrest

/-- One more condition in front, with an `AND` behind it. -/
theorem Partition.cons (hspan : span ≠ []) (hcut : Cut endsConjunct 0 span (t :: us))
    (hand : t.isKeyword .AND = true) (h : Partition us pairs last rest) :
    Partition (span ++ t :: us) ((span, t) :: pairs) last rest := by
  have hsplit : span ++ t :: us = (span ++ [t]) ++ us := List.append_cons span t us
  have hjoints := withJoints_cons span t pairs
  have hopen : Closed (fun _ => false) span := (hcut.closed (List.cons_ne_nil t us)).unstopped
  have hclosed : Closed (fun _ => false) (span ++ [t]) := hopen.append
    (closed_singleton (ne_parens_of_isKeyword hand).1 (ne_parens_of_isKeyword hand).2 rfl)
  refine ⟨?_, fun front p behind heq => ?_, ?_, fun i hi => ?_, h.head?_rest⟩
  · rw [hjoints, List.append_assoc, ← h.eq_append, hsplit]
  · cases front with
    | nil =>
      obtain ⟨rfl, -⟩ := List.cons.inj heq
      exact ⟨hspan, hcut.isSpan⟩
    | cons q front =>
      obtain ⟨rfl, htail⟩ := List.cons.inj heq
      rw [withJoints_cons, List.length_append, hsplit, List.drop_length_add_append]
      exact h.isSpan front p behind htail
  · rw [hjoints, List.length_append, hsplit, List.drop_length_add_append]
    exact h.isSpan_last
  · rw [jointAt_cons]
    rcases Nat.lt_trichotomy i span.length with hlt | rfl | hgt
    · -- a condition has no `AND` outside parentheses
      refine iff_of_false (fun hand => hcut.isSpan.not_endsAt i hlt hand.endsAt) ?_
      rintro (rfl | ⟨j, -, rfl⟩)
      · exact lt_irrefl _ hlt
      · simp at hlt
        omega
    · refine iff_of_true ⟨?_, t, by simp, hand⟩ (.inl rfl)
      refine outside_iff.2 ⟨by rw [List.take_left, hopen.openParens_eq], ?_⟩
      simpa using (ne_parens_of_isKeyword hand).1
    · obtain ⟨j, rfl⟩ : ∃ j, i = (span ++ [t]).length + j := by
        refine Nat.exists_eq_add_of_le ?_
        rw [List.length_append, List.length_singleton]
        exact hgt
      rw [hsplit, andAt_append hclosed]
      rw [length_withJoints_cons, Nat.add_lt_add_iff_left] at hi
      rw [h.andAt_iff j hi]
      constructor
      · exact fun hj => .inr ⟨j, hj, rfl⟩
      · rintro (heq | ⟨k, hk, heq⟩)
        · simp at heq
          omega
        · rwa [Nat.add_left_cancel heq]

/-- The reader of conditions cuts the tokens into pieces. It fails at an empty condition, and
otherwise it has the conditions in order. -/
theorem exists_partition (ts : List Token) : ∃ pairs last rest, Partition ts pairs last rest ∧
    conjuncts ts = if last = [] then .error (.before rest.length .expectedCondition)
      else .ok (pairs.map Prod.fst ++ [last], rest) := by
  rcases h : takeSpan endsConjunct 0 ts with ⟨span, rest⟩
  obtain ⟨hts, hcut⟩ := takeSpan_eq_iff.1 h
  by_cases hspan : span = []
  · subst hspan
    refine ⟨[], [], rest, hts ▸ partition_last hcut (absurd rfl), ?_⟩
    rw [conjuncts_of_nil h, if_pos rfl, hts, List.nil_append]
  cases hand : rest.head?.any (Token.isKeyword .AND) with
  | false =>
    refine ⟨[], span, rest, hts ▸ partition_last hcut fun _ => hand, ?_⟩
    rw [conjuncts_of_head? h hspan hand, if_neg hspan]
    rfl
  | true =>
    cases rest with
    | nil => cases hand
    | cons t us =>
      obtain ⟨pairs, last, rest, hus, hread⟩ := exists_partition us
      refine ⟨(span, t) :: pairs, last, rest, hts ▸ hus.cons hspan hcut hand, ?_⟩
      rw [conjuncts_of_and h hspan hand, hread]
      split <;> rfl
termination_by ts.length
decreasing_by rw [hts, List.length_append, List.length_cons]; omega

/-- A span is the contiguous tokens from its start up to the first place outside all parentheses
opened since at which a token ends it, or up to the end, the reader goes on right behind it, and its
counter never goes below zero. The conditions that are read from a list, with the `AND`s outside
parentheses between them, are exactly the tokens that were read. -/
theorem spans_exact :
    (∀ (stop : Token → Bool) (ts : List Token) (start : Nat), ∃ n,
      IsSpan stop (ts.drop start) n ∧
      takeSpan stop 0 (ts.drop start) = ((ts.drop start).take n, ts.drop (start + n))) ∧
    ∀ ts : List Token, ∃ pairs last rest, Partition ts pairs last rest ∧
      conjuncts ts = if last = [] then .error (.before rest.length .expectedCondition)
        else .ok (pairs.map Prod.fst ++ [last], rest) :=
  ⟨exists_takeSpan_drop, exists_partition⟩

end Conditions

end TableSql
