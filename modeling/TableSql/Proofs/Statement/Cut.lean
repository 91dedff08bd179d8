import TableSql.Proofs.Statement.Readers

/-!
# Where spans end

A span of tokens is cut off in front of the first token outside parentheses that ends it. This is
said here without a reader: parentheses are counted from the front, no token of the span stands
outside all of them and ends it, and what follows the span is empty or begins with such a token. So
a list of tokens is cut in one way only, and the readers find it.

## Main definitions

* `openParens` — how many parentheses are open behind a list of tokens.
* `Uncut`, `Cut` — tokens that no token cuts off, and tokens cut off at their end.
* `Conjunction` — conjuncts with `AND` between them.

## Main results

* `takeSpan_eq_iff` — `takeSpan` finds the cut.
* `conjuncts_eq_ok_iff` — `conjuncts` finds the conjuncts.
-/

namespace TableSql

/-- The number of open parentheses behind a token. A closing parenthesis that closes none does not
count. -/
def Token.openBehind (depth : Nat) : Token → Nat
  | openParen => depth + 1
  | closeParen => depth - 1
  | _ => depth

/-- The number of open parentheses behind a list of tokens. -/
def openParens (depth : Nat) (ts : List Token) : Nat :=
  ts.foldl Token.openBehind depth

/-- Whether a token outside all parentheses ends a span: a closing parenthesis, or one that `stop`
holds of. An opening one never does. -/
def endsSpan (stop : Token → Bool) (t : Token) : Bool :=
  t = .closeParen || (t ≠ .openParen && stop t)

/-- None of the tokens ends a span outside all parentheses. -/
def Uncut (stop : Token → Bool) (depth : Nat) (ts : List Token) : Prop :=
  ∀ before t behind, ts = before ++ t :: behind → openParens depth before = 0 →
    endsSpan stop t = false

/-- The span is cut off in front of the rest: none of its tokens ends it, and what follows is
nothing, or a token outside all parentheses that ends it. -/
structure Cut (stop : Token → Bool) (depth : Nat) (span rest : List Token) : Prop where
  uncut : Uncut stop depth span
  ends : ∀ t ∈ rest.head?, openParens depth span = 0 ∧ endsSpan stop t = true

section Cut

variable {stop : Token → Bool} {depth : Nat} {t : Token} {ts span rest : List Token}

theorem openParens_cons (depth : Nat) (t : Token) (ts : List Token) :
    openParens depth (t :: ts) = openParens (t.openBehind depth) ts := rfl

theorem openParens_append (depth : Nat) (ts us : List Token) :
    openParens depth (ts ++ us) = openParens (openParens depth ts) us :=
  List.foldl_append

theorem uncut_nil (stop : Token → Bool) (depth : Nat) : Uncut stop depth [] := by
  intro before t behind h
  simp at h

theorem uncut_cons : Uncut stop depth (t :: ts) ↔
    (depth = 0 → endsSpan stop t = false) ∧ Uncut stop (t.openBehind depth) ts := by
  constructor
  · intro h
    refine ⟨h [] t ts rfl, fun before u behind hts => ?_⟩
    exact h (t :: before) u behind (by rw [hts, List.cons_append])
  · rintro ⟨ht, hts⟩ before u behind h
    cases before with
    | nil =>
      obtain ⟨rfl, -⟩ := List.cons.inj h
      exact ht
    | cons v before =>
      obtain ⟨rfl, htail⟩ := List.cons.inj h
      exact hts before u behind htail

theorem uncut_append {us : List Token} : Uncut stop depth (ts ++ us) ↔
    Uncut stop depth ts ∧ Uncut stop (openParens depth ts) us := by
  induction ts generalizing depth with
  | nil => exact (and_iff_right (uncut_nil stop depth)).symm
  | cons t ts ih => rw [List.cons_append, uncut_cons, uncut_cons, ih, openParens_cons, and_assoc]

/-- What no token of a larger class cuts off, none of a smaller class does. -/
theorem Uncut.mono {stop' : Token → Bool} (h : ∀ t, stop' t = true → stop t = true)
    (hts : Uncut stop depth ts) : Uncut stop' depth ts := by
  intro before t behind heq hdepth
  have ht := hts before t behind heq hdepth
  simp only [endsSpan, Bool.or_eq_false_iff, Bool.and_eq_false_iff] at ht ⊢
  refine ⟨ht.1, ht.2.imp_right fun hstop => ?_⟩
  rw [Bool.eq_false_iff] at hstop ⊢
  exact mt (h t) hstop

/-- A span is cut off in front of the first token, or goes on over it. -/
theorem takeSpan_cons (stop : Token → Bool) (depth : Nat) (t : Token) (ts : List Token) :
    takeSpan stop depth (t :: ts) =
      if depth = 0 ∧ endsSpan stop t = true then ([], t :: ts)
      else pushToken t (takeSpan stop (t.openBehind depth) ts) := by
  by_cases ho : t = .openParen
  · subst ho
    have hends : endsSpan stop .openParen = false := rfl
    rw [if_neg (by simp [hends])]
    rfl
  by_cases hc : t = .closeParen
  · subst hc
    have hends : endsSpan stop .closeParen = true := rfl
    cases depth with
    | zero => rw [if_pos ⟨rfl, hends⟩, takeSpan]
    | succ depth =>
      rw [if_neg (by simp)]
      rfl
  have hdepth : t.openBehind depth = depth := by
    cases t <;> first | rfl | contradiction
  have hends : endsSpan stop t = stop t := by
    simp [endsSpan, ho, hc]
  rw [takeSpan_cons_of_ne ho hc, hdepth, hends]

theorem cut_takeSpan (stop : Token → Bool) (depth : Nat) (ts : List Token) :
    Cut stop depth (takeSpan stop depth ts).1 (takeSpan stop depth ts).2 := by
  induction ts generalizing depth with
  | nil => exact ⟨uncut_nil stop depth, by simp [takeSpan]⟩
  | cons t ts ih =>
    rw [takeSpan_cons]
    split
    · rename_i h
      exact ⟨uncut_nil stop depth, by simpa [openParens] using h⟩
    · rename_i h
      refine ⟨uncut_cons.2 ⟨fun hdepth => ?_, (ih _).uncut⟩, (ih _).ends⟩
      exact Bool.eq_false_iff.2 fun ht => h ⟨hdepth, ht⟩

theorem takeSpan_of_cut (h : Cut stop depth span rest) :
    takeSpan stop depth (span ++ rest) = (span, rest) := by
  induction span generalizing depth with
  | nil =>
    cases rest with
    | nil => rfl
    | cons t rest =>
      have hdepth : depth = 0 := (h.ends t rfl).1
      rw [List.nil_append, takeSpan_cons, if_pos ⟨hdepth, (h.ends t rfl).2⟩]
  | cons t span ih =>
    obtain ⟨ht, hspan⟩ := uncut_cons.1 h.uncut
    have hgo : ¬(depth = 0 ∧ endsSpan stop t = true) := by
      rintro ⟨hdepth, hends⟩
      exact Bool.false_ne_true ((ht hdepth).symm.trans hends)
    rw [List.cons_append, takeSpan_cons, if_neg hgo, ih ⟨hspan, h.ends⟩]
    rfl

/-- A span is taken off exactly where it is cut. -/
theorem takeSpan_eq_iff : takeSpan stop depth ts = (span, rest) ↔
    ts = span ++ rest ∧ Cut stop depth span rest := by
  constructor
  · intro h
    have happend := takeSpan_append stop depth ts
    have hcut := cut_takeSpan stop depth ts
    rw [h] at happend hcut
    exact ⟨happend.symm, hcut⟩
  · rintro ⟨rfl, h⟩
    exact takeSpan_of_cut h

end Cut

/-! ### Conjuncts -/

/-- The conjuncts at the front of a list of tokens, and the tokens behind them: each is cut off
where a conjunct ends, all but the last one in front of an `AND`. -/
inductive Conjunction : List Token → List (List Token) → List Token → Prop
  | last {span rest : List Token} (hspan : span ≠ []) (hcut : Cut endsConjunct 0 span rest)
      (hrest : rest.head?.any (Token.isKeyword .AND) = false) :
      Conjunction (span ++ rest) [span] rest
  | and {span : List Token} {t : Token} {ts : List Token} {spans : List (List Token)}
      {rest : List Token} (hspan : span ≠ []) (hcut : Cut endsConjunct 0 span (t :: ts))
      (hand : t.isKeyword .AND = true) (h : Conjunction ts spans rest) :
      Conjunction (span ++ t :: ts) (span :: spans) rest

/-- The tokens of the conjuncts are among those that they are cut out of. -/
theorem Conjunction.flatten_subset {ts rest : List Token} {spans : List (List Token)}
    (h : Conjunction ts spans rest) : spans.flatten ⊆ ts := by
  induction h with
  | last => simp
  | and _ _ _ _ ih =>
    rw [List.flatten_cons]
    refine List.append_subset.2 ⟨List.subset_append_left _ _, fun u hu => ?_⟩
    exact List.mem_append_right _ (List.mem_cons_of_mem _ (ih hu))

/-- The reader of conjuncts finds them, and accepts nothing else. -/
theorem conjuncts_eq_ok_iff {ts rest : List Token} {spans : List (List Token)} :
    conjuncts ts = .ok (spans, rest) ↔ Conjunction ts spans rest := by
  constructor
  · intro h
    fun_induction conjuncts ts generalizing spans with
    | case1 => cases h
    | case2 ts span hne hts =>
      cases h
      obtain ⟨rfl, hcut⟩ := takeSpan_eq_iff.1 hts
      exact .last hne hcut rfl
    | case3 ts span t rest' hne hts hand spans' rest'' hrest ih =>
      cases h
      obtain ⟨rfl, hcut⟩ := takeSpan_eq_iff.1 hts
      exact .and hne hcut hand (ih hrest)
    | case4 => cases h
    | case5 ts span t rest' hne hts hand =>
      cases h
      obtain ⟨rfl, hcut⟩ := takeSpan_eq_iff.1 hts
      exact .last hne hcut (by simpa using hand)
  · intro h
    induction h with
    | last hspan hcut hrest => exact conjuncts_of_head? (takeSpan_of_cut hcut) hspan hrest
    | and hspan hcut hand _ ih =>
      rw [conjuncts_of_and (takeSpan_of_cut hcut) hspan hand, ih, map_ok]

end TableSql
