import TableSql.Proofs.Statement.Cut

/-!
# Reading does not look at the numbers of markers

Only the cursor tells the markers of a statement apart. The readers that find names, spans and
clauses treat all markers alike: when the numbers of all markers are taken away, they read the same
from the tokens and leave the same tokens behind, without their numbers.

## Main definitions

* `Token.unnumbered` — a token whose marker has lost its number.

## Main results

* `takeSpan_unnumbered`, `names_unnumbered`, `conjuncts_unnumbered`, `sortKeys_unnumbered` — the
  readers of several tokens.
-/

namespace TableSql

namespace Token

/-- The token with `?` in place of a numbered marker. -/
def unnumbered : Token → Token
  | marker _ => marker .next
  | t => t

@[simp]
theorem keyword?_unnumbered (t : Token) : t.unnumbered.keyword? = t.keyword? := by
  cases t <;> rfl

@[simp]
theorem isKeyword_unnumbered (k : Keyword) (t : Token) :
    t.unnumbered.isKeyword k = t.isKeyword k := by
  simp [isKeyword]

@[simp]
theorem name?_unnumbered (t : Token) : t.unnumbered.name? = t.name? := by
  cases t <;> rfl

@[simp]
theorem isValue_unnumbered (t : Token) : t.unnumbered.isValue = t.isValue := by
  cases t <;> rfl

@[simp]
theorem isAggregateWord_unnumbered (t : Token) :
    t.unnumbered.isAggregateWord = t.isAggregateWord := by
  cases t <;> rfl

theorem marker?_unnumbered (t : Token) :
    t.unnumbered.marker? = t.marker?.map fun _ => .next := by
  cases t <;> rfl

/-- A token that is no marker is what it was. -/
theorem unnumbered_eq_iff {t u : Token} (hu : u.marker? = none) : t.unnumbered = u ↔ t = u := by
  cases t with
  | marker m =>
    refine ⟨?_, ?_⟩
    · rintro rfl
      cases hu
    · rintro rfl
      cases hu
  | _ => rfl

end Token

/-! ### Spans -/

/-- A test of tokens that does not look at the numbers of markers. -/
def NumberBlind (stop : Token → Bool) : Prop :=
  ∀ t, stop t.unnumbered = stop t

theorem numberBlind_isKeyword (k : Keyword) : NumberBlind (Token.isKeyword k) :=
  Token.isKeyword_unnumbered k

theorem decide_unnumbered_eq {u : Token} (hu : u.marker? = none) (t : Token) :
    decide (t.unnumbered = u) = decide (t = u) :=
  decide_eq_decide.2 (Token.unnumbered_eq_iff hu)

theorem numberBlind_eq {u : Token} (hu : u.marker? = none) : NumberBlind fun t => t = u :=
  decide_unnumbered_eq hu

theorem numberBlind_endsConjunct : NumberBlind endsConjunct := by
  intro t
  simp [endsConjunct, decide_unnumbered_eq (u := .semicolon) rfl]

/-- A span and what follows it, without the numbers of their markers. -/
def unnumberedPair (r : List Token × List Token) : List Token × List Token :=
  (r.1.map Token.unnumbered, r.2.map Token.unnumbered)

theorem takeSpan_unnumbered {stop : Token → Bool} (hstop : NumberBlind stop) (depth : Nat)
    (ts : List Token) :
    takeSpan stop depth (ts.map Token.unnumbered) = unnumberedPair (takeSpan stop depth ts) := by
  induction ts generalizing depth with
  | nil => simp [takeSpan, unnumberedPair]
  | cons t ts ih =>
    by_cases ho : t = .openParen
    · subst ho
      simp [takeSpan, ih, unnumberedPair, pushToken, Token.unnumbered]
    by_cases hc : t = .closeParen
    · subst hc
      cases depth <;> simp [takeSpan, ih, unnumberedPair, pushToken, Token.unnumbered]
    have ho' : t.unnumbered ≠ .openParen := mt (Token.unnumbered_eq_iff rfl).1 ho
    have hc' : t.unnumbered ≠ .closeParen := mt (Token.unnumbered_eq_iff rfl).1 hc
    rw [List.map_cons, takeSpan_cons_of_ne ho' hc', takeSpan_cons_of_ne ho hc, hstop, ih]
    split <;> rfl

theorem closing?_unnumbered (depth : Nat) (ts : List Token) :
    closing? depth (ts.map Token.unnumbered) = closing? depth ts := by
  induction ts generalizing depth with
  | nil => rfl
  | cons t ts ih =>
    by_cases ho : t = .openParen
    · subst ho
      simp [closing?, ih, Token.unnumbered]
    by_cases hc : t = .closeParen
    · subst hc
      cases depth <;> simp [closing?, ih, Token.unnumbered]
    have ho' : t.unnumbered ≠ .openParen := mt (Token.unnumbered_eq_iff rfl).1 ho
    have hc' : t.unnumbered ≠ .closeParen := mt (Token.unnumbered_eq_iff rfl).1 hc
    rw [List.map_cons, closing?_cons_of_ne ho' hc', closing?_cons_of_ne ho hc, ih]

/-! ### Kinds of statements -/

theorem head?_unnumbered_eq_iff {u : Token} (hu : u.marker? = none) (ts : List Token) :
    (ts.map Token.unnumbered).head? = some u ↔ ts.head? = some u := by
  cases ts with
  | nil => simp
  | cons t ts => simp [Token.unnumbered_eq_iff hu]

theorem hasAggregateCall_unnumbered (ts : List Token) :
    hasAggregateCall (ts.map Token.unnumbered) = hasAggregateCall ts := by
  induction ts with
  | nil => rfl
  | cons t ts ih =>
    rw [List.map_cons, hasAggregateCall_cons, hasAggregateCall_cons, ih,
      Token.isAggregateWord_unnumbered, decide_eq_decide.2 (head?_unnumbered_eq_iff rfl ts)]

theorem kindOfTokens_unnumbered (ts : List Token) :
    kindOfTokens (ts.map Token.unnumbered) = kindOfTokens ts := by
  cases ts with
  | nil => rfl
  | cons t ts =>
    have h := hasAggregateCall_unnumbered (t :: ts)
    cases t with
    | word w =>
      simp only [List.map_cons, Token.unnumbered] at h ⊢
      simp only [kindOfTokens, h]
    | _ => rfl

/-! ### Clauses -/

namespace Grammar

/-- What was read, with the tokens behind it without the numbers of their markers. -/
def unnumberedRest {α : Type} (r : α × List Token) : α × List Token :=
  (r.1, r.2.map Token.unnumbered)

theorem startsWith_unnumbered (k : Keyword) (ts : List Token) :
    startsWith k (ts.map Token.unnumbered) = startsWith k ts := by
  cases ts <;> simp [startsWith]

theorem keyword_unnumbered (k : Keyword) (ts : List Token) :
    keyword k (ts.map Token.unnumbered) = (keyword k ts).map (List.map Token.unnumbered) := by
  rw [keyword, keyword, startsWith_unnumbered, List.length_map, ← List.map_tail]
  split <;> rfl

theorem mark_unnumbered {t : Token} (ht : t.marker? = none) (m : RequiredMark) (ts : List Token) :
    mark t m (ts.map Token.unnumbered) = (mark t m ts).map (List.map Token.unnumbered) := by
  simp only [mark, head?_unnumbered_eq_iff ht, List.length_map, ← List.map_tail]
  split <;> rfl

theorem freeName?_unnumbered (t : Token) : freeName? t.unnumbered = freeName? t := by
  cases t <;> rfl

theorem name_unnumbered (ts : List Token) :
    name (ts.map Token.unnumbered) = (name ts).map unnumberedRest := by
  cases ts with
  | nil => rfl
  | cons t ts =>
    simp only [List.map_cons, name, freeName?_unnumbered, List.length_map, List.length_cons,
      head?_unnumbered_eq_iff (u := .dot) rfl]
    cases freeName? t with
    | none => rfl
    | some w =>
      dsimp only
      split <;> rfl

/-! ### Lists -/

theorem names_unnumbered (ts : List Token) :
    names (ts.map Token.unnumbered) = (names ts).map unnumberedRest := by
  fun_induction names ts with
  | case1 ts e h =>
    exact names_of_error (by rw [name_unnumbered, h]; rfl)
  | case2 ts w rest h ws rest' hrest ih =>
    have h : name (ts.map Token.unnumbered) = .ok (w, .comma :: rest.map Token.unnumbered) := by
      rw [name_unnumbered, h]
      rfl
    rw [names_of_comma h, ih, hrest]
    rfl
  | case3 ts w rest h e hrest ih =>
    have h : name (ts.map Token.unnumbered) = .ok (w, .comma :: rest.map Token.unnumbered) := by
      rw [name_unnumbered, h]
      rfl
    rw [names_of_comma h, ih, hrest]
    rfl
  | case4 ts w rest hne h =>
    have h' : name (ts.map Token.unnumbered) = .ok (w, rest.map Token.unnumbered) := by
      rw [name_unnumbered, h]
      rfl
    refine names_of_head? h' ?_
    rw [ne_eq, head?_unnumbered_eq_iff rfl]
    exact head?_ne_of_forall hne

theorem columns_unnumbered (ts : List Token) :
    columns (ts.map Token.unnumbered) = (columns ts).map unnumberedRest := by
  by_cases h : ts.head? = some .star
  · cases ts with
    | nil => cases h
    | cons t ts =>
      cases Option.some.inj h
      rfl
  · have h' : (ts.map Token.unnumbered).head? ≠ some .star := by
      rwa [ne_eq, head?_unnumbered_eq_iff rfl]
    rw [columns_of_head? h, columns_of_head? h', names_unnumbered]
    cases names ts <;> rfl

/-! ### Sort keys and counts -/

theorem direction_unnumbered (ts : List Token) :
    direction (ts.map Token.unnumbered) = unnumberedRest (direction ts) := by
  simp only [direction, startsWith_unnumbered, ← List.map_tail]
  split
  · rfl
  · split <;> rfl

theorem sortKeys_unnumbered (ts : List Token) :
    sortKeys (ts.map Token.unnumbered) = (sortKeys ts).map unnumberedRest := by
  have hname {ts behind : List Token} {w : String} (h : name ts = .ok (w, behind)) :
      name (ts.map Token.unnumbered) = .ok (w, behind.map Token.unnumbered) := by
    rw [name_unnumbered, h]
    rfl
  have hdirection {behind rest : List Token} {d : Direction} (h : direction behind = (d, rest)) :
      direction (behind.map Token.unnumbered) = (d, rest.map Token.unnumbered) := by
    rw [direction_unnumbered, h]
    rfl
  fun_induction sortKeys ts with
  | case1 ts e h => exact sortKeys_of_error (by rw [name_unnumbered, h]; rfl)
  | case2 ts w behind h d rest hd keys rest' hrest ih =>
    rw [sortKeys_of_comma (hname h) (hdirection hd), ih, hrest]
    rfl
  | case3 ts w behind h d rest hd e hrest ih =>
    rw [sortKeys_of_comma (hname h) (hdirection hd), ih, hrest]
    rfl
  | case4 ts w behind h d rest hne hd =>
    refine sortKeys_of_head? (hname h) (hdirection hd) ?_
    rw [ne_eq, head?_unnumbered_eq_iff rfl]
    exact head?_ne_of_forall hne

theorem orderClause_unnumbered (ts : List Token) :
    orderClause (ts.map Token.unnumbered) = (orderClause ts).map unnumberedRest := by
  simp only [orderClause, startsWith_unnumbered, ← List.map_tail, keyword_unnumbered]
  split
  · cases keyword .BY ts.tail with
    | error e => rfl
    | ok rest => exact sortKeys_unnumbered rest
  · rfl

theorem finish_unnumbered (ts : List Token) : finish (ts.map Token.unnumbered) = finish ts := by
  have h : (ts.map Token.unnumbered).dropWhile (· = .semicolon) =
      (ts.dropWhile (· = .semicolon)).map Token.unnumbered := by
    induction ts with
    | nil => rfl
    | cons t ts ih =>
      rw [List.map_cons, List.dropWhile_cons, List.dropWhile_cons,
        decide_unnumbered_eq rfl, ih]
      split <;> rfl
  rw [finish, finish, h]
  cases ts.dropWhile (· = .semicolon) with
  | nil => rfl
  | cons t rest => simp

/-! ### Conditions -/

/-- The spans of conditions, and what follows them, without the numbers of their markers. -/
def unnumberedSpans (r : List (List Token) × List Token) : List (List Token) × List Token :=
  (r.1.map (List.map Token.unnumbered), r.2.map Token.unnumbered)

end Grammar

theorem conjuncts_unnumbered (ts : List Token) :
    conjuncts (ts.map Token.unnumbered) = (conjuncts ts).map Grammar.unnumberedSpans := by
  have htake {ts span rest : List Token} (h : takeSpan endsConjunct 0 ts = (span, rest)) :
      takeSpan endsConjunct 0 (ts.map Token.unnumbered) =
        (span.map Token.unnumbered, rest.map Token.unnumbered) := by
    rw [takeSpan_unnumbered numberBlind_endsConjunct, h]
    rfl
  have hne {span : List Token} (h : span ≠ []) : span.map Token.unnumbered ≠ [] := by
    simpa using h
  fun_induction conjuncts ts with
  | case1 ts rest h =>
    rw [conjuncts_of_nil (htake h), List.length_map]
    rfl
  | case2 ts span hspan h =>
    rw [conjuncts_of_head? (htake h) (hne hspan) rfl]
    rfl
  | case3 ts span t rest hspan h hand spans rest' hrest ih =>
    rw [conjuncts_of_and (htake h) (hne hspan) (by rwa [Token.isKeyword_unnumbered]), ih, hrest]
    rfl
  | case4 ts span t rest hspan h hand e hrest ih =>
    rw [conjuncts_of_and (htake h) (hne hspan) (by rwa [Token.isKeyword_unnumbered]), ih, hrest]
    rfl
  | case5 ts span t rest hspan h hand =>
    rw [conjuncts_of_head? (htake h) (hne hspan) (by simpa using hand)]
    rfl

namespace Grammar

theorem whereClause_unnumbered (ts : List Token) :
    whereClause (ts.map Token.unnumbered) = (whereClause ts).map unnumberedSpans := by
  simp only [whereClause, startsWith_unnumbered, ← List.map_tail, conjuncts_unnumbered]
  split <;> rfl

/-! ### Calls -/

/-- The call with the tokens behind it without the numbers of their markers. -/
def AggregateCall.unnumbered (a : AggregateCall) : AggregateCall :=
  ⟨a.before, a.function, a.behind.map Token.unnumbered⟩

theorem firstCall?_unnumbered (ts : List Token) :
    firstCall? (ts.map Token.unnumbered) = (firstCall? ts).map AggregateCall.unnumbered := by
  induction ts with
  | nil => rfl
  | cons t ts ih =>
    simp only [List.map_cons, firstCall?_cons, head?_unnumbered_eq_iff (u := .openParen) rfl,
      Token.isAggregateWord_unnumbered, Token.name?_unnumbered, ih, ← List.map_tail]
    split
    · rfl
    · simp [Function.comp_def, AggregateCall.unnumbered]

theorem isAlias_unnumbered (ts : List Token) : isAlias (ts.map Token.unnumbered) = isAlias ts := by
  match ts with
  | [] => rfl
  | [t] => simp [isAlias]
  | [k, t] => simp [isAlias]
  | _ :: _ :: _ :: _ => rfl

theorem resultName?_unnumbered (ts : List Token) :
    resultName? (ts.map Token.unnumbered) = resultName? ts := by
  rw [resultName?, resultName?, ← List.map_reverse]
  match ts.reverse with
  | [] => rfl
  | [t] => rfl
  | t :: u :: us => simp [decide_unnumbered_eq (u := .closeParen) rfl]

end Grammar

/-- The call with its arguments without the numbers of their markers. -/
def FunctionCall.unnumbered (call : FunctionCall) : FunctionCall :=
  ⟨call.function, call.args.map Token.unnumbered⟩

theorem FunctionCall.ofSpan?_unnumbered (span : List Token) :
    ofSpan? (span.map Token.unnumbered) = (ofSpan? span).map unnumbered := by
  match span with
  | [] => rfl
  | [t] => cases t <;> rfl
  | [t, u] => cases t <;> cases u <;> rfl
  | t :: u :: v :: ts =>
    cases t with
    | word w =>
      by_cases hu : u = .openParen
      · subst hu
        have h := closing?_unnumbered 0 (v :: ts)
        have hof (v : Token) (ts : List Token) : ofSpan? (.word w :: .openParen :: v :: ts) =
            if closing? 0 (v :: ts) = some ts.length then some ⟨w, (v :: ts).take ts.length⟩
            else none := rfl
        show ofSpan? (.word w :: .openParen :: v.unnumbered :: ts.map Token.unnumbered) = _
        rw [hof, hof, ← List.map_cons, h, List.length_map, ← List.map_take]
        split <;> rfl
      · cases u <;> first | rfl | contradiction
    | _ => rfl

end TableSql
