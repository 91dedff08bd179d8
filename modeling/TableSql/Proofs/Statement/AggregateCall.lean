import TableSql.Proofs.Statement.Nesting
import TableSql.Proofs.Token.Lossless

/-!
# The call of an aggregate

The select list of an aggregate is cut off in front of the `FROM` outside parentheses, so all
parentheses that are opened in it are closed in it, those of its calls too. So an aggregate whose
clauses are read to the end has a shape exactly if there is a call in its list, and the argument of
the first call is a piece of the text of the statement.

## Main definitions

* `CallAt` — the places of aggregate calls.
* `Grammar.selectList?` — the select list of an aggregate whose clauses are read to the end.
* `Scan.between` — the lexemes of a part of the list.

## Main results

* `Grammar.closed_of_selectList?` — what is opened in the list is closed in it.
* `Grammar.aggregatePieces?_eq_none_iff` — only an aggregate without a call in its list has no
  shape.
* `aggregate_call_closes` — every call of the list is closed in it, and the first one has its
  argument there.
-/

namespace TableSql

/-! ### Calls -/

/-- A word that names an aggregate function stands at the place, with an opening parenthesis behind
it. -/
def CallAt (list : List Token) (i : Nat) : Prop :=
  (∃ t ∈ list[i]?, t.isAggregateWord = true) ∧ list[i + 1]? = some .openParen

instance (list : List Token) (i : Nat) : Decidable (CallAt list i) :=
  inferInstanceAs (Decidable (_ ∧ _))

namespace Grammar

section Calls

variable {t : Token} {ts list : List Token} {i : Nat}

theorem callAt_zero :
    CallAt (t :: ts) 0 ↔ ts.head? = some .openParen ∧ t.isAggregateWord = true := by
  simp [CallAt, List.head?_eq_getElem?, and_comm]

theorem callAt_succ : CallAt (t :: ts) (i + 1) ↔ CallAt ts i := Iff.rfl

/-- The first call stands in front of all others. -/
theorem callAt_of_firstCall? {call : AggregateCall} (h : firstCall? list = some call) :
    CallAt list call.before ∧ (∀ j < call.before, ¬CallAt list j) ∧
      call.behind = list.drop (call.before + 2) := by
  induction list generalizing call with
  | nil => cases h
  | cons t ts ih =>
    rw [firstCall?_cons] at h
    split at h
    · rename_i hcall
      cases h
      refine ⟨callAt_zero.2 hcall, fun j hj => absurd hj j.not_lt_zero, ?_⟩
      rw [List.drop_succ_cons, ← List.tail_drop, List.drop_zero]
    · rename_i hcall
      obtain ⟨later, hlater, rfl⟩ := Option.map_eq_some_iff.1 h
      obtain ⟨hat, hfirst, hbehind⟩ := ih hlater
      refine ⟨callAt_succ.2 hat, fun j hj => ?_, hbehind⟩
      cases j with
      | zero => exact mt callAt_zero.1 hcall
      | succ j => exact hfirst j (Nat.lt_of_succ_lt_succ hj)

/-- If there is a call, there is a first one. -/
theorem isSome_firstCall?_of_callAt (h : CallAt list i) : (firstCall? list).isSome = true := by
  induction list generalizing i with
  | nil => simp [CallAt] at h
  | cons t ts ih =>
    rw [firstCall?_cons]
    split
    · rfl
    · rename_i hcall
      rw [Option.isSome_map]
      cases i with
      | zero => exact absurd (callAt_zero.1 h) hcall
      | succ i => exact ih (callAt_succ.1 h)

end Calls

/-! ### Select lists -/

/-- The select list of an aggregate whose clauses are read to the end of the statement. -/
def selectList? (read : CountReader) (c : Cursor) (ts : List Token) : Option (List Token) := do
  let ts ← (keyword .SELECT ts).toOption
  let (list, ts) := takeSpan (Token.isKeyword .FROM) 0 ts
  let ts ← (keyword .FROM ts).toOption
  let _ ← (Source.read read (c.skipAll list) ts).toOption
  return list

section Lists

variable {read : CountReader} {c : Cursor} {ts list : List Token}

theorem exists_of_selectList? (h : selectList? read c ts = some list) :
    ∃ ts₁ ts₂ ts₃ source, keyword .SELECT ts = .ok ts₁ ∧
      takeSpan (Token.isKeyword .FROM) 0 ts₁ = (list, ts₂) ∧ keyword .FROM ts₂ = .ok ts₃ ∧
      Source.read read (c.skipAll list) ts₃ = .ok source := by
  unfold selectList? at h
  obtain ⟨ts₁, hselect, h⟩ := Option.bind_eq_some_iff.1 h
  obtain ⟨ts₃, hfrom, h⟩ := Option.bind_eq_some_iff.1 h
  obtain ⟨source, hsource, h⟩ := Option.bind_eq_some_iff.1 h
  cases h
  exact ⟨ts₁, _, ts₃, source, eq_ok_of_mem_toOption hselect, rfl, eq_ok_of_mem_toOption hfrom,
    eq_ok_of_mem_toOption hsource⟩

/-- A select list stands behind the first token of the statement. -/
theorem exists_eq_cons_of_selectList? (h : selectList? read c ts = some list) :
    ∃ t behind, ts = t :: (list ++ behind) := by
  obtain ⟨ts₁, ts₂, -, -, hselect, hlist, -⟩ := exists_of_selectList? h
  obtain ⟨t, -, rfl⟩ := eq_cons_of_keyword hselect
  obtain ⟨rfl, -⟩ := takeSpan_eq_iff.1 hlist
  exact ⟨t, ts₂, rfl⟩

/-- What is opened in a select list is closed in it, since a `FROM` stands behind it. -/
theorem closed_of_selectList? (h : selectList? read c ts = some list) :
    Closed (Token.isKeyword .FROM) list := by
  obtain ⟨ts₁, ts₂, ts₃, source, -, hlist, hfrom, -⟩ := exists_of_selectList? h
  obtain ⟨f, -, rfl⟩ := eq_cons_of_keyword hfrom
  exact (takeSpan_eq_iff.1 hlist).2.closed (List.cons_ne_nil f ts₃)

/-- Every call of a select list is closed in it. -/
theorem matched_of_selectList? (h : selectList? read c ts = some list) {i : Nat}
    (hcall : CallAt list i) : ∃ k, Matched list (i + 1) k :=
  openParens_eq_zero_iff.1 (closed_of_selectList? h).openParens_eq (i + 1) hcall.2

/-- If there is a call in the list, the pieces of the aggregate are found, and its call is the first
one. -/
theorem exists_aggregatePieces?_of_callAt (h : selectList? read c ts = some list) {i : Nat}
    (hcall : CallAt list i) (hfirst : ∀ j < i, ¬CallAt list j) :
    ∃ p, aggregatePieces? read c ts = some p ∧ p.list = list ∧ p.call.before = i ∧
      Matched list (i + 1) (i + 2 + p.length) := by
  obtain ⟨ts₁, ts₂, ts₃, source, hselect, hlist, hfrom, hsource⟩ := exists_of_selectList? h
  obtain ⟨call, hfound⟩ := Option.isSome_iff_exists.1 (isSome_firstCall?_of_callAt hcall)
  obtain ⟨hat, hnone, hbehind⟩ := callAt_of_firstCall? hfound
  obtain rfl : call.before = i := by
    rcases Nat.lt_trichotomy call.before i with hlt | heq | hgt
    · exact absurd hat (hfirst _ hlt)
    · exact heq
    · exact absurd hcall (hnone i hgt)
  obtain ⟨k, hk⟩ := matched_of_selectList? h hcall
  obtain ⟨-, n, hn, rfl⟩ := matched_iff_closing?.1 hk
  exact ⟨_, aggregatePieces?_eq_some hselect hlist hfrom hsource hfound (hbehind ▸ hn), rfl, rfl,
    hk⟩

/-- An aggregate whose clauses are read has its pieces exactly if there is a call in its list. -/
theorem aggregatePieces?_eq_none_iff (h : selectList? read c ts = some list) :
    aggregatePieces? read c ts = none ↔ ∀ i, ¬CallAt list i := by
  constructor
  · intro hnone i hcall
    obtain ⟨call, hfound⟩ := Option.isSome_iff_exists.1 (isSome_firstCall?_of_callAt hcall)
    obtain ⟨hat, hfirst, -⟩ := callAt_of_firstCall? hfound
    obtain ⟨p, hp, -⟩ := exists_aggregatePieces?_of_callAt h hat hfirst
    cases hnone.symm.trans hp
  · intro hcall
    cases hp : aggregatePieces? read c ts with
    | none => rfl
    | some p =>
      obtain ⟨ts₁, ts₂, ts₃, source, hselect, hlist, -⟩ := exists_of_selectList? h
      obtain ⟨ts₁', ts₂', ts₃', hselect', hlist', -, -, hfound, -⟩ := exists_of_aggregatePieces? hp
      cases hselect.symm.trans hselect'
      obtain ⟨rfl, -⟩ := Prod.mk.inj (hlist.symm.trans hlist')
      exact absurd (callAt_of_firstCall? hfound).1 (hcall _)

end Lists

end Grammar

/-! ### Lexemes of a list -/

namespace Scan

variable {s : Scan} {i k : Nat}

/-- The lexemes of the tokens from one place of a list up to another one, if the list stands behind
the first token of the statement. -/
def between (s : Scan) (i k : Nat) : List Lexeme :=
  (s.lexemes.drop (i + 1)).take (k - i)

theorem tokens_between {t : Token} {list behind : List Token} (h : s.tokens = t :: (list ++ behind))
    (hk : k ≤ list.length) : (s.between i k).map Lexeme.token = (list.take k).drop i := by
  have htokens : s.lexemes.map Lexeme.token = t :: (list ++ behind) := h
  rw [between, List.map_take, List.map_drop, htokens, List.drop_succ_cons, ← List.drop_take,
    List.take_append_of_le_length hk]

/-- They are a piece of the text. -/
theorem standsAt_between {cs : List Char} (h : scan cs = .ok s) {first last : Lexeme}
    (hfirst : first ∈ (s.between i k).head?) (hlast : last ∈ (s.between i k).getLast?) :
    ∃ behind, Text.StandsAt cs first.start last.stop (sourceText (s.between i k)) behind := by
  have hsplit : s.lexemes = s.lexemes.take (i + 1) ++
      (s.between i k ++ (s.lexemes.drop (i + 1)).drop (k - i)) := by
    rw [between, List.take_append_drop, List.take_append_drop]
  exact standsAt_of_lexemes h hsplit hfirst hlast

end Scan

/-! ### Aggregates -/

/-- If the clauses of an aggregate are read to the end, every call of its select list is closed in
the list, at the first place at which the counts of parentheses are equal, and the counter with
which this place is found never goes below zero. So the aggregate has a shape exactly if there is a
call in the list, and its argument is the text between the parentheses of the first one. -/
theorem aggregate_call_closes {b : Bindings} {sql : String} {s : Scan} {list : List Token}
    (hscan : scanTrimmed sql = .ok s) (hkind : kindOfTokens s.tokens = .aggregate)
    (hlist : Grammar.selectList? b.count? (.start (.detect s.tokens)) s.tokens = some list) :
    (∀ i, CallAt list i → ∃ k, FirstBalance list (i + 1) k ∧ list[k]? = some .closeParen ∧
      closingFrom? 0 (list.drop (i + 1)) = some (some (k - (i + 1)))) ∧
    (∃ plan, parse b sql = .ok (.aggregate plan) ∧ (plan.shape = none ↔ ∀ i, ¬CallAt list i) ∧
      ∀ i k, CallAt list i → (∀ j < i, ¬CallAt list j) → FirstBalance list (i + 1) k →
        ∃ shape, plan.shape = some shape ∧
          shape.argument = String.ofList (sourceText (s.between (i + 2) k)) ∧
          (s.between (i + 2) k).map Lexeme.token = (list.take k).drop (i + 2) ∧
          ∀ first ∈ (s.between (i + 2) k).head?, ∀ last ∈ (s.between (i + 2) k).getLast?,
            ∃ behind, Text.StandsAt (Text.trim sql.toList) first.start last.stop
              (sourceText (s.between (i + 2) k)) behind) ∧
    ∀ (w : String) (us : List Token),
      closingFrom? 0 (.openParen :: us) = some ((closing? 0 us).map (· + 1)) ∧
      ((FunctionCall.ofSpan? (.word w :: .openParen :: us)).isSome = true ↔
        closingFrom? 0 (.openParen :: us) = some (some us.length)) := by
  refine ⟨fun i hcall => ?_, ?_, fun w us => ⟨closingFrom?_openParen us, isSome_ofSpan?_iff w us⟩⟩
  · obtain ⟨k, hk⟩ := Grammar.matched_of_selectList? hlist hcall
    refine ⟨k, hk.firstBalance, hk.closes, ?_⟩
    obtain ⟨hopens, n, hn, rfl⟩ := matched_iff_closing?.1 hk
    obtain ⟨hlt, hget⟩ := List.getElem?_eq_some_iff.1 hopens
    rw [List.drop_eq_getElem_cons hlt, hget, closingFrom?_openParen, hn, Option.map_some,
      Nat.add_assoc (i + 1), Nat.add_sub_cancel_left, Nat.add_comm 1 n]
  · have hparse := parse_of_scan hscan b
    rw [Scan.prepareTokens_aggregate hkind] at hparse
    refine ⟨_, hparse, ?_, fun i k hcall hfirst hbalance => ?_⟩
    · rw [← Grammar.aggregatePieces?_eq_none_iff hlist]
      simp [AggregatePlan.map]
    · obtain ⟨p, hp, hlist', hbefore, hmatched⟩ :=
        Grammar.exists_aggregatePieces?_of_callAt hlist hcall hfirst
      obtain rfl : k = i + 2 + p.length := hbalance.unique hmatched.firstBalance
      obtain ⟨t, behind, htokens⟩ := Grammar.exists_eq_cons_of_selectList? hlist
      refine ⟨(p.shape s.excerpt).map b.value, by simp [AggregatePlan.map, hp], ?_,
        Scan.tokens_between htokens hbalance.lt_length.le,
        fun first hfirst last hlast => Scan.standsAt_between hscan hfirst hlast⟩
      have hargument : s.excerpt (p.call.before + 3) p.length =
          String.ofList (sourceText (s.between (i + 2) (i + 2 + p.length))) := by
        rw [Scan.excerpt, Scan.between, hbefore, Nat.add_sub_cancel_left]
      exact hargument

/-- A call behind another item, whose argument is between parentheses of its own. -/
theorem aggregate_call_closes_nested :
    let b : Bindings := ⟨[], ""⟩
    let sql := "SELECT (x), SUM((y)) FROM t"
    ∃ s list, scanTrimmed sql = .ok s ∧ kindOfTokens s.tokens = .aggregate ∧
      Grammar.selectList? b.count? (.start (.detect s.tokens)) s.tokens = some list ∧
      CallAt list 4 ∧ (∀ j < 4, ¬CallAt list j) ∧
      ∃ k, FirstBalance list 5 k ∧ list[k]? = some .closeParen ∧
        ∃ plan shape, parse b sql = .ok (.aggregate plan) ∧ plan.shape = some shape ∧
          shape.argument = String.ofList (sourceText (s.between 6 k)) := by
  intro b sql
  have hread : ∃ s ∈ (scanTrimmed sql).toOption, kindOfTokens s.tokens = .aggregate ∧
      ∃ list ∈ Grammar.selectList? b.count? (.start (.detect s.tokens)) s.tokens,
        CallAt list 4 ∧ ∀ j < 4, ¬CallAt list j := by
    decide +kernel
  obtain ⟨s, hs, hkind, list, hlist, hcall, hfirst⟩ := hread
  have hscan := eq_ok_of_mem_toOption hs
  obtain ⟨hclosed, ⟨plan, hparse, -, hshape⟩, -⟩ := aggregate_call_closes hscan hkind hlist
  obtain ⟨k, hbalance, hclose, -⟩ := hclosed 4 hcall
  obtain ⟨shape, hsome, hargument, -⟩ := hshape 4 k hcall hfirst hbalance
  exact ⟨s, list, hscan, hkind, hlist, hcall, hfirst, k, hbalance, hclose, plan, shape, hparse,
    hsome, hargument⟩

end TableSql
