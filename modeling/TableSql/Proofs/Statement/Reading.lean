import Mathlib.Data.List.Forall2
import TableSql.Proofs.Statement.Write

/-!
# The form of an aggregate

What the reader of an aggregate accepts is said here as relations between tokens, without a reader:
`SELECT`, a list up to the first `FROM` outside parentheses, the name of one table, perhaps
conditions, and behind them sort keys, a limit, an offset and semicolons, each of which may be
missing. Nothing else stands anywhere: there is no grouping, no second table and no second
statement.

The shape of an aggregate is made of pieces that the tokens determine. The text of the statement
adds no more to it than its argument.

## Main definitions

* `SortList`, `Optionally`, `Ending` — what may stand behind the conditions.
* `ReadsFrom`, `Selects` — what stands behind `FROM`, and the whole statement.
* `IsAlias`, `IsCall` — a list that is one call, perhaps with a name for its result.
* `Grammar.AggregatePieces`, `Grammar.aggregatePieces?` — what a shape is made of.

## Main results

* `Selects.unique` — the list, the table and the conjuncts are determined by the tokens.
* `Grammar.aggregateShape?_eq_map` — the text enters a shape as its argument and nowhere else.
* `Grammar.selects_of_aggregatePieces?` — the form of an aggregate that has a shape.
* `Cursor.isSome_condition_iff` — a condition becomes a filter exactly if it is a comparison.
* `Grammar.isCall_of_bare` — the list of a bare aggregate.
-/

namespace TableSql

/-! ### The form of the clauses -/

/-- A sort key: a name, perhaps with its direction. -/
inductive IsSortKey : List Token → Prop
  | plain {t : Token} {w : String} (ht : Grammar.freeName? t = some w) : IsSortKey [t]
  | directed {t u : Token} {w : String} (ht : Grammar.freeName? t = some w) (d : Direction)
      (hu : u.isKeyword d.keyword = true) : IsSortKey [t, u]

/-- One or more sort keys with commas between them. -/
inductive SortList : List Token → Prop
  | last {key : List Token} (hkey : IsSortKey key) : SortList key
  | comma {key ts : List Token} (hkey : IsSortKey key) (h : SortList ts) :
      SortList (key ++ .comma :: ts)

/-- The sort keys behind `ORDER`: a `BY` stands between. -/
inductive OrderedBy : List Token → Prop
  | mk {t : Token} {ts : List Token} (ht : t.isKeyword .BY = true) (h : SortList ts) :
      OrderedBy (t :: ts)

/-- A count of rows: a number or a marker. -/
inductive IsCount : List Token → Prop
  | number (s : String) : IsCount [.number s]
  | marker (m : Marker) : IsCount [.marker m]

/-- A clause that may be missing: its keyword, and what has to stand behind it. -/
inductive Optionally (k : Keyword) (body : List Token → Prop) : List Token → Prop
  | missing : Optionally k body []
  | present {t : Token} {ts : List Token} (ht : t.isKeyword k = true) (h : body ts) :
      Optionally k body (t :: ts)

/-- What may stand behind the conditions: sort keys, a limit, an offset and semicolons, in this
order, and nothing else. -/
def Ending (ts : List Token) : Prop :=
  ∃ order limit offset semicolons, ts = order ++ (limit ++ (offset ++ semicolons)) ∧
    Optionally .ORDER OrderedBy order ∧ Optionally .LIMIT IsCount limit ∧
    Optionally .OFFSET IsCount offset ∧ ∀ t ∈ semicolons, t = .semicolon

/-- The table, the conjuncts of the conditions, if there are any, and the ending. -/
inductive ReadsFrom (table : String) : List (List Token) → List Token → Prop
  | all {t : Token} {ending : List Token} (ht : Grammar.freeName? t = some table)
      (h : Ending ending) : ReadsFrom table [] (t :: ending)
  | filtered {t w : Token} {clause ending : List Token} {spans : List (List Token)}
      (ht : Grammar.freeName? t = some table) (hw : w.isKeyword .WHERE = true)
      (hspans : Conjunction clause spans ending) (h : Ending ending) :
      ReadsFrom table spans (t :: w :: clause)

/-- The tokens are `SELECT` with a list up to the first `FROM` outside parentheses, and what is read
from one table. -/
inductive Selects (list : List Token) (table : String) (spans : List (List Token)) :
    List Token → Prop
  | mk {select from' : Token} {source : List Token} (hselect : select.isKeyword .SELECT = true)
      (hcut : Cut (Token.isKeyword .FROM) 0 list (from' :: source))
      (hfrom : from'.isKeyword .FROM = true) (h : ReadsFrom table spans source) :
      Selects list table spans (select :: (list ++ from' :: source))

/-! ### Readers of the clauses -/

namespace Grammar

section Clauses

variable {ts rest : List Token}

theorem isSortKey_of_direction {behind : List Token} {w : String} {d : Direction}
    (h : name ts = .ok (w, behind)) (hd : direction behind = (d, rest)) :
    ∃ key, ts = key ++ rest ∧ IsSortKey key := by
  obtain ⟨t, ht, rfl⟩ := eq_cons_of_name h
  unfold direction at hd
  split at hd
  · rename_i hdesc
    cases hd
    obtain ⟨u, hu, hbehind⟩ := exists_of_startsWith hdesc
    exact ⟨[t, u], congrArg (t :: ·) hbehind, .directed ht .descending hu⟩
  · split at hd
    · rename_i hasc
      cases hd
      obtain ⟨u, hu, hbehind⟩ := exists_of_startsWith hasc
      exact ⟨[t, u], congrArg (t :: ·) hbehind, .directed ht .ascending hu⟩
    · cases hd
      exact ⟨[t], rfl, .plain ht⟩

theorem sortList_of_sortKeys {keys : List SortKey} (h : sortKeys ts = .ok (keys, rest)) :
    ∃ taken, ts = taken ++ rest ∧ SortList taken := by
  fun_induction sortKeys ts generalizing keys with
  | case1 => cases h
  | case2 ts w behind hname d rest' hd keys' rest'' hrest ih =>
    cases h
    obtain ⟨key, rfl, hkey⟩ := isSortKey_of_direction hname hd
    obtain ⟨taken, rfl, htaken⟩ := ih hrest
    exact ⟨key ++ .comma :: taken, by simp, .comma hkey htaken⟩
  | case3 => cases h
  | case4 ts w behind hname d rest' hne hd =>
    cases h
    obtain ⟨key, rfl, hkey⟩ := isSortKey_of_direction hname hd
    exact ⟨key, rfl, .last hkey⟩

theorem optionally_of_orderClause {keys : List SortKey} (h : orderClause ts = .ok (keys, rest)) :
    ∃ taken, ts = taken ++ rest ∧ Optionally .ORDER OrderedBy taken := by
  unfold orderClause at h
  split at h
  · rename_i horder
    obtain ⟨t, ht, hts⟩ := exists_of_startsWith horder
    split at h
    · rename_i hby
      obtain ⟨u, hu, htail⟩ := eq_cons_of_keyword hby
      obtain ⟨taken, rfl, htaken⟩ := sortList_of_sortKeys h
      exact ⟨t :: u :: taken, hts.trans (congrArg (t :: ·) htail), .present ht (.mk hu htaken)⟩
    · cases h
  · cases h
    exact ⟨[], rfl, .missing⟩

theorem isCount_of_count {read : CountReader} {c c' : Cursor} {n : Nat}
    (h : count read c ts = .ok ((n, c'), rest)) : ∃ taken, ts = taken ++ rest ∧ IsCount taken := by
  unfold count at h
  split at h
  · rename_i s _
    split at h
    · cases h
      exact ⟨[.number s], rfl, .number s⟩
    · cases h
  · rename_i m _
    split at h
    · cases h
      exact ⟨[.marker m], rfl, .marker m⟩
    · cases h
  · cases h

theorem optionally_of_countClause {k : Keyword} {read : CountReader} {c c' : Cursor}
    {n : Option Nat} (h : countClause k read c ts = .ok ((n, c'), rest)) :
    ∃ taken, ts = taken ++ rest ∧ Optionally k IsCount taken := by
  unfold countClause at h
  split at h
  · rename_i hk
    obtain ⟨t, ht, hts⟩ := exists_of_startsWith hk
    split at h
    · rename_i hcount
      cases h
      obtain ⟨taken, htail, htaken⟩ := isCount_of_count hcount
      exact ⟨t :: taken, hts.trans (congrArg (t :: ·) htail), .present ht htaken⟩
    · cases h
  · cases h
    exact ⟨[], rfl, .missing⟩

/-- A reading from a table has the form of one. Its conditions are those of its conjuncts. -/
theorem readsFrom_of_read {read : CountReader} {c : Cursor} {s : Source}
    (h : Source.read read c ts = .ok s) :
    ∃ spans, ReadsFrom s.table spans ts ∧ sourceSpans ts = .ok spans ∧
      s.conditions = (c.conditions spans).1 := by
  unfold Source.read at h
  obtain ⟨⟨table, ts₁⟩, hname, h⟩ := exists_of_bind_eq_ok h
  obtain ⟨⟨spans, ts₂⟩, hwhere, h⟩ := exists_of_bind_eq_ok h
  obtain ⟨⟨order, ts₃⟩, horder, h⟩ := exists_of_bind_eq_ok h
  obtain ⟨⟨⟨limit, c₁⟩, ts₄⟩, hlimit, h⟩ := exists_of_bind_eq_ok h
  obtain ⟨⟨⟨offset, c₂⟩, ts₅⟩, hoffset, h⟩ := exists_of_bind_eq_ok h
  obtain ⟨⟨⟩, hfinish, h⟩ := exists_of_bind_eq_ok h
  cases h
  have hspans : sourceSpans ts = .ok spans := by
    rw [sourceSpans, hname, bind_ok]
    dsimp only
    rw [hwhere]
    rfl
  have hending : Ending ts₂ := by
    obtain ⟨orderTokens, rfl, horder'⟩ := optionally_of_orderClause horder
    obtain ⟨limitTokens, rfl, hlimit'⟩ := optionally_of_countClause hlimit
    obtain ⟨offsetTokens, rfl, hoffset'⟩ := optionally_of_countClause hoffset
    exact ⟨orderTokens, limitTokens, offsetTokens, ts₅, rfl, horder', hlimit', hoffset',
      forall_semicolon_of_finish hfinish⟩
  refine ⟨spans, ?_, hspans, rfl⟩
  obtain ⟨t, ht, rfl⟩ := eq_cons_of_name hname
  unfold whereClause at hwhere
  split at hwhere
  · rename_i hstart
    obtain ⟨w, hw, hts₁⟩ := exists_of_startsWith hstart
    rw [hts₁]
    exact .filtered ht hw (conjuncts_eq_ok_iff.1 hwhere) hending
  · cases hwhere
    exact .all ht hending

end Clauses

end Grammar

/-! ### One form for every list of tokens -/

theorem startsWith_append_of_optionally {k k' : Keyword} (hk : k ≠ k') {body : List Token → Prop}
    {ts rest : List Token} (h : Optionally k body ts)
    (hrest : Grammar.startsWith k' rest = false) : Grammar.startsWith k' (ts ++ rest) = false := by
  cases h with
  | missing => exact hrest
  | present ht =>
    exact decide_eq_false fun hk' => hk (isKeyword_unique ht (decide_eq_true hk'))

/-- An ending does not begin with `WHERE`. -/
theorem Ending.startsWith_where {ts : List Token} (h : Ending ts) :
    Grammar.startsWith .WHERE ts = false := by
  obtain ⟨order, limit, offset, semicolons, rfl, horder, hlimit, hoffset, hsemicolons⟩ := h
  refine startsWith_append_of_optionally (by decide) horder
    (startsWith_append_of_optionally (by decide) hlimit
      (startsWith_append_of_optionally (by decide) hoffset ?_))
  cases semicolons with
  | nil => rfl
  | cons t ts =>
    rw [hsemicolons t List.mem_cons_self]
    rfl

theorem Conjunction.unique {ts rest rest' : List Token} {spans spans' : List (List Token)}
    (h : Conjunction ts spans rest) (h' : Conjunction ts spans' rest') : spans = spans' := by
  have hread := conjuncts_eq_ok_iff.2 h
  rw [conjuncts_eq_ok_iff.2 h'] at hread
  cases hread
  rfl

theorem ReadsFrom.unique {table table' : String} {spans spans' : List (List Token)}
    {ts : List Token} (h : ReadsFrom table spans ts) (h' : ReadsFrom table' spans' ts) :
    table = table' ∧ spans = spans' := by
  -- What may follow a statement without conditions never begins with `WHERE`, so both have
  -- conditions or neither has.
  have hwhere {w : Token} {clause : List Token} (hw : w.isKeyword .WHERE = true)
      (hending : Ending (w :: clause)) : False :=
    Bool.false_ne_true (hending.startsWith_where.symm.trans hw)
  cases h with
  | all ht hending =>
    cases h' with
    | all ht' _ => exact ⟨Option.some.inj (ht.symm.trans ht'), rfl⟩
    | filtered ht' hw' _ _ => exact (hwhere hw' hending).elim
  | filtered ht hw hspans _ =>
    cases h' with
    | all ht' hending' => exact (hwhere hw hending').elim
    | filtered ht' _ hspans' _ =>
      exact ⟨Option.some.inj (ht.symm.trans ht'), hspans.unique hspans'⟩

/-- The list, the table and the conjuncts are determined by the tokens. -/
theorem Selects.unique {list list' : List Token} {table table' : String}
    {spans spans' : List (List Token)} {ts : List Token} (h : Selects list table spans ts)
    (h' : Selects list' table' spans' ts) : list = list' ∧ table = table' ∧ spans = spans' := by
  obtain ⟨-, hcut, -, hsource⟩ := h
  generalize hts : _ :: (list ++ _) = ts at h'
  obtain ⟨-, hcut', -, hsource'⟩ := h'
  have htake := takeSpan_of_cut hcut
  rw [(List.cons.inj hts).2, takeSpan_of_cut hcut'] at htake
  cases htake
  exact ⟨rfl, hsource.unique hsource'⟩

/-- The conjuncts are cut out of the statement. -/
theorem Selects.flatten_subset {list : List Token} {table : String} {spans : List (List Token)}
    {ts : List Token} (h : Selects list table spans ts) : spans.flatten ⊆ ts := by
  obtain ⟨-, -, -, hsource⟩ := h
  cases hsource with
  | all => simp
  | filtered _ _ hspans _ =>
    intro t ht
    have := hspans.flatten_subset ht
    simp [this]

/-! ### The pieces of a shape -/

namespace Grammar

/-- What the shape of an aggregate is made of: its list, the clauses behind `FROM`, its call, and
the number of tokens between the parentheses of the call. -/
structure AggregatePieces where
  list : List Token
  source : Source
  call : AggregateCall
  length : Nat

/-- The pieces of an aggregate, read from its tokens. -/
def aggregatePieces? (read : CountReader) (c : Cursor) (ts : List Token) :
    Option AggregatePieces := do
  let ts ← (keyword .SELECT ts).toOption
  let (list, ts) := takeSpan (Token.isKeyword .FROM) 0 ts
  let ts ← (keyword .FROM ts).toOption
  let source ← (Source.read read (c.skipAll list) ts).toOption
  let call ← firstCall? list
  let length ← closing? 0 call.behind
  return ⟨list, source, call, length⟩

/-- The shape that is made of the pieces. -/
def AggregatePieces.shape (excerpt : Nat → Nat → String) (p : AggregatePieces) :
    AggregateShape Operand where
  table := p.source.table
  function := p.call.function
  argument := excerpt (p.call.before + 3) p.length
  bare := p.call.before = 0 && isAlias (p.call.behind.drop (p.length + 1))
  words := (p.list.filterMap Token.name?).map Text.lower
  hasCase := p.list.any (Token.isKeyword .CASE)
  resultName := resultName? p.list
  filters := p.source.filters
  exact := p.source.conditions.all Option.isSome

variable {read : CountReader} {c : Cursor} {ts : List Token}

/-- The text of a statement enters the shape of an aggregate as its argument and nowhere else. -/
theorem aggregateShape?_eq_map (excerpt : Nat → Nat → String) (read : CountReader) (c : Cursor)
    (ts : List Token) :
    aggregateShape? excerpt read c ts =
      (aggregatePieces? read c ts).map (AggregatePieces.shape excerpt) := by
  simp only [aggregateShape?, aggregatePieces?, Option.bind_eq_bind, Option.map_bind,
    Function.comp_def, Option.pure_def, Option.map_some]
  rfl

/-- The pieces of an aggregate, put together from the readers of its parts. -/
theorem aggregatePieces?_eq_some {ts₁ ts₂ ts₃ list : List Token} {source : Source}
    {call : AggregateCall} {length : Nat} (hselect : keyword .SELECT ts = .ok ts₁)
    (hlist : takeSpan (Token.isKeyword .FROM) 0 ts₁ = (list, ts₂))
    (hfrom : keyword .FROM ts₂ = .ok ts₃)
    (hsource : Source.read read (c.skipAll list) ts₃ = .ok source)
    (hcall : firstCall? list = some call) (hlength : closing? 0 call.behind = some length) :
    aggregatePieces? read c ts = some ⟨list, source, call, length⟩ := by
  simp [aggregatePieces?, hselect, hlist, hfrom, hsource, hcall, hlength, Except.toOption]

/-- The readers of the parts of an aggregate have read its pieces. -/
theorem exists_of_aggregatePieces? {p : AggregatePieces}
    (h : aggregatePieces? read c ts = some p) :
    ∃ ts₁ ts₂ ts₃, keyword .SELECT ts = .ok ts₁ ∧
      takeSpan (Token.isKeyword .FROM) 0 ts₁ = (p.list, ts₂) ∧ keyword .FROM ts₂ = .ok ts₃ ∧
      Source.read read (c.skipAll p.list) ts₃ = .ok p.source ∧
      firstCall? p.list = some p.call ∧ closing? 0 p.call.behind = some p.length := by
  unfold aggregatePieces? at h
  obtain ⟨ts₁, hselect, h⟩ := Option.bind_eq_some_iff.1 h
  obtain ⟨ts₂, hfrom, h⟩ := Option.bind_eq_some_iff.1 h
  obtain ⟨source, hsource, h⟩ := Option.bind_eq_some_iff.1 h
  obtain ⟨call, hcall, h⟩ := Option.bind_eq_some_iff.1 h
  obtain ⟨length, hlength, h⟩ := Option.bind_eq_some_iff.1 h
  cases h
  exact ⟨ts₁, _, ts₂, eq_ok_of_mem_toOption hselect, rfl, eq_ok_of_mem_toOption hfrom,
    eq_ok_of_mem_toOption hsource, hcall, hlength⟩

/-- An aggregate that has a shape has the form of a reading from one table. -/
theorem selects_of_aggregatePieces? {p : AggregatePieces}
    (h : aggregatePieces? read c ts = some p) :
    ∃ spans, Selects p.list p.source.table spans ts ∧ aggregateSpans ts = .ok spans ∧
      p.source.conditions = ((c.skipAll p.list).conditions spans).1 ∧
      firstCall? p.list = some p.call ∧ closing? 0 p.call.behind = some p.length := by
  obtain ⟨ts₁, ts₂, ts₃, hselect, hlist, hfrom, hsource, hcall, hlength⟩ :=
    exists_of_aggregatePieces? h
  obtain ⟨spans, hreads, hspans, hconditions⟩ := readsFrom_of_read hsource
  refine ⟨spans, ?_, ?_, hconditions, hcall, hlength⟩
  · obtain ⟨s, hs, rfl⟩ := eq_cons_of_keyword hselect
    obtain ⟨f, hf, rfl⟩ := eq_cons_of_keyword hfrom
    obtain ⟨rfl, hcut⟩ := takeSpan_eq_iff.1 hlist
    exact .mk hs hcut hf hreads
  · rw [aggregateSpans, hselect, bind_ok]
    dsimp only
    rw [hlist]
    dsimp only
    rw [hfrom, bind_ok, hspans]

end Grammar

/-- An aggregate is prepared whatever its tokens are: it has its text, and the shape of its pieces
if these are found. -/
theorem Scan.prepareTokens_aggregate {s : Scan} (h : kindOfTokens s.tokens = .aggregate)
    (read : Grammar.CountReader) :
    s.prepareTokens read =
      .ok (.aggregate
        ⟨(Grammar.aggregatePieces? read (.start (.detect s.tokens)) s.tokens).map
            (Grammar.AggregatePieces.shape s.excerpt),
          s.fragments (.detect s.tokens)⟩) := by
  unfold prepareTokens
  simp only [h, Grammar.aggregateShape?_eq_map]

/-- What an aggregate was prepared from. -/
theorem Scan.aggregate_of_prepareTokens {s : Scan} {read : Grammar.CountReader}
    {plan : AggregatePlan Operand} (h : s.prepareTokens read = .ok (.aggregate plan)) :
    plan.shape =
        (Grammar.aggregatePieces? read (.start (.detect s.tokens)) s.tokens).map
          (Grammar.AggregatePieces.shape s.excerpt) ∧
      plan.text = s.fragments (.detect s.tokens) := by
  rw [prepareTokens_aggregate (kindOfTokens_of_prepareTokens h)] at h
  cases h
  exact ⟨rfl, rfl⟩

/-- The plan of a statement that is an aggregate. -/
def Statement.plan? {α : Type} : Statement α → Option (AggregatePlan α)
  | .aggregate plan => some plan
  | _ => none

theorem parse_of_mem_plan? {b : Bindings} {sql : String} {plan : AggregatePlan Value}
    (h : plan ∈ (parse b sql).toOption.bind Statement.plan?) :
    parse b sql = .ok (.aggregate plan) := by
  obtain ⟨statement, hstatement, hplan⟩ := Option.bind_eq_some_iff.1 h
  rw [eq_ok_of_mem_toOption hstatement]
  cases statement with
  | aggregate plan =>
    cases hplan
    rfl
  | _ => cases hplan

/-! ### Conditions that became filters -/

namespace Cursor

theorem isSome_value (c d : Cursor) (span : List Token) :
    (c.value span).1.isSome = (d.value span).1.isSome := by
  by_cases hlength : span.length = 1
  · obtain ⟨t, rfl⟩ := List.length_eq_one_iff.1 hlength
    simp only [value]
    split <;> rfl
  · rw [value_of_length hlength, value_of_length hlength]
    cases FunctionCall.ofSpan? span <;> rfl

theorem isSome_condition (c d : Cursor) (span : List Token) :
    (c.condition span).1.isSome = (d.condition span).1.isSome := by
  match span with
  | [] | [_] => rfl
  | [_, s] => cases s <;> rfl
  | column :: s :: t :: ts =>
    by_cases hs : s = .equals
    · subst hs
      rw [condition_of_equals, condition_of_equals]
      cases column.name? with
      | none => rfl
      | some name => simp [isSome_value c d]
    · cases ts with
      | nil =>
        rw [condition_of_test hs, condition_of_test hs]
        split <;> rfl
      | cons u ts => rw [condition_of_long hs, condition_of_long hs]

/-- Whether a condition becomes a filter does not depend on the cursor: it does exactly if it is a
comparison. -/
theorem isSome_condition_iff {c : Cursor} {span : List Token} :
    (c.condition span).1.isSome = true ↔ ∃ f, Compares span f := by
  rw [isSome_condition c (start .numbered), Option.isSome_iff_exists]
  exact exists_congr fun f => condition_eq_some_iff (.inl rfl)

/-- Every condition becomes a filter exactly if every conjunct is a comparison. -/
theorem all_isSome_conditions_iff {c : Cursor} {spans : List (List Token)} :
    (c.conditions spans).1.all Option.isSome = true ↔ ∀ span ∈ spans, ∃ f, Compares span f := by
  induction spans generalizing c with
  | nil => simp [conditions]
  | cons span spans ih =>
    rw [conditions, List.all_cons, Bool.and_eq_true, isSome_condition_iff, ih,
      List.forall_mem_cons]

end Cursor

/-- If every condition is a comparison, there is one filter for each of them. -/
theorem Keeps.forall₂ {spans : List (List Token)} {fs : List (Filter Operand)}
    (h : Keeps spans fs) (hall : ∀ span ∈ spans, ∃ f, Compares span f) :
    List.Forall₂ Compares spans fs := by
  induction h with
  | nil => exact .nil
  | keep hspan _ ih => exact .cons hspan (ih (List.forall_mem_cons.1 hall).2)
  | drop hspan _ _ =>
    obtain ⟨f, hf⟩ := (List.forall_mem_cons.1 hall).1
    exact absurd hf (hspan f)

/-- A comparison tests no marker for null. -/
theorem Compares.testedMarker? {span : List Token} {f : Filter Operand} (h : Compares span f) :
    testedMarker? span = none := by
  cases h with
  | equals => exact Cursor.testedMarker?_of_equals _ _
  | @null column _ _ _ hcolumn =>
    cases column <;> first | rfl | cases hcolumn

/-! ### The call of a list -/

/-- What may stand behind a call: a name, perhaps with `AS` in front of it, or nothing. -/
inductive IsAlias : List Token → Prop
  | missing : IsAlias []
  | plain {t : Token} {name : String} (ht : t.name? = some name) : IsAlias [t]
  | as {k t : Token} {name : String} (hk : k.isKeyword .AS = true) (ht : t.name? = some name) :
      IsAlias [k, t]

/-- The list is one call of one of the functions, given in upper case, with nothing but an alias
behind it. All parentheses that its arguments open are closed in them. -/
inductive IsCall (functions : List String) : List Token → Prop
  | mk {w : String} {args label : List Token} (hw : Text.upper w ∈ functions)
      (hargs : Closed (fun _ => false) args) (hlabel : IsAlias label) :
      IsCall functions (.word w :: .openParen :: (args ++ .closeParen :: label))

/-- The tokens in front of the closing parenthesis of a call close what they open. -/
theorem closed_of_closing? {depth n : Nat} {ts : List Token} (h : closing? depth ts = some n) :
    Uncut (fun _ => false) depth (ts.take n) ∧ openParens depth (ts.take n) = 0 := by
  induction ts generalizing depth n with
  | nil => cases h
  | cons t ts ih =>
    -- The search goes on at the depth behind the token, unless this is the parenthesis looked for.
    have hstep (h : (closing? (t.openBehind depth) ts).map (· + 1) = some n)
        (ht : depth = 0 → endsSpan (fun _ => false) t = false) :
        Uncut (fun _ => false) depth ((t :: ts).take n) ∧
          openParens depth ((t :: ts).take n) = 0 := by
      obtain ⟨m, hm, rfl⟩ := Option.map_eq_some_iff.1 h
      rw [List.take_succ_cons, uncut_cons, openParens_cons]
      exact ⟨⟨ht, (ih hm).1⟩, (ih hm).2⟩
    by_cases ho : t = .openParen
    · subst ho
      exact hstep h fun _ => rfl
    by_cases hc : t = .closeParen
    · subst hc
      cases depth with
      | zero =>
        cases h
        exact ⟨uncut_nil _ _, rfl⟩
      | succ depth => exact hstep h (by simp)
    have hdepth : t.openBehind depth = depth := by
      cases t <;> first | rfl | contradiction
    rw [closing?_cons_of_ne ho hc, ← hdepth] at h
    exact hstep h fun _ => by simp [endsSpan, hc]

theorem isAlias_of_isAlias {ts : List Token} (h : Grammar.isAlias ts = true) : IsAlias ts := by
  match ts with
  | [] => exact .missing
  | [t] =>
    obtain ⟨name, hname⟩ := Option.isSome_iff_exists.1 h
    exact .plain hname
  | [k, t] =>
    obtain ⟨hk, ht⟩ := Bool.and_eq_true_iff.1 h
    obtain ⟨name, hname⟩ := Option.isSome_iff_exists.1 ht
    exact .as hk hname
  | _ :: _ :: _ :: _ => cases h

namespace Grammar

/-- A call that begins its list is a word with an opening parenthesis. -/
theorem eq_cons_of_firstCall? {list : List Token} {call : AggregateCall}
    (h : firstCall? list = some call) (hbefore : call.before = 0) :
    ∃ w, list = .word w :: .openParen :: call.behind ∧ call.function = Text.upper w := by
  cases list with
  | nil => cases h
  | cons t ts =>
    rw [firstCall?_cons] at h
    split at h
    · rename_i hcall
      cases h
      obtain ⟨rest, rfl⟩ := List.head?_eq_some_iff.1 hcall.1
      cases t <;> first | exact ⟨_, rfl, rfl⟩ | cases hcall.2
    · obtain ⟨call', -, rfl⟩ := Option.map_eq_some_iff.1 h
      cases hbefore

/-- The list of a bare aggregate is its call with at most an alias. -/
theorem isCall_of_bare {p : AggregatePieces} {excerpt : Nat → Nat → String}
    (hcall : firstCall? p.list = some p.call) (hlength : closing? 0 p.call.behind = some p.length)
    (hbare : (p.shape excerpt).bare = true) : IsCall [p.call.function] p.list := by
  obtain ⟨hbefore, halias⟩ := Bool.and_eq_true_iff.1 hbare
  obtain ⟨w, hlist, hfunction⟩ := eq_cons_of_firstCall? hcall (of_decide_eq_true hbefore)
  obtain ⟨huncut, hopen⟩ := closed_of_closing? hlength
  rw [hlist, eq_append_of_closing? hlength]
  exact .mk (List.mem_singleton.2 hfunction.symm) ⟨huncut, hopen⟩ (isAlias_of_isAlias halias)

end Grammar

end TableSql
