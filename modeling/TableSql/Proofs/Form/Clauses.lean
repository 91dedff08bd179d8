import TableSql.Proofs.Statement.Front

/-!
# Written clauses

A statement is written in pieces: keywords, names and marks. Each piece may be written as several
tokens: a keyword in any mixture of upper and lower case, a name bare or between quotes. The clauses
of statements on the rows of a table are given here in pieces, every value a marker `?`, and the
readers take them back, however they are written. A reader takes a clause whole if the token behind
it, the first one of another clause, does not go on with it.

## Main definitions

* `Piece`, `Written` — the pieces of a statement, and the tokens that stand for them.
* `Grammar.IsNameToken` — the tokens that stand for a name: all that are read as one.
* `listed`, `WrittenList` — pieces with a separator between them, and how they are written.
* `namePieces`, `wherePieces`, `orderPieces`, `countPieces` and their like — the clauses.
* `EndsClause` — what may stand behind a clause.

## Main results

* `Grammar.names_of_written`, `Grammar.sortKeys_of_written`, `Grammar.values_of_written`,
  `Grammar.assignments_of_written`, `conjuncts_of_written` — lists are read back.
* `Grammar.countClause_of_written` — so is a count, if it is one.
* `Cursor.conditions_of_written` — the filters of written conditions take one parameter each.
-/

namespace TableSql

/-! ### Pieces and the tokens that stand for them -/

/-- A piece of a statement: a keyword, a name, or a token that is written in one way only. -/
inductive Piece where
  | keyword (k : Keyword)
  | name (w : String)
  | token (t : Token)

/-- The token stands for the piece. Which tokens stand for a name is given. -/
def Piece.Is (naming : String → Token → Prop) : Piece → Token → Prop
  | keyword k, t => t.isKeyword k = true
  | name w, t => naming w t
  | token u, t => t = u

/-- The tokens stand for the pieces, each for one. -/
def Written (naming : String → Token → Prop) (ps : List Piece) (ts : List Token) : Prop :=
  List.Forall₂ (Piece.Is naming) ps ts

/-- The token is read as the name: it is the name bare, if that is not reserved, or between
quotes. -/
def Grammar.IsNameToken (w : String) (t : Token) : Prop :=
  freeName? t = some w

section Written

variable {naming : String → Token → Prop} {ps qs : List Piece} {ts : List Token}

theorem written_nil : Written naming [] ts ↔ ts = [] :=
  List.forall₂_nil_left_iff

theorem written_cons {p : Piece} :
    Written naming (p :: ps) ts ↔ ∃ t us, p.Is naming t ∧ Written naming ps us ∧ ts = t :: us :=
  List.forall₂_cons_left_iff

theorem written_append : Written naming (ps ++ qs) ts ↔
    ∃ us vs, Written naming ps us ∧ Written naming qs vs ∧ ts = us ++ vs := by
  induction ps generalizing ts with
  | nil => simp [written_nil]
  | cons p ps ih =>
    simp only [List.cons_append, written_cons, ih]
    constructor
    · rintro ⟨t, _, ht, ⟨us, vs, hus, hvs, rfl⟩, rfl⟩
      exact ⟨t :: us, vs, ⟨t, us, ht, hus, rfl⟩, hvs, rfl⟩
    · rintro ⟨_, vs, ⟨t, us, ht, hus, rfl⟩, hvs, rfl⟩
      exact ⟨t, us ++ vs, ht, ⟨us, vs, hus, hvs, rfl⟩, rfl⟩

theorem Written.mono {naming' : String → Token → Prop} (h : Written naming ps ts)
    (hnaming : ∀ w t, .name w ∈ ps → naming w t → naming' w t) : Written naming' ps ts := by
  induction h with
  | nil => exact .nil
  | @cons p t ps ts hp _ ih =>
    refine .cons ?_ (ih fun w t hw => hnaming w t (List.mem_cons_of_mem p hw))
    cases p with
    | name w => exact hnaming w t List.mem_cons_self hp
    | keyword k | token u => exact hp

/-- What holds of all tokens that stand for pieces of some kind holds of all tokens of a list of
such pieces. -/
theorem Written.forall_mem {P : Token → Prop} (h : Written naming ps ts)
    (hP : ∀ p ∈ ps, ∀ t, p.Is naming t → P t) : ∀ t ∈ ts, P t := by
  induction h with
  | nil => simp
  | @cons p t ps ts hp _ ih =>
    exact List.forall_mem_cons.2 ⟨hP p List.mem_cons_self t hp,
      ih fun p hp => hP p (List.mem_cons_of_mem _ hp)⟩

/-- Pieces are written by giving each of them a token that stands for it. -/
theorem written_map {f : Piece → Token} (h : ∀ p ∈ ps, p.Is naming (f p)) :
    Written naming ps (ps.map f) :=
  List.forall₂_map_right_iff.2 (List.forall₂_same.2 h)

end Written

/-! ### Clauses -/

/-- Lists of pieces with a separator between them. -/
def listed (separator : Piece) (pss : List (List Piece)) : List Piece :=
  [separator].intercalate pss

/-- Names with commas between them. -/
def namePieces (ws : List String) : List Piece :=
  listed (.token .comma) (ws.map fun w => [.name w])

/-- The columns of a reading. -/
def columnPieces : Columns → List Piece
  | .all => [.token .star]
  | .named ws => namePieces ws

/-- A name that equals a marker. -/
def equationPieces (w : String) : List Piece :=
  [.name w, .token .equals, .token (.marker .next)]

/-- So many markers with commas between them. -/
def markerPieces (n : Nat) : List Piece :=
  listed (.token .comma) (List.replicate n [.token (.marker .next)])

/-- Assignments to columns, with commas between them. -/
def assignmentPieces (columns : List String) : List Piece :=
  listed (.token .comma) (columns.map equationPieces)

/-- Conditions on columns, joined by `AND`. -/
def conditionPieces (columns : List String) : List Piece :=
  listed (.keyword .AND) (columns.map equationPieces)

/-- The clause of conditions, if there are any. -/
def wherePieces (columns : List String) : List Piece :=
  if columns = [] then [] else .keyword .WHERE :: conditionPieces columns

/-- A sort key as it is written: its column, and its direction if it is given. -/
structure SortForm where
  column : String
  direction : Option Direction

namespace SortForm

/-- The sort key: it is ascending if no direction is written. -/
def key (f : SortForm) : SortKey :=
  ⟨f.column, f.direction.getD .ascending⟩

/-- The direction of a sort key, if it is given. -/
def directionPieces (f : SortForm) : List Piece :=
  (f.direction.map fun d => .keyword d.keyword).toList

/-- The column and the direction of a sort key. -/
def pieces (f : SortForm) : List Piece :=
  .name f.column :: f.directionPieces

end SortForm

/-- The clause of sort keys, if there are any. -/
def orderPieces (keys : List SortForm) : List Piece :=
  if keys = [] then []
  else .keyword .ORDER :: .keyword .BY :: listed (.token .comma) (keys.map SortForm.pieces)

/-- A count of rows as it is written: a number, or a marker. -/
inductive CountForm where
  | number (s : String)
  | next

/-- The token of a count. -/
def CountForm.token : CountForm → Token
  | number s => .number s
  | next => .marker .next

/-- The clause of a count, if there is one. -/
def countPieces (k : Keyword) : Option CountForm → List Piece
  | some n => [.keyword k, .token n.token]
  | none => []

theorem listed_cons_cons (separator : Piece) (ps qs : List Piece) (pss : List (List Piece)) :
    listed separator (ps :: qs :: pss) = ps ++ separator :: listed separator (qs :: pss) := by
  simp [listed]

/-- The tokens stand for a list of items, with a token that stands for the separator between any
two. -/
inductive WrittenList {α : Type} (naming : String → Token → Prop) (separator : Piece)
    (pieces : α → List Piece) : List α → List Token → Prop
  | last {a : α} {us : List Token} (h : Written naming (pieces a) us) :
      WrittenList naming separator pieces [a] us
  | more {a : α} {as : List α} {us vs : List Token} {t : Token} (h : Written naming (pieces a) us)
      (ht : separator.Is naming t) (hmore : WrittenList naming separator pieces as vs) :
      WrittenList naming separator pieces (a :: as) (us ++ t :: vs)

/-- A list that is not empty is written item by item. -/
theorem writtenList_of_written {α : Type} {naming : String → Token → Prop} {separator : Piece}
    {pieces : α → List Piece} {as : List α} (hne : as ≠ []) {us : List Token}
    (h : Written naming (listed separator (as.map pieces)) us) :
    WrittenList naming separator pieces as us := by
  induction as generalizing us with
  | nil => exact absurd rfl hne
  | cons a as ih =>
    cases as with
    | nil => exact .last (by simpa [listed] using h)
    | cons b as =>
      rw [List.map_cons, List.map_cons, listed_cons_cons] at h
      obtain ⟨us, _, hus, hmore, rfl⟩ := written_append.1 h
      obtain ⟨t, vs, ht, hvs, rfl⟩ := written_cons.1 hmore
      exact .more hus ht (ih (List.cons_ne_nil b as) hvs)

/-- What holds of the separator and of all items holds of all pieces of a list. -/
theorem forall_mem_listed {P : Piece → Prop} {separator : Piece} (hs : P separator)
    {pss : List (List Piece)} (h : ∀ ps ∈ pss, ∀ p ∈ ps, P p) :
    ∀ p ∈ listed separator pss, P p := by
  induction pss with
  | nil => simp [listed]
  | cons ps pss ih =>
    obtain ⟨hps, hpss⟩ := List.forall_mem_cons.1 h
    cases pss with
    | nil => simpa [listed] using hps
    | cons qs pss =>
      rw [listed_cons_cons]
      exact List.forall_mem_append.2 ⟨hps, List.forall_mem_cons.2 ⟨hs, ih hpss⟩⟩

/-- What holds of every keyword and every name, and of the tokens that the clauses have besides. -/
structure HoldsInClauses (P : Piece → Prop) : Prop where
  keyword : ∀ k, P (.keyword k)
  name : ∀ w, P (.name w)
  comma : P (.token .comma)
  equals : P (.token .equals)
  next : P (.token (.marker .next))
  star : P (.token .star)
  number : ∀ s, P (.token (.number s))

namespace HoldsInClauses

variable {P : Piece → Prop} (h : HoldsInClauses P)

include h

theorem names (ws : List String) : ∀ p ∈ namePieces ws, P p := by
  refine forall_mem_listed h.comma ?_
  simpa using fun w _ => h.name w

theorem columns (cols : Columns) : ∀ p ∈ columnPieces cols, P p := by
  cases cols with
  | all => simpa [columnPieces] using h.star
  | named ws => exact h.names ws

theorem equation (w : String) : ∀ p ∈ equationPieces w, P p := by
  simpa [equationPieces] using ⟨h.name w, h.equals, h.next⟩

theorem markers (n : Nat) : ∀ p ∈ markerPieces n, P p := by
  refine forall_mem_listed h.comma ?_
  intro ps hps p hp
  rw [List.eq_of_mem_replicate hps, List.mem_singleton] at hp
  exact hp ▸ h.next

theorem assignments (ws : List String) : ∀ p ∈ assignmentPieces ws, P p := by
  refine forall_mem_listed h.comma ?_
  simpa using fun w _ => h.equation w

theorem conditions (ws : List String) : ∀ p ∈ wherePieces ws, P p := by
  unfold wherePieces
  split
  · simp
  · refine List.forall_mem_cons.2 ⟨h.keyword .WHERE, forall_mem_listed (h.keyword .AND) ?_⟩
    simpa using fun w _ => h.equation w

theorem sortKeys (keys : List SortForm) : ∀ p ∈ orderPieces keys, P p := by
  have hkey (f : SortForm) : ∀ p ∈ f.pieces, P p := by
    obtain ⟨column, _ | d⟩ := f
    · simpa [SortForm.pieces, SortForm.directionPieces] using h.name column
    · simpa [SortForm.pieces, SortForm.directionPieces] using ⟨h.name column, h.keyword d.keyword⟩
  unfold orderPieces
  split
  · simp
  · refine List.forall_mem_cons.2 ⟨h.keyword .ORDER, List.forall_mem_cons.2 ⟨h.keyword .BY, ?_⟩⟩
    refine forall_mem_listed h.comma ?_
    simpa using fun f _ => hkey f

theorem count (k : Keyword) (n : Option CountForm) : ∀ p ∈ countPieces k n, P p := by
  match n with
  | none => simp [countPieces]
  | some (.number s) => simpa [countPieces] using ⟨h.keyword k, h.number s⟩
  | some .next => simpa [countPieces] using ⟨h.keyword k, h.next⟩

end HoldsInClauses

/-! ### Tokens that are names -/

namespace Grammar.IsNameToken

variable {w : String} {t : Token}

theorem name?_eq (h : IsNameToken w t) : t.name? = some w := by
  cases t with
  | word w' =>
    rw [IsNameToken, freeName?] at h
    split at h
    · cases h
    · exact h
  | quotedName w' => exact h
  | _ => cases h

/-- A name ends no condition, since the keywords that do are reserved. -/
theorem endsConjunct_eq_false (h : IsNameToken w t) : endsConjunct t = false := by
  have hreserved (k : Keyword) (hk : ¬k.isReserved) :
      (decide (k = .AND) || k.endsCondition) = false := by
    cases k <;> first | rfl | exact absurd rfl hk
  cases t with
  | word w' =>
    cases hk : Keyword.ofWord? w' with
    | none => simp [endsConjunct, Token.isKeyword, Token.keyword?, hk]
    | some k =>
      have hfree : ¬k.isReserved := by
        intro hres
        simp [IsNameToken, freeName?, isReserved, hk, hres] at h
      simpa [endsConjunct, Token.isKeyword, Token.keyword?, hk] using hreserved k hfree
  | quotedName w' => rfl
  | _ => cases h

/-- A name is no reserved keyword. -/
theorem isKeyword_eq_false (h : IsNameToken w t) {k : Keyword} (hk : k.isReserved = true) :
    t.isKeyword k = false := by
  refine decide_eq_false fun hkey => ?_
  cases t with
  | word w' =>
    have hw : Keyword.ofWord? w' = some k := hkey
    simp [IsNameToken, freeName?, isReserved, hw, hk] at h
  | _ => cases hkey

theorem ne_parens (h : IsNameToken w t) : t ≠ .openParen ∧ t ≠ .closeParen := by
  constructor <;> (rintro rfl; cases h)

theorem isNumbered_eq_false (h : IsNameToken w t) : MarkerMode.isNumbered t = false := by
  cases t <;> first | rfl | cases h

end Grammar.IsNameToken

/-! ### The ends of clauses -/

/-- The tokens are at their end, or begin with a semicolon or one of the keywords. -/
def EndsClause (ks : List Keyword) (ts : List Token) : Prop :=
  ∀ t ∈ ts.head?, t = .semicolon ∨ ∃ k ∈ ks, t.isKeyword k = true

theorem endsClause_semicolons (ks : List Keyword) (n : Nat) :
    EndsClause ks (List.replicate n .semicolon) := by
  intro t ht
  exact .inl (List.eq_of_mem_replicate (List.mem_of_mem_head? ht))

theorem endsClause_cons {k : Keyword} {ks : List Keyword} {t : Token} (hk : k ∈ ks)
    (ht : t.isKeyword k = true) (ts : List Token) : EndsClause ks (t :: ts) := by
  intro u hu
  cases hu
  exact .inr ⟨k, hk, ht⟩

/-- A clause that may be empty, in front of tokens that begin with later ones. -/
theorem EndsClause.append {k : Keyword} {ks : List Keyword} {ts rest : List Token}
    (h : EndsClause [k] ts) (hrest : EndsClause ks rest) : EndsClause (k :: ks) (ts ++ rest) := by
  intro t ht
  cases ts with
  | nil =>
    refine (hrest t ht).imp_right ?_
    rintro ⟨k', hk', hkey⟩
    exact ⟨k', List.mem_cons_of_mem k hk', hkey⟩
  | cons u ts =>
    refine (h t ht).imp_right ?_
    rintro ⟨k', hk', hkey⟩
    exact ⟨k, List.mem_cons_self, List.mem_singleton.1 hk' ▸ hkey⟩

namespace EndsClause

variable {ks : List Keyword} {ts : List Token}

/-- No clause begins with a mark other than the semicolon. -/
theorem head?_ne (h : EndsClause ks ts) {t : Token} (hname : t.keyword? = none)
    (ht : t ≠ .semicolon) : ts.head? ≠ some t := by
  intro heq
  rcases h t heq with rfl | ⟨k, -, hk⟩
  · exact ht rfl
  · cases hname.symm.trans (of_decide_eq_true hk)

theorem startsWith_eq_false (h : EndsClause ks ts) {k : Keyword} (hk : k ∉ ks) :
    Grammar.startsWith k ts = false := by
  cases ts with
  | nil => rfl
  | cons t ts =>
    rcases h t rfl with rfl | ⟨k', hk', hkey⟩
    · rfl
    · refine decide_eq_false fun hstart => hk ?_
      rwa [isKeyword_unique (decide_eq_true hstart) hkey]

/-- The clauses behind the conditions end the last one. -/
theorem endsSpan_endsConjunct (h : EndsClause [.ORDER, .LIMIT, .OFFSET] ts) :
    ∀ t ∈ ts.head?, endsSpan endsConjunct t = true := by
  intro t ht
  rcases h t ht with rfl | ⟨k, hk, hkey⟩
  · rfl
  · have hkeyword : t.keyword? = some k := of_decide_eq_true hkey
    have hends : k.endsCondition = true := by
      simp only [List.mem_cons, List.not_mem_nil, or_false] at hk
      rcases hk with rfl | rfl | rfl <;> rfl
    simp [endsSpan, endsConjunct, hkeyword, hends, (ne_parens_of_isKeyword hkey).1]

end EndsClause

theorem endsClause_wherePieces {columns : List String} {ts : List Token}
    (h : Written Grammar.IsNameToken (wherePieces columns) ts) : EndsClause [.WHERE] ts := by
  unfold wherePieces at h
  split at h
  · rw [written_nil.1 h]
    exact endsClause_semicolons _ 0
  · obtain ⟨t, us, ht, -, rfl⟩ := written_cons.1 h
    exact endsClause_cons List.mem_cons_self ht us

theorem endsClause_orderPieces {keys : List SortForm} {ts : List Token}
    (h : Written Grammar.IsNameToken (orderPieces keys) ts) : EndsClause [.ORDER] ts := by
  unfold orderPieces at h
  split at h
  · rw [written_nil.1 h]
    exact endsClause_semicolons _ 0
  · obtain ⟨t, us, ht, -, rfl⟩ := written_cons.1 h
    exact endsClause_cons List.mem_cons_self ht us

theorem endsClause_countPieces {k : Keyword} {n : Option CountForm} {ts : List Token}
    (h : Written Grammar.IsNameToken (countPieces k n) ts) : EndsClause [k] ts := by
  cases n with
  | none =>
    rw [written_nil.1 h]
    exact endsClause_semicolons _ 0
  | some n =>
    obtain ⟨t, us, ht, -, rfl⟩ := written_cons.1 h
    exact endsClause_cons List.mem_cons_self ht us

/-! ### Conditions -/

/-- So many parameters, from an index on. -/
def parametersFrom (k n : Nat) : List Operand :=
  (List.range' k n).map Operand.parameter

@[simp]
theorem length_parametersFrom (k n : Nat) : (parametersFrom k n).length = n := by
  rw [parametersFrom, List.length_map, List.length_range']

theorem parametersFrom_succ (k n : Nat) :
    parametersFrom k (n + 1) = .parameter k :: parametersFrom (k + 1) n := rfl

/-- The filters on columns that take so many parameters in turn. -/
def parameterFilters (columns : List String) (k : Nat) : List (Filter Operand) :=
  List.zipWith Filter.mk columns (parametersFrom k columns.length)

/-- The assignments to columns that take so many parameters in turn. -/
def parameterRecord (columns : List String) (k : Nat) : Record Operand :=
  .ofList (columns.zip (parametersFrom k columns.length))

/-- An equation is a name, an equality sign and a marker. -/
theorem written_equationPieces {w : String} {ts : List Token} :
    Written Grammar.IsNameToken (equationPieces w) ts ↔
      ∃ t, Grammar.IsNameToken w t ∧ ts = [t, .equals, .marker .next] := by
  simp [equationPieces, written_cons, written_nil, Piece.Is]

/-- No token of an equation ends a condition. -/
theorem closed_of_equationPieces {w : String} {span : List Token}
    (h : Written Grammar.IsNameToken (equationPieces w) span) : Closed endsConjunct span := by
  obtain ⟨t, ht, rfl⟩ := written_equationPieces.1 h
  obtain ⟨ho, hc⟩ := ht.ne_parens
  exact (closed_singleton ho hc ht.endsConjunct_eq_false).append
    (by decide : Closed endsConjunct [.equals, .marker .next])

/-- The filters of written conditions take one parameter each. -/
theorem Cursor.conditions_of_written {ws : List String} {spans : List (List Token)}
    (h : List.Forall₂ (fun w => Written Grammar.IsNameToken (equationPieces w)) ws spans)
    (k : Nat) :
    (⟨.sequential, k⟩ : Cursor).conditions spans =
      ((parameterFilters ws k).map some, ⟨.sequential, k + ws.length⟩) := by
  induction h generalizing k with
  | nil => rfl
  | @cons w span ws spans hspan _ ih =>
    have hcondition : (⟨.sequential, k⟩ : Cursor).condition span =
        (some ⟨w, .parameter k⟩, ⟨.sequential, k + 1⟩) := by
      obtain ⟨t, ht, rfl⟩ := written_equationPieces.1 hspan
      rw [condition, ht.name?_eq]
      rfl
    rw [conditions, hcondition, parameterFilters, List.length_cons, parametersFrom_succ]
    simp only [ih, parameterFilters, List.zipWith_cons_cons, List.map_cons, Prod.mk.injEq, true_and,
      Cursor.mk.injEq]
    omega

/-- Written conditions are cut into their equations. -/
theorem conjuncts_of_written {ws : List String} (hne : ws ≠ []) {us rest : List Token}
    (h : Written Grammar.IsNameToken (conditionPieces ws) us)
    (hrest : EndsClause [.ORDER, .LIMIT, .OFFSET] rest) :
    ∃ spans, conjuncts (us ++ rest) = .ok (spans, rest) ∧
      List.Forall₂ (fun w => Written Grammar.IsNameToken (equationPieces w)) ws spans := by
  have hequation {w : String} {span : List Token}
      (h : Written Grammar.IsNameToken (equationPieces w) span) : span ≠ [] := by
    obtain ⟨t, -, rfl⟩ := written_equationPieces.1 h
    simp
  simp only [conjuncts_eq_ok_iff]
  have hlist := writtenList_of_written hne h
  clear hne h
  induction hlist with
  | @last w us hspan =>
    have hclosed := closed_of_equationPieces hspan
    have hcut : Cut endsConjunct 0 us rest :=
      ⟨hclosed.uncut, fun t ht => ⟨hclosed.openParens_eq, hrest.endsSpan_endsConjunct t ht⟩⟩
    refine ⟨[us], .last (hequation hspan) hcut ?_, .cons hspan .nil⟩
    have hand : Grammar.startsWith .AND rest = false := hrest.startsWith_eq_false (by decide)
    cases rest with
    | nil => rfl
    | cons t rest => exact hand
  | @more w ws span vs t hspan ht _ ih =>
    obtain ⟨spans, hspans, hall⟩ := ih
    have hand : t.isKeyword .AND = true := ht
    have hends : endsSpan endsConjunct t = true := by
      simp [endsSpan, endsConjunct, hand, (ne_parens_of_isKeyword hand).1]
    refine ⟨span :: spans, ?_, .cons hspan hall⟩
    rw [List.append_assoc, List.cons_append]
    exact .and (hequation hspan) ((closed_of_equationPieces hspan).cut hends _) hand hspans

namespace Grammar

theorem whereClause_of_written {ws : List String} {us rest : List Token}
    (h : Written IsNameToken (wherePieces ws) us)
    (hrest : EndsClause [.ORDER, .LIMIT, .OFFSET] rest) :
    ∃ spans, whereClause (us ++ rest) = .ok (spans, rest) ∧
      List.Forall₂ (fun w => Written IsNameToken (equationPieces w)) ws spans := by
  unfold wherePieces at h
  split at h
  · rename_i hnil
    have hwhere : startsWith .WHERE rest = false := hrest.startsWith_eq_false (by decide)
    rw [written_nil.1 h, hnil, List.nil_append, whereClause, hwhere, if_neg Bool.false_ne_true]
    exact ⟨[], rfl, .nil⟩
  · rename_i hne
    obtain ⟨t, us, ht, hus, rfl⟩ := written_cons.1 h
    have hwhere : startsWith .WHERE (t :: (us ++ rest)) = true := ht
    rw [List.cons_append, whereClause, hwhere, if_pos rfl, List.tail_cons]
    exact conjuncts_of_written hne hus hrest

/-! ### Names and sort keys -/

theorem name_of_isNameToken {w : String} {t : Token} (ht : IsNameToken w t) {rest : List Token}
    (hdot : rest.head? ≠ some .dot) : name (t :: rest) = .ok (w, rest) := by
  have hname : freeName? t = some w := ht
  simp [name, hname, hdot]

/-- Written names are read back. -/
theorem names_of_written {ws : List String} (hne : ws ≠ []) {us rest : List Token}
    (h : Written IsNameToken (namePieces ws) us) (hcomma : rest.head? ≠ some .comma)
    (hdot : rest.head? ≠ some .dot) : names (us ++ rest) = .ok (ws, rest) := by
  have hlist := writtenList_of_written hne h
  clear hne h
  induction hlist with
  | last hname =>
    obtain ⟨t, _, ht, hnil, rfl⟩ := written_cons.1 hname
    rw [written_nil.1 hnil]
    exact names_of_head? (name_of_isNameToken ht hdot) hcomma
  | more hname hseparator _ ih =>
    obtain rfl := hseparator
    obtain ⟨t, _, ht, hnil, rfl⟩ := written_cons.1 hname
    rw [written_nil.1 hnil, List.cons_append, List.nil_append, List.cons_append, List.cons_append,
      names_of_comma (name_of_isNameToken ht (by simp)), ih]
    rfl

/-- Written columns are read back. -/
theorem columns_of_written {cols : Columns} (hne : cols ≠ .named []) {us rest : List Token}
    (h : Written IsNameToken (columnPieces cols) us) (hcomma : rest.head? ≠ some .comma)
    (hdot : rest.head? ≠ some .dot) : columns (us ++ rest) = .ok (cols, rest) := by
  cases cols with
  | all =>
    obtain ⟨_, _, rfl, hnil, rfl⟩ := written_cons.1 h
    rw [written_nil.1 hnil]
    rfl
  | named ws =>
    have hws : ws ≠ [] := fun hnil => hne (congrArg _ hnil)
    have hnames : Written IsNameToken (namePieces ws) us := h
    have hstar : (us ++ rest).head? ≠ some .star := by
      cases writtenList_of_written hws hnames with
      | last hname | more hname =>
        obtain ⟨t, vs, ht, -, rfl⟩ := written_cons.1 hname
        rintro heq
        cases heq
        cases ht
    rw [columns_of_head? hstar, names_of_written hws hnames hcomma hdot]
    rfl

/-- A direction is read back, and a missing one is ascending. -/
theorem direction_of_written {f : SortForm} {us rest : List Token}
    (h : Written IsNameToken f.directionPieces us) (hdesc : startsWith .DESC rest = false)
    (hasc : startsWith .ASC rest = false) :
    direction (us ++ rest) = (f.key.direction, rest) := by
  obtain ⟨column, d⟩ := f
  cases d with
  | none =>
    rw [written_nil.1 h, List.nil_append, direction, hdesc, hasc]
    rfl
  | some d =>
    obtain ⟨t, _, ht, hnil, rfl⟩ := written_cons.1 h
    have hd : t.isKeyword d.keyword = true := ht
    rw [written_nil.1 hnil, List.singleton_append, direction]
    cases d with
    | descending =>
      rw [if_pos (show startsWith .DESC (t :: rest) = true from hd)]
      rfl
    | ascending =>
      have hne : startsWith .DESC (t :: rest) = false :=
        decide_eq_false fun hdesc => by cases isKeyword_unique hd (decide_eq_true hdesc)
      rw [hne, if_neg Bool.false_ne_true, if_pos (show startsWith .ASC (t :: rest) = true from hd)]
      rfl

/-- A written sort key is read back in front of a token that is neither a point nor a direction. -/
theorem exists_name_of_written {f : SortForm} {us rest : List Token}
    (h : Written IsNameToken f.pieces us) (hdot : rest.head? ≠ some .dot)
    (hdesc : startsWith .DESC rest = false) (hasc : startsWith .ASC rest = false) :
    ∃ behind, name (us ++ rest) = .ok (f.column, behind) ∧
      direction behind = (f.key.direction, rest) := by
  obtain ⟨t, ds, ht, hds, rfl⟩ := written_cons.1 h
  refine ⟨ds ++ rest, name_of_isNameToken ht ?_, direction_of_written hds hdesc hasc⟩
  cases hd : f.direction with
  | none =>
    rw [SortForm.directionPieces, hd] at hds
    rwa [written_nil.1 hds]
  | some d =>
    rw [SortForm.directionPieces, hd] at hds
    obtain ⟨u, vs, hu, -, rfl⟩ := written_cons.1 hds
    rintro heq
    cases heq
    cases hu

/-- Written sort keys are read back. -/
theorem sortKeys_of_written {keys : List SortForm} (hne : keys ≠ []) {us rest : List Token}
    (h : Written IsNameToken (listed (.token .comma) (keys.map SortForm.pieces)) us)
    (hrest : EndsClause [.LIMIT, .OFFSET] rest) :
    sortKeys (us ++ rest) = .ok (keys.map SortForm.key, rest) := by
  have hlist := writtenList_of_written hne h
  clear hne h
  induction hlist with
  | last hkey =>
    obtain ⟨behind, hname, hdirection⟩ := exists_name_of_written hkey
      (hrest.head?_ne rfl (by simp)) (hrest.startsWith_eq_false (by decide))
      (hrest.startsWith_eq_false (by decide))
    exact sortKeys_of_head? hname hdirection (hrest.head?_ne rfl (by simp))
  | @more f keys us vs _ hkey hseparator _ ih =>
    obtain rfl := hseparator
    have hdot : (Token.comma :: (vs ++ rest)).head? ≠ some .dot := by simp
    obtain ⟨behind, hname, hdirection⟩ := exists_name_of_written hkey hdot rfl rfl
    rw [List.append_assoc, List.cons_append, sortKeys_of_comma hname hdirection, ih]
    rfl

theorem orderClause_of_written {keys : List SortForm} {us rest : List Token}
    (h : Written IsNameToken (orderPieces keys) us) (hrest : EndsClause [.LIMIT, .OFFSET] rest) :
    orderClause (us ++ rest) = .ok (keys.map SortForm.key, rest) := by
  unfold orderPieces at h
  split at h
  · rename_i hnil
    have horder : startsWith .ORDER rest = false := hrest.startsWith_eq_false (by decide)
    rw [written_nil.1 h, hnil, List.nil_append, orderClause, horder, if_neg Bool.false_ne_true]
    rfl
  · rename_i hne
    obtain ⟨t, _, ht, hmore, rfl⟩ := written_cons.1 h
    obtain ⟨u, us, hu, hus, rfl⟩ := written_cons.1 hmore
    have horder : startsWith .ORDER (t :: u :: (us ++ rest)) = true := ht
    rw [List.cons_append, List.cons_append, orderClause, horder, if_pos rfl, List.tail_cons,
      keyword_of_isKeyword hu]
    exact sortKeys_of_written hne hus hrest

/-! ### Counts -/

/-- The count that is written, if it is one, behind so many parameters, and how many parameters are
taken behind it. -/
def countAt? (read : CountReader) (k : Nat) : Option CountForm → Option (Option Nat × Nat)
  | none => some (none, k)
  | some (.number s) => (Decimal.unsigned? s.toList).map fun n => (some n, k)
  | some .next => (read (.parameter k)).map fun n => (some n, k + 1)

/-- A written count is read back, or refused if it is none. -/
theorem countClause_of_written {key : Keyword} {n : Option CountForm} {us rest : List Token}
    (h : Written IsNameToken (countPieces key n) us) {ks : List Keyword}
    (hrest : EndsClause ks rest) (hkey : key ∉ ks) (read : CountReader) (k : Nat) :
    (countClause key read ⟨.sequential, k⟩ (us ++ rest)).toOption =
      (countAt? read k n).map fun r => ((r.1, ⟨.sequential, r.2⟩), rest) := by
  cases n with
  | none =>
    rw [written_nil.1 h, List.nil_append, countClause, hrest.startsWith_eq_false hkey]
    rfl
  | some n =>
    obtain ⟨t, _, ht, hmore, rfl⟩ := written_cons.1 h
    obtain ⟨_, _, rfl, hnil, rfl⟩ := written_cons.1 hmore
    have hstart : startsWith key (t :: n.token :: rest) = true := ht
    rw [written_nil.1 hnil, List.cons_append, List.singleton_append, countClause, hstart,
      if_pos rfl, List.tail_cons]
    cases n with
    | number s =>
      rw [CountForm.token, count, countAt?]
      cases Decimal.unsigned? s.toList <;> rfl
    | next =>
      rw [CountForm.token, count, countAt?, Cursor.take]
      cases read (.parameter k) <;> rfl

/-! ### Values and assignments -/

/-- A marker is a value, and takes the next parameter. -/
theorem operand_marker {stop : Token → Bool} (hstop : stop (.marker .next) = false)
    {rest : List Token} (hrest : ∀ t ∈ rest.head?, endsSpan stop t = true) (k : Nat) :
    operand stop ⟨.sequential, k⟩ (.marker .next :: rest) =
      .ok ((.parameter k, ⟨.sequential, k + 1⟩), rest) := by
  have hclosed : Closed stop [.marker .next] := closed_singleton (by simp) (by simp) hstop
  have hcut : Cut stop 0 [.marker .next] rest :=
    ⟨hclosed.uncut, fun t ht => ⟨hclosed.openParens_eq, hrest t ht⟩⟩
  exact operand_of_ne_nil (takeSpan_of_cut hcut) (List.cons_ne_nil _ _) _

/-- Written values are read back as one parameter each. -/
theorem values_of_written (k : Nat) {n : Nat} (hn : n ≠ 0) {us : List Token}
    (h : Written IsNameToken (markerPieces n) us) (rest : List Token) :
    values ⟨.sequential, k⟩ (us ++ .closeParen :: rest) =
      .ok (parametersFrom k n, .closeParen :: rest) := by
  -- The items are all alike, so the list of them is told by its length.
  have hlist {as : List Unit} {vs : List Token} (h : WrittenList IsNameToken (.token .comma)
      (fun _ => [.token (.marker .next)]) as vs) (k : Nat) :
      values ⟨.sequential, k⟩ (vs ++ .closeParen :: rest) =
        .ok (parametersFrom k as.length, .closeParen :: rest) := by
    induction h generalizing k with
    | last hmarker =>
      obtain ⟨_, _, rfl, hnil, rfl⟩ := written_cons.1 hmarker
      rw [written_nil.1 hnil]
      exact values_of_head? (operand_marker rfl (by simp [endsSpan]) k) (by simp)
    | more hmarker hseparator _ ih =>
      obtain rfl := hseparator
      obtain ⟨_, _, rfl, hnil, rfl⟩ := written_cons.1 hmarker
      rw [written_nil.1 hnil, List.cons_append, List.nil_append, List.cons_append,
        List.cons_append, values_of_comma (operand_marker rfl (by simp [endsSpan]) k), ih (k + 1)]
      rfl
  have hmarkers : List.replicate n () ≠ [] := by simpa using hn
  have hwritten := hlist (writtenList_of_written hmarkers (by rwa [List.map_replicate])) k
  rwa [List.length_replicate] at hwritten

theorem assignment_of_written {w : String} {us rest : List Token}
    (h : Written IsNameToken (equationPieces w) us)
    (hrest : ∀ t ∈ rest.head?, endsSpan endsAssignment t = true) (k : Nat) :
    assignment ⟨.sequential, k⟩ (us ++ rest) =
      .ok (((w, .parameter k), ⟨.sequential, k + 1⟩), rest) := by
  obtain ⟨t, ht, rfl⟩ := written_equationPieces.1 h
  have hname : name (t :: .equals :: .marker .next :: rest) = .ok (w, _) :=
    name_of_isNameToken ht (by simp)
  have hmark : mark .equals .assign (.equals :: .marker .next :: rest) = .ok _ := if_pos rfl
  simp only [List.cons_append, List.nil_append, assignment, hname, hmark]
  rw [List.tail_cons, operand_marker rfl hrest]

/-- Written assignments are read back with one parameter each. -/
theorem assignments_of_written (k : Nat) {ws : List String} (hne : ws ≠ []) {us : List Token}
    (h : Written IsNameToken (assignmentPieces ws) us) {t : Token}
    (ht : t.isKeyword .WHERE = true) (rest : List Token) :
    assignments ⟨.sequential, k⟩ (us ++ t :: rest) =
      .ok ((ws.zip (parametersFrom k ws.length), ⟨.sequential, k + ws.length⟩), t :: rest) := by
  have hcomma : endsSpan endsAssignment .comma = true := rfl
  have hends : endsSpan endsAssignment t = true := by
    simp [endsSpan, endsAssignment, ht, (ne_parens_of_isKeyword ht).1]
  have hlist := writtenList_of_written hne h
  clear hne h
  induction hlist generalizing k with
  | last hequation =>
    refine assignments_of_head? (assignment_of_written hequation (by simpa using hends) k) ?_
    rintro heq
    cases heq
    cases ht
  | @more w ws _ _ _ hequation hseparator _ ih =>
    obtain rfl := hseparator
    rw [List.append_assoc, List.cons_append,
      assignments_of_comma (assignment_of_written hequation (by simpa using hcomma) k),
      ih (k + 1), map_ok]
    simp only [List.length_cons, parametersFrom_succ, List.zip_cons_cons]
    rw [show k + 1 + ws.length = k + (ws.length + 1) by omega]

end Grammar

end TableSql
