import TableSql.Inline
import TableSql.Proofs.Steps
import TableSql.Proofs.Token.Recovery

/-!
# Literals in place of markers

A statement for a service of raw SQL is written with literals in the places of its markers. Every
literal that is no floating-point number spells one token, so the new text is laid out from the
lexemes of the statement, with the literals in place of the markers. It is scanned that way exactly
if these lexemes stand apart. Quoting alone does not keep them apart: a negative number behind `-`
begins a comment, and a literal that touches a word, a number or another literal runs together with
it.

## Main definitions

* `Value.literalToken` — the token that the literal of a value spells.
* `inlinedTokens` — tokens with the literals of the parameters in place of the markers.
* `Scan.inlined` — the lexemes that a statement with its parameters written in is laid out from.

## Main results

* `Scan.toList_inline` — the text with its parameters written in is that layout.
* `scan_inline_iff` — it is scanned as it was laid out exactly if its lexemes stand apart.
-/

namespace TableSql

/-! ### Literals -/

/-- Whether a value is a floating-point number. -/
def Value.isFloat : Value → Bool
  | float _ => true
  | _ => false

/-- The token that the literal of a value spells; for a floating-point number, only a token of the
same text. -/
def Value.literalToken : Value → Token
  | null => .word "NULL"
  | bool true => .word "TRUE"
  | bool false => .word "FALSE"
  | int i => .number (String.ofList (Decimal.ofInt i))
  | float x => .number (Json.number x)
  | text s => .string s
  | array items => .string (array items).json
  | object entries => .string (object entries).json

/-- A text as a literal is one token, whatever characters it has. -/
theorem spells_sqlText (s : String) : (Token.string s).Spells (sqlText s).toList := by
  have h := Token.Spells.string s.toList
  rw [String.ofList_toList] at h
  rw [sqlText, String.toList_ofList]
  exact h

/-- Letters are a word. -/
theorem spells_word_of_all {c : Char} {tail : List Char} (hc : Token.beginsWord c = true)
    (htail : tail.all Token.continuesWord = true) :
    (Token.word (String.ofList (c :: tail))).Spells (c :: tail) :=
  .word hc (List.all_eq_true.1 htail)

/-- The literal of a value is one token. -/
theorem Value.spells_sqlLiteral {v : Value} (h : v.isFloat = false) :
    v.literalToken.Spells v.sqlLiteral.toList := by
  cases v with
  | null => exact @spells_word_of_all 'N' ['U', 'L', 'L'] (by decide) (by decide)
  | bool b =>
    cases b with
    | false => exact @spells_word_of_all 'F' ['A', 'L', 'S', 'E'] (by decide) (by decide)
    | true => exact @spells_word_of_all 'T' ['R', 'U', 'E'] (by decide) (by decide)
  | int i =>
    rw [sqlLiteral, String.toList_ofList]
    cases i with
    | ofNat n => exact .number (isNumeral_digits n)
    | negSucc n => exact .negative (isNumeral_digits (n + 1))
  | float x => cases h
  | text s => exact spells_sqlText s
  | array items => exact spells_sqlText _
  | object entries => exact spells_sqlText _

/-! ### Replacing markers -/

/-- What is written in the place of a token, and the cursor behind it: every marker takes its
operand, except a bare `?` among numbered markers. -/
def Cursor.replacement? (c : Cursor) (t : Token) : Option (Operand × Cursor) :=
  match t.marker? with
  | some m => if c.mode = .numbered ∧ m = .next then none else some (c.take m)
  | none => none

/-- The tokens with the literals of the parameters in place of the markers. -/
def inlinedTokens (b : Bindings) (c : Cursor) : List Token → List Token
  | [] => []
  | t :: ts =>
    match c.replacement? t with
    | some (a, c) => (b.value a).literalToken :: inlinedTokens b c ts
    | none => t :: inlinedTokens b c ts

/-- The lexemes with the literals of the parameters in place of the markers. -/
def inlinedLexemes (b : Bindings) (c : Cursor) : List Lexeme → List Lexeme
  | [] => []
  | l :: ls =>
    match c.replacement? l.token with
    | some (a, c) =>
      ⟨l.gap, (b.value a).sqlLiteral.toList, (b.value a).literalToken, l.start⟩ ::
        inlinedLexemes b c ls
    | none => l :: inlinedLexemes b c ls

/-- The lexemes that a statement with its parameters written in is laid out from, each at the byte
where it is laid out. -/
def Scan.inlined (s : Scan) (b : Bindings) : Scan :=
  ⟨placed 0 (inlinedLexemes b (.start (.detect s.tokens)) s.lexemes), s.trailing⟩

theorem lexemeFragments_cons (c : Cursor) (l : Lexeme) (ls : List Lexeme) :
    lexemeFragments c (l :: ls) =
      match c.replacement? l.token with
      | some (a, c) => .verbatim l.gap :: .operand a :: lexemeFragments c ls
      | none => .verbatim (l.gap ++ l.source) :: lexemeFragments c ls := by
  rw [lexemeFragments, Cursor.replacement?]
  cases l.token.marker? with
  | none => rfl
  | some m =>
    by_cases hm : c.mode = .numbered ∧ m = .next
    · simp only [if_pos hm]
    · simp only [if_neg hm]

/-- The operand of a marker that is replaced is a parameter, or null. -/
theorem value_of_replacement? {b : Bindings} {c c' : Cursor} {t : Token} {a : Operand}
    (h : c.replacement? t = some (a, c')) : b.value a = .null ∨ b.value a ∈ b.params := by
  have hparam (k : Nat) : b.params[k]?.getD .null = .null ∨ b.params[k]?.getD .null ∈ b.params := by
    cases hk : b.params[k]? with
    | none => exact .inl rfl
    | some v => exact .inr (List.mem_of_getElem? hk)
  unfold Cursor.replacement? at h
  split at h
  · rename_i m hm
    split at h
    · cases h
    · rename_i hnext
      have ha : (c.take m).1 = a := congrArg Prod.fst (Option.some.inj h)
      subst ha
      rcases c with ⟨_ | _, used⟩
      · rcases m with _ | _ | n
        · exact hparam used
        · exact .inl rfl
        · exact hparam n
      · rcases m with _ | _ | n
        · exact absurd ⟨rfl, rfl⟩ hnext
        · exact .inl rfl
        · exact hparam n
  · cases h

theorem map_token_inlinedLexemes (b : Bindings) (c : Cursor) (ls : List Lexeme) :
    (inlinedLexemes b c ls).map Lexeme.token = inlinedTokens b c (ls.map Lexeme.token) := by
  induction ls generalizing c with
  | nil => rfl
  | cons l ls ih =>
    rw [inlinedLexemes, List.map_cons, inlinedTokens]
    cases c.replacement? l.token with
    | none => simp [ih]
    | some r => simp [ih]

theorem map_gap_inlinedLexemes (b : Bindings) (c : Cursor) (ls : List Lexeme) :
    (inlinedLexemes b c ls).map Lexeme.gap = ls.map Lexeme.gap := by
  induction ls generalizing c with
  | nil => rfl
  | cons l ls ih =>
    rw [inlinedLexemes]
    cases c.replacement? l.token with
    | none => simp [ih]
    | some r => simp [ih]

/-- No numbered marker is left, and no literal is one. -/
theorem isNumbered_of_mem_inlinedTokens {b : Bindings} {c : Cursor} {t : Token} {ts : List Token}
    (h : t ∈ inlinedTokens b c ts) : MarkerMode.isNumbered t = false := by
  induction ts generalizing c with
  | nil => cases h
  | cons u ts ih =>
    rw [inlinedTokens] at h
    cases hu : c.replacement? u with
    | some r =>
      rw [hu] at h
      rcases List.mem_cons.1 h with rfl | h
      · cases b.value r.1 with
        | bool b => cases b <;> rfl
        | _ => rfl
      · exact ih h
    | none =>
      rw [hu] at h
      rcases List.mem_cons.1 h with rfl | h
      · cases t with
        | marker m =>
          cases m with
          | next => rfl
          | numbered n => simp [Cursor.replacement?, Token.marker?] at hu
        | _ => rfl
      · exact ih h

/-- Every lexeme is still spelled when the markers are replaced. -/
theorem spelled_inlinedLexemes {b : Bindings} (hb : ∀ v ∈ b.params, v.isFloat = false)
    {ls : List Lexeme} (hs : Spelled ls) (c : Cursor) : Spelled (inlinedLexemes b c ls) := by
  induction ls generalizing c with
  | nil => exact hs
  | cons l ls ih =>
    obtain ⟨hl, hs⟩ := List.forall_mem_cons.1 hs
    rw [inlinedLexemes]
    cases h : c.replacement? l.token with
    | none => exact List.forall_mem_cons.2 ⟨hl, ih hs c⟩
    | some r =>
      refine List.forall_mem_cons.2 ⟨⟨hl.1, Value.spells_sqlLiteral ?_⟩, ih hs r.2⟩
      rcases value_of_replacement? (b := b) h with hv | hv
      · rw [hv]
        rfl
      · exact hb _ hv

theorem render_lexemeFragments (b : Bindings) (c : Cursor) (ls : List Lexeme)
    (trailing : List Char) :
    ((lexemeFragments c ls).map (Fragment.map b.value)).flatMap Fragment.render ++ trailing =
      Scan.source ⟨inlinedLexemes b c ls, trailing⟩ := by
  induction ls generalizing c with
  | nil => rfl
  | cons l ls ih =>
    rw [lexemeFragments_cons, inlinedLexemes]
    cases c.replacement? l.token with
    | none => simp [Fragment.map, Fragment.render, ← ih]
    | some r => simp [Fragment.map, Fragment.render, ← ih]

/-- The text of a statement with its parameters written in is laid out from the lexemes of the
statement, with the literals in place of the markers. -/
theorem Scan.toList_inline (b : Bindings) (s : Scan) :
    (inline b s (.detect s.tokens)).toList = (s.inlined b).source := by
  rw [inlined, source_placed, ← render_lexemeFragments, inline, renderFragments,
    String.toList_ofList, Scan.fragments]
  simp [Fragment.map, Fragment.render]

/-! ### The scan of a text with its parameters written in -/

/-- A text with its parameters written in is scanned as it was laid out exactly if its lexemes stand
apart. Its tokens are then those of the statement with the literals in place of the markers, and
where the statement has no comments these are its tokens only then. -/
theorem scan_inline_iff {cs : List Char} {s : Scan} {b : Bindings} (h : scan cs = .ok s)
    (hb : ∀ v ∈ b.params, v.isFloat = false) :
    (scan (inline b s (.detect s.tokens)).toList = .ok (s.inlined b) ↔
        Apart (s.inlined b).trailing (s.inlined b).lexemes) ∧
      (s.inlined b).tokens = inlinedTokens b (.start (.detect s.tokens)) s.tokens ∧
      (s.Uncommented →
        ((∃ s', scan (inline b s (.detect s.tokens)).toList = .ok s' ∧
            s'.tokens = inlinedTokens b (.start (.detect s.tokens)) s.tokens) ↔
          Apart (s.inlined b).trailing (s.inlined b).lexemes)) := by
  obtain ⟨hs, ht, -, -⟩ := of_scanFrom h
  have hspelled := spelled_inlinedLexemes hb hs (.start (.detect s.tokens))
  have htokens : (inlinedLexemes b (.start (.detect s.tokens)) s.lexemes).map Lexeme.token =
      inlinedTokens b (.start (.detect s.tokens)) s.tokens := map_token_inlinedLexemes _ _ _
  rw [Scan.toList_inline, scan, Scan.inlined, source_placed, apart_placed]
  refine ⟨scanFrom_source_iff hspelled ht 0, ?_, fun hc => ?_⟩
  · rw [← htokens]
    exact map_token_placed 0 _
  · have hgaps : Scan.Uncommented
        ⟨inlinedLexemes b (.start (.detect s.tokens)) s.lexemes, s.trailing⟩ := by
      rw [Scan.Uncommented, List.flatMap_def, map_gap_inlinedLexemes, ← List.flatMap_def]
      exact hc
    have hnumbered : ∀ t ∈ (inlinedLexemes b (.start (.detect s.tokens)) s.lexemes).map
        Lexeme.token, MarkerMode.isNumbered t = false := by
      rw [htokens]
      exact fun t => isNumbered_of_mem_inlinedTokens
    rw [← htokens]
    exact tokens_scanFrom_iff hspelled ht hnumbered hgaps 0

/-- A negative number behind a minus and a blank is a token of its own. -/
theorem scan_inline_behind_blank :
    ∃ s, scan "9 - ?".toList = .ok s ∧
      scan (inline ⟨[.int (-5)], ""⟩ s (.detect s.tokens)).toList =
        .ok (s.inlined ⟨[.int (-5)], ""⟩) ∧
      ∃ s', scan (inline ⟨[.int (-5)], ""⟩ s (.detect s.tokens)).toList = .ok s' ∧
        s'.tokens = inlinedTokens ⟨[.int (-5)], ""⟩ (.start (.detect s.tokens)) s.tokens := by
  have h : scan "9 - ?".toList = .ok ⟨[⟨[], ['9'], .number "9", 0⟩,
      ⟨[' '], ['-'], .operator "-", 2⟩, ⟨[' '], ['?'], .marker .next, 4⟩], []⟩ :=
    eq_ok_of_mem_toOption (by decide +kernel)
  have hb : ∀ v ∈ [Value.int (-5)], v.isFloat = false := by simp [Value.isFloat]
  obtain ⟨hscan, -, htokens⟩ := scan_inline_iff (b := ⟨_, ""⟩) h hb
  exact ⟨_, h, hscan.2 (by decide +kernel), (htokens (by decide)).2 (by decide +kernel)⟩

/-- A negative number directly behind a minus begins a comment, and the rest of the statement is
lost. -/
theorem inline_begins_comment :
    ∃ s ∈ (scan "SELECT COUNT(*) FROM t WHERE a = 9 -? AND owner = 7".toList).toOption,
      ∃ s' ∈ (scan (inline ⟨[.int (-5)], ""⟩ s (.detect s.tokens)).toList).toOption,
        s'.tokens ≠ inlinedTokens ⟨[.int (-5)], ""⟩ (.start (.detect s.tokens)) s.tokens := by
  decide +kernel

end TableSql
