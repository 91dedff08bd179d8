import TableSql.Binding
import TableSql.Proofs.Token.Separation

/-!
# Layouts that tokens tell

Lexemes that do not stand apart may still give the tokens that they were laid out with: a comment
that runs over some of them may end inside another comment, whose text is then read as tokens. Where
the lexemes were laid out without comments this does not happen, since the characters of a comment
would be missing from the tokens. So the tokens of such a text are those of its lexemes exactly if
the lexemes stand apart.

## Main definitions

* `Text.inkCount` — the number of characters of a text that are no blanks.
* `tokensInk` — the number of such characters in the spellings of tokens.
* `Scan.Uncommented` — lexemes without comments between them.

## Main results

* `inkCount_source` — every character that is no blank belongs to a token or to a comment.
* `tokens_scanFrom_iff` — without comments, lexemes are told by their tokens exactly if they stand
  apart.
-/

namespace TableSql

/-- The number of characters of a text that are no blanks. -/
def Text.inkCount (cs : List Char) : Nat :=
  cs.countP fun c => !Text.isLineBlank c

/-- The number of characters that are no blanks in the spellings of tokens. -/
def tokensInk : List Token → Nat
  | [] => 0
  | t :: ts => Text.inkCount t.spelling + tokensInk ts

/-- No comment stands between the lexemes or behind them. -/
def Scan.Uncommented (s : Scan) : Prop :=
  (s.lexemes.flatMap Lexeme.gap ++ s.trailing).all Text.isLineBlank = true

instance (s : Scan) : Decidable s.Uncommented :=
  inferInstanceAs (Decidable (_ = true))

namespace Text

@[simp]
theorem inkCount_append (cs ds : List Char) : inkCount (cs ++ ds) = inkCount cs + inkCount ds :=
  List.countP_append

theorem inkCount_eq_zero_iff {cs : List Char} :
    inkCount cs = 0 ↔ ∀ c ∈ cs, isLineBlank c = true := by
  rw [inkCount, List.countP_eq_zero]
  simp

end Text

/-! ### Spellings of one token -/

namespace Token.Spells

variable {t : Token} {source source' : List Char}

/-- A token other than a numbered marker is spelled as it is printed, except that a name may stand
between other quotes. -/
theorem eq_spelling_or (h : t.Spells source) (hn : MarkerMode.isNumbered t = false) :
    source = t.spelling ∨ ∃ w, t = .quotedName w ∧ source = '\x60' :: (w.toList ++ ['\x60']) := by
  cases h with
  | next => exact .inl rfl
  | numbered hsign => cases hn
  | string text => exact .inl (by simp [spelling])
  | @quotedName q name hq =>
    rcases hq with rfl | rfl
    · exact .inl (by simp [spelling])
    · exact .inr ⟨_, rfl, by simp⟩
  | number hds => exact .inl (by simp [spelling])
  | negative hds => exact .inl (by simp [spelling])
  | word hc => exact .inl (by simp [spelling])
  | long h => exact .inl (by simp [spelling])
  | short h => exact .inl (by simp [spelling])
  | mark h =>
    simp only [marks, List.mem_cons, Prod.mk.injEq, List.not_mem_nil, or_false] at h
    rcases h with ⟨rfl, rfl⟩ | ⟨rfl, rfl⟩ | ⟨rfl, rfl⟩ | ⟨rfl, rfl⟩ | ⟨rfl, rfl⟩ | ⟨rfl, rfl⟩ |
      ⟨rfl, rfl⟩ <;> exact .inl rfl

/-- Two spellings of one token that begin alike are the same. -/
theorem eq_of_head? (h : t.Spells source) (h' : t.Spells source')
    (hn : MarkerMode.isNumbered t = false) (hhead : source.head? = source'.head?) :
    source = source' := by
  rcases h.eq_spelling_or hn with rfl | ⟨w, rfl, rfl⟩
  · rcases h'.eq_spelling_or hn with rfl | ⟨w, rfl, rfl⟩
    · rfl
    · simp [spelling] at hhead
  · rcases h'.eq_spelling_or hn with rfl | ⟨w', heq, rfl⟩
    · simp [spelling] at hhead
    · cases heq
      rfl

/-- All spellings of a token have the same number of characters that are no blanks. -/
theorem inkCount_eq (h : t.Spells source) (hn : MarkerMode.isNumbered t = false) :
    Text.inkCount source = Text.inkCount t.spelling := by
  rcases h.eq_spelling_or hn with rfl | ⟨w, rfl, rfl⟩
  · rfl
  · simp [Text.inkCount, spelling, Text.isLineBlank]

end Token.Spells

/-! ### Lexemes without comments -/

/-- Every character of a layout that is no blank belongs to a token or to a comment. -/
theorem inkCount_source {ls : List Lexeme} (hs : Spelled ls)
    (hn : ∀ t ∈ ls.map Lexeme.token, MarkerMode.isNumbered t = false) (trailing : List Char) :
    Text.inkCount (Scan.source ⟨ls, trailing⟩) =
      tokensInk (ls.map Lexeme.token) + Text.inkCount (ls.flatMap Lexeme.gap ++ trailing) := by
  induction ls with
  | nil => simp [tokensInk]
  | cons l ls ih =>
    obtain ⟨hl, hs⟩ := List.forall_mem_cons.1 hs
    obtain ⟨hnl, hn⟩ := List.forall_mem_cons.1 hn
    have hrest := ih hs hn
    have hspelling := hl.2.inkCount_eq hnl
    rw [Text.inkCount_append] at hrest
    simp only [source_cons, Text.inkCount_append, List.map_cons, tokensInk, List.flatMap_cons]
    omega

/-- Blanks end where a text begins that begins with none. -/
theorem append_inj_of_blank {gap gap' cs cs' : List Char}
    (hgap : ∀ c ∈ gap, Text.isLineBlank c = true) (hgap' : ∀ c ∈ gap', Text.isLineBlank c = true)
    (hcs : ∀ c ∈ cs.head?, Text.isLineBlank c = false)
    (hcs' : ∀ c ∈ cs'.head?, Text.isLineBlank c = false) (h : gap ++ cs = gap' ++ cs') :
    gap = gap' ∧ cs = cs' := by
  have hsame : gap = gap' := by
    rw [← takeWhile_append_of_head hgap hcs, h, takeWhile_append_of_head hgap' hcs']
  subst hsame
  exact ⟨rfl, List.append_cancel_left h⟩

/-- Two layouts of the same tokens in one text are the same, so that one stands apart if the other
one does. -/
theorem apart_of_source_eq {ls ls' : List Lexeme} {trailing trailing' : List Char}
    (hs : Spelled ls) (hs' : Spelled ls')
    (hn : ∀ t ∈ ls.map Lexeme.token, MarkerMode.isNumbered t = false)
    (hblank : ∀ c ∈ ls.flatMap Lexeme.gap ++ trailing, Text.isLineBlank c = true)
    (hblank' : ∀ c ∈ ls'.flatMap Lexeme.gap ++ trailing', Text.isLineBlank c = true)
    (htokens : ls.map Lexeme.token = ls'.map Lexeme.token)
    (hsource : Scan.source ⟨ls, trailing⟩ = Scan.source ⟨ls', trailing'⟩)
    (ha : Apart trailing' ls') : Apart trailing ls := by
  have hhead {t : Token} {source : List Char} (h : t.Spells source) (behind : List Char) :
      ∀ c ∈ (source ++ behind).head?, Text.isLineBlank c = false := by
    obtain ⟨c, tail, rfl⟩ := List.exists_cons_of_ne_nil h.ne_nil
    intro d hd
    cases Option.some.inj hd
    exact isLineBlank_eq_false_of_spells h
  induction ls generalizing ls' with
  | nil => trivial
  | cons l ls ih =>
    cases ls' with
    | nil => cases htokens
    | cons l' ls' =>
      obtain ⟨hl, hs⟩ := List.forall_mem_cons.1 hs
      obtain ⟨hl', hs'⟩ := List.forall_mem_cons.1 hs'
      obtain ⟨hnl, hn⟩ := List.forall_mem_cons.1 hn
      obtain ⟨hj, ha⟩ := ha
      rw [List.map_cons, List.map_cons, List.cons.injEq] at htokens
      obtain ⟨htoken, htokens⟩ := htokens
      rw [List.flatMap_cons, List.append_assoc, List.forall_mem_append] at hblank hblank'
      rw [source_cons, source_cons] at hsource
      obtain ⟨-, hsource⟩ := append_inj_of_blank hblank.1 hblank'.1 (hhead hl.2 _)
        (hhead hl'.2 _) hsource
      have hsame : l.source = l'.source := by
        refine hl.2.eq_of_head? (htoken ▸ hl'.2) hnl ?_
        obtain ⟨c, tail, hcons⟩ := List.exists_cons_of_ne_nil hl.2.ne_nil
        obtain ⟨c', tail', hcons'⟩ := List.exists_cons_of_ne_nil hl'.2.ne_nil
        rw [hcons, hcons', List.cons_append, List.cons_append, List.cons.injEq] at hsource
        rw [hcons, hcons', List.head?_cons, List.head?_cons, hsource.1]
      rw [hsame] at hsource
      have hsource := List.append_cancel_left hsource
      refine ⟨?_, ih hs hs' hn hblank.2 hblank'.2 htokens hsource ha⟩
      rw [htoken, hsource]
      exact hj

/-- Lexemes that were laid out without comments are told by the tokens of their text exactly if they
stand apart. -/
theorem tokens_scanFrom_iff {ls : List Lexeme} {trailing : List Char} (hs : Spelled ls)
    (ht : EndsInGap trailing) (hn : ∀ t ∈ ls.map Lexeme.token, MarkerMode.isNumbered t = false)
    (hc : Scan.Uncommented ⟨ls, trailing⟩) (start : Nat) :
    (∃ s, scanFrom start (Scan.source ⟨ls, trailing⟩) = .ok s ∧
        s.tokens = ls.map Lexeme.token) ↔ Apart trailing ls := by
  have hblank := List.all_eq_true.1 hc
  constructor
  · rintro ⟨s, hscan, htokens⟩
    obtain ⟨hs', -, ha, -⟩ := of_scanFrom hscan
    have htokens : s.lexemes.map Lexeme.token = ls.map Lexeme.token := htokens
    have hsource : Scan.source ⟨s.lexemes, s.trailing⟩ = Scan.source ⟨ls, trailing⟩ :=
      source_scanFrom hscan
    -- The characters of a comment would be missing from the tokens.
    have hink : Text.inkCount (s.lexemes.flatMap Lexeme.gap ++ s.trailing) = 0 := by
      have hlaid := inkCount_source hs hn trailing
      have hread := inkCount_source hs' (htokens ▸ hn) s.trailing
      rw [hsource, hlaid, htokens, Text.inkCount_eq_zero_iff.2 hblank] at hread
      omega
    exact apart_of_source_eq hs hs' hn hblank (Text.inkCount_eq_zero_iff.1 hink) htokens.symm
      hsource.symm ha
  · intro ha
    exact ⟨_, scanFrom_of_apart hs ht ha start, map_token_placed start ls⟩

end TableSql
