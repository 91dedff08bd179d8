import TableSql.Proofs.Token.Recovery
import TableSql.Statement.Parse

/-!
# Blanks at the ends of tokens

The text of a statement is trimmed before it is scanned, and so is the argument of an aggregate
before it is looked at. No token begins or ends with a blank, so trimming leaves the text of
consecutive lexemes as it is. Two things follow. In a text that begins with lexemes standing apart,
these are scanned first, and what stands behind them is scanned as if it stood alone. And an excerpt
is a single character only if it is a single token, so that the tokens decide whether it is `*` or
`1`, whatever blanks and comments the statement has.

## Main results

* `Token.Spells.isBlank_ends` — no blank stands at either end of a token.
* `toOption_tokens_scanTrimmed_of_apart` — what is scanned behind lexemes that stand apart.
* `trim_sourceText_eq_iff` — when an excerpt is a single character.
* `Scan.contains_trimmed_excerpt` — when an excerpt is `*` or `1`.
-/

namespace TableSql

/-! ### Blanks -/

/-- The visible characters of ASCII are no blanks. -/
theorem isBlank_eq_false_of_toNat {c : Char} (h : 33 ≤ c.toNat) (h' : c.toNat ≤ 126) :
    Text.isBlank c = false := by
  simp only [Text.isBlank, Bool.or_eq_false_iff, Bool.and_eq_false_iff, beq_eq_false_iff_ne,
    decide_eq_false_iff_not]
  omega

/-- No character of a word is a blank. -/
theorem isBlank_eq_false_of_continuesWord {c : Char} (h : Token.continuesWord c = true) :
    Text.isBlank c = false := by
  simp only [Token.continuesWord, Char.isAlphanum, Bool.or_eq_true, beq_iff_eq] at h
  rcases h with (h | h) | rfl
  · rcases Bool.or_eq_true_iff.1 h with h | h
    · have hupper : 65 ≤ c.toNat ∧ c.toNat ≤ 90 := of_decide_eq_true h
      exact isBlank_eq_false_of_toNat (by omega) (by omega)
    · obtain ⟨hfirst, hlast⟩ := Bool.and_eq_true_iff.1 h
      have hfirst : 97 ≤ c.toNat := of_decide_eq_true hfirst
      have hlast : c.toNat ≤ 122 := of_decide_eq_true hlast
      exact isBlank_eq_false_of_toNat (by omega) (by omega)
  · obtain ⟨hfirst, hlast⟩ := Bool.and_eq_true_iff.1 h
    have hfirst : 48 ≤ c.toNat := of_decide_eq_true hfirst
    have hlast : c.toNat ≤ 57 := of_decide_eq_true hlast
    exact isBlank_eq_false_of_toNat (by omega) (by omega)
  · rfl

theorem isBlank_eq_false_of_isDigit {c : Char} (h : c.isDigit = true) :
    Text.isBlank c = false :=
  isBlank_eq_false_of_continuesWord (by simp [Token.continuesWord, Char.isAlphanum, h])

theorem isBlank_eq_false_of_beginsWord {c : Char} (h : Token.beginsWord c = true) :
    Text.isBlank c = false := by
  refine isBlank_eq_false_of_continuesWord ?_
  simp only [Token.beginsWord, Token.continuesWord, Char.isAlphanum, Bool.or_eq_true] at h ⊢
  exact h.imp_left .inl

/-- A text without any blanks has none at its ends. -/
theorem isBlank_ends_of_forall {cs : List Char} (h : ∀ c ∈ cs, Text.isBlank c = false) :
    cs.head?.any Text.isBlank = false ∧ cs.getLast?.any Text.isBlank = false := by
  rw [Option.any_eq_false, Option.any_eq_false]
  exact ⟨fun c hc => by simp [h c (List.mem_of_mem_head? hc)],
    fun c hc => by simp [h c (List.mem_of_mem_getLast? hc)]⟩

/-- A text between characters that are no blanks has no blanks at its ends. -/
theorem isBlank_ends_of_between {q : Char} (h : Text.isBlank q = false) (cs : List Char) :
    (q :: (cs ++ [q])).head?.any Text.isBlank = false ∧
      (q :: (cs ++ [q])).getLast?.any Text.isBlank = false := by
  refine ⟨h, ?_⟩
  rw [← List.cons_append, List.getLast?_concat]
  exact h

theorem IsNumeral.isBlank_eq_false {ds : List Char} (h : IsNumeral ds) :
    ∀ c ∈ ds, Text.isBlank c = false := by
  intro c hc
  obtain ⟨whole, -, hwhole, rfl | ⟨fraction, -, hfraction, rfl⟩⟩ := h
  · exact isBlank_eq_false_of_isDigit (hwhole c hc)
  · rcases List.mem_append.1 hc with hc | hc
    · exact isBlank_eq_false_of_isDigit (hwhole c hc)
    · rcases List.mem_cons.1 hc with rfl | hc
      · rfl
      · exact isBlank_eq_false_of_isDigit (hfraction c hc)

namespace Token.Spells

variable {t u : Token} {source : List Char}

/-- No blank stands at either end of a token. -/
theorem isBlank_ends (h : t.Spells source) :
    source.head?.any Text.isBlank = false ∧ source.getLast?.any Text.isBlank = false := by
  cases h with
  | next => exact ⟨by decide, by decide⟩
  | numbered hsign hne hds =>
    refine isBlank_ends_of_forall (List.forall_mem_cons.2 ⟨?_, fun c hc => ?_⟩)
    · rcases hsign with rfl | rfl <;> decide
    · exact isBlank_eq_false_of_isDigit (hds c hc)
  | string text => exact isBlank_ends_of_between (by decide) _
  | quotedName hq => exact isBlank_ends_of_between (by rcases hq with rfl | rfl <;> decide) _
  | number hds => exact isBlank_ends_of_forall hds.isBlank_eq_false
  | negative hds =>
    exact isBlank_ends_of_forall (List.forall_mem_cons.2 ⟨by decide, hds.isBlank_eq_false⟩)
  | word hc htail =>
    exact isBlank_ends_of_forall (List.forall_mem_cons.2 ⟨isBlank_eq_false_of_beginsWord hc,
      fun d hd => isBlank_eq_false_of_continuesWord (htail d hd)⟩)
  | @long c d h =>
    simp only [longOperators, List.mem_cons, Prod.mk.injEq, List.not_mem_nil, or_false] at h
    rcases h with ⟨rfl, rfl⟩ | ⟨rfl, rfl⟩ | ⟨rfl, rfl⟩ | ⟨rfl, rfl⟩ | ⟨rfl, rfl⟩ <;>
      exact ⟨by decide, by decide⟩
  | short h =>
    simp only [shortOperators, List.mem_cons, List.not_mem_nil, or_false] at h
    rcases h with rfl | rfl | rfl | rfl | rfl | rfl <;> exact ⟨by decide, by decide⟩
  | mark h =>
    simp only [marks, List.mem_cons, Prod.mk.injEq, List.not_mem_nil, or_false] at h
    rcases h with ⟨rfl, -⟩ | ⟨rfl, -⟩ | ⟨rfl, -⟩ | ⟨rfl, -⟩ | ⟨rfl, -⟩ | ⟨rfl, -⟩ | ⟨rfl, -⟩ <;>
      exact ⟨by decide, by decide⟩

/-- A text spells one token at most. -/
theorem unique (h : t.Spells source) (h' : u.Spells source) : t = u := by
  obtain ⟨c, tail, rfl⟩ := List.exists_cons_of_ne_nil h.ne_nil
  have hread {t : Token} (h : t.Spells (c :: tail)) : read? c tail = some (t, tail.length) := by
    have hb : t.extendedBy [] = false := by cases t <;> simp [extendedBy, extendsNumeral]
    simpa only [List.append_nil] using read?_of_spells h hb
  exact congrArg Prod.fst (Option.some.inj ((hread h).symm.trans (hread h')))

end Token.Spells

/-! ### Trimming -/

theorem dropWhile_eq_self {p : Char → Bool} {cs : List Char} (h : cs.head?.any p = false) :
    cs.dropWhile p = cs := by
  cases cs with
  | nil => rfl
  | cons c cs =>
    rw [List.head?_cons, Option.any_some] at h
    rw [List.dropWhile_cons, h, if_neg Bool.false_ne_true]

/-- A text without blanks at its ends is trimmed. -/
theorem trim_eq_self {cs : List Char} (hfirst : cs.head?.any Text.isBlank = false)
    (hlast : cs.getLast?.any Text.isBlank = false) : Text.trim cs = cs := by
  rw [← List.head?_reverse] at hlast
  rw [Text.trim, dropWhile_eq_self hfirst, Text.trimEnd, dropWhile_eq_self hlast,
    List.reverse_reverse]

/-- Behind a text without blanks at its ends only the text behind it is trimmed. -/
theorem trim_append {cs : List Char} (hne : cs ≠ []) (hfirst : cs.head?.any Text.isBlank = false)
    (hlast : cs.getLast?.any Text.isBlank = false) (behind : List Char) :
    Text.trim (cs ++ behind) = cs ++ Text.trimEnd behind := by
  obtain ⟨c, rest, rfl⟩ := List.exists_cons_of_ne_nil hne
  have happend : (c :: rest ++ behind).head?.any Text.isBlank = false := hfirst
  rw [← List.head?_reverse] at hlast
  rw [Text.trim, dropWhile_eq_self happend, Text.trimEnd, List.reverse_append,
    List.dropWhile_append, Text.trimEnd]
  split
  · rename_i hnil
    rw [dropWhile_eq_self hlast, List.reverse_reverse, List.isEmpty_iff.1 hnil]
    simp
  · rw [List.reverse_append, List.reverse_reverse]

section Lexemes

variable {ls : List Lexeme}

theorem source_append_trailing (ls : List Lexeme) (trailing : List Char) :
    Scan.source ⟨ls, trailing⟩ = Scan.source ⟨ls, []⟩ ++ trailing := by
  simp [Scan.source]

theorem sourceText_cons (l : Lexeme) (ls : List Lexeme) :
    sourceText (l :: ls) = l.source ++ Scan.source ⟨ls, []⟩ := by
  simp [sourceText, Scan.source]

theorem source_ne_nil (hs : Spelled ls) (hne : ls ≠ []) : Scan.source ⟨ls, []⟩ ≠ [] := by
  obtain ⟨l, ls, rfl⟩ := List.exists_cons_of_ne_nil hne
  rw [source_cons]
  simp [(hs l List.mem_cons_self).2.ne_nil]

theorem isBlank_append_head {source : List Char} (hne : source ≠ [])
    (h : source.head?.any Text.isBlank = false) (behind : List Char) :
    (source ++ behind).head?.any Text.isBlank = false := by
  obtain ⟨c, cs, rfl⟩ := List.exists_cons_of_ne_nil hne
  exact h

theorem isBlank_append_getLast {source behind : List Char}
    (h : behind = [] → source.getLast?.any Text.isBlank = false)
    (hb : behind.getLast?.any Text.isBlank = false) :
    (source ++ behind).getLast?.any Text.isBlank = false := by
  rw [List.getLast?_append]
  cases hlast : behind.getLast? with
  | none => exact h (List.getLast?_eq_none_iff.1 hlast)
  | some c =>
    rw [hlast] at hb
    exact hb

theorem isBlank_getLast_source (hs : Spelled ls) :
    (Scan.source ⟨ls, []⟩).getLast?.any Text.isBlank = false := by
  induction ls with
  | nil => rfl
  | cons l ls ih =>
    obtain ⟨⟨-, hl⟩, hs⟩ := List.forall_mem_cons.1 hs
    rw [source_cons, ← List.append_assoc]
    refine isBlank_append_getLast (fun _ => ?_) (ih hs)
    exact isBlank_append_getLast (fun hnil => absurd hnil hl.ne_nil) hl.isBlank_ends.2

/-- The text of lexemes has no blanks at its ends. -/
theorem trim_sourceText (hs : Spelled ls) : Text.trim (sourceText ls) = sourceText ls := by
  cases ls with
  | nil => rfl
  | cons l ls =>
    obtain ⟨⟨-, hl⟩, hs⟩ := List.forall_mem_cons.1 hs
    rw [sourceText_cons]
    exact trim_eq_self (isBlank_append_head hl.ne_nil hl.isBlank_ends.1 _)
      (isBlank_append_getLast (fun _ => hl.isBlank_ends.2) (isBlank_getLast_source hs))

theorem trim_source (hs : Spelled ls) (hfirst : ∀ l ∈ ls.head?, l.gap = []) :
    Text.trim (Scan.source ⟨ls, []⟩) = Scan.source ⟨ls, []⟩ := by
  have htrim := trim_sourceText hs
  cases ls with
  | nil => exact htrim
  | cons l ls =>
    rw [sourceText_cons] at htrim
    rwa [source_cons, hfirst l rfl, List.nil_append]

/-- Behind lexemes that stand apart and a blank, a text is scanned as it is by itself. -/
theorem toOption_tokens_scanTrimmed_of_apart (hs : Spelled ls)
    (hfirst : ∃ l ∈ ls.head?, l.gap = [])
    (ha : ∀ behind : List Char, (∀ c ∈ behind.head?, c = ' ') → Apart behind ls) {sql : String}
    {behind : List Char} (hsql : sql.toList = Scan.source ⟨ls, []⟩ ++ ' ' :: behind) :
    (scanTrimmed sql).toOption.map Scan.tokens =
      ((scan (Text.trimEnd (' ' :: behind))).toOption.map Scan.tokens).map
        (ls.map Lexeme.token ++ ·) := by
  obtain ⟨l, hl, hgap⟩ := hfirst
  obtain ⟨rest, rfl⟩ := List.head?_eq_some_iff.1 hl
  have hspelled := (hs l List.mem_cons_self).2
  have hhead : (Scan.source ⟨l :: rest, []⟩).head?.any Text.isBlank = false := by
    rw [source_cons, hgap]
    exact isBlank_append_head hspelled.ne_nil hspelled.isBlank_ends.1 _
  have hblank : ∀ c ∈ (Text.trimEnd (' ' :: behind)).head?, c = ' ' := by
    intro c hc
    obtain ⟨blanks, -, happend⟩ := Text.exists_trimEnd_append (' ' :: behind)
    obtain ⟨rest, hrest⟩ := List.head?_eq_some_iff.1 hc
    rw [hrest, List.cons_append, List.cons.injEq] at happend
    exact happend.1
  obtain ⟨here, hscan⟩ := exists_scanFrom_source hs (ha _ hblank) 0
  rw [scanTrimmed, hsql, trim_append (source_ne_nil hs (by simp)) hhead
    (isBlank_getLast_source hs), ← source_append_trailing, scan, hscan, scan,
    toOption_tokens_scanFrom 0 here]
  cases scanFrom here (Text.trimEnd (' ' :: behind)) with
  | error e => rfl
  | ok later =>
    refine congrArg some ?_
    simp [Scan.tokens]

/-! ### Excerpts of one character -/

/-- The text of lexemes is a single character if they are one token that is written as this
character and in no other way. -/
theorem trim_sourceText_eq_iff (hs : Spelled ls) {c : Char} {t : Token}
    (ht : ∀ source, t.Spells source ↔ source = [c]) :
    Text.trim (sourceText ls) = [c] ↔ ls.map Lexeme.token = [t] := by
  rw [trim_sourceText hs]
  cases ls with
  | nil => simp [sourceText]
  | cons l ls =>
    obtain ⟨⟨-, hl⟩, hs⟩ := List.forall_mem_cons.1 hs
    rw [sourceText_cons, List.map_cons, List.cons.injEq, List.map_eq_nil_iff]
    constructor
    · intro h
      rcases List.append_eq_singleton_iff.1 h with ⟨hnil, -⟩ | ⟨hsource, hrest⟩
      · exact absurd hnil hl.ne_nil
      · rw [hsource] at hl
        exact ⟨hl.unique ((ht _).2 rfl), Decidable.by_contra fun hne => source_ne_nil hs hne hrest⟩
    · rintro ⟨ht', rfl⟩
      rw [ht'] at hl
      rw [(ht _).1 hl]
      rfl

end Lexemes

theorem spells_star_iff {source : List Char} : Token.star.Spells source ↔ source = ['*'] := by
  refine ⟨fun h => ?_, ?_⟩
  · rcases h.eq_spelling_or rfl with rfl | ⟨_, hname, -⟩
    · rfl
    · cases hname
  · rintro rfl
    exact .mark (by decide)

theorem spells_one_iff {source : List Char} :
    (Token.number "1").Spells source ↔ source = ['1'] := by
  refine ⟨fun h => ?_, ?_⟩
  · rcases h.eq_spelling_or rfl with rfl | ⟨_, hname, -⟩
    · rfl
    · cases hname
  · rintro rfl
    exact .number ⟨['1'], List.cons_ne_nil _ _, List.forall_mem_singleton.2 rfl, .inl rfl⟩

/-- An excerpt is `*` or `1` exactly if it is the token that is written so. -/
theorem Scan.contains_trimmed_excerpt {s : Scan} (hs : Spelled s.lexemes) (index count : Nat) :
    ["*", "1"].contains (Text.trimmed (s.excerpt index count)) =
      [[Token.star], [.number "1"]].contains ((s.tokens.drop index).take count) := by
  have hspelled : Spelled ((s.lexemes.drop index).take count) := fun l hl =>
    hs l (List.mem_of_mem_drop (List.mem_of_mem_take hl))
  have htokens : (s.tokens.drop index).take count =
      ((s.lexemes.drop index).take count).map Lexeme.token := by
    rw [tokens, List.map_take, List.map_drop]
  have hstar := trim_sourceText_eq_iff hspelled fun _ => spells_star_iff
  have hone := trim_sourceText_eq_iff hspelled fun _ => spells_one_iff
  have htext (w : String) : Text.trimmed (s.excerpt index count) = w ↔
      Text.trim (sourceText ((s.lexemes.drop index).take count)) = w.toList := by
    rw [Text.trimmed, excerpt, String.toList_ofList, ← String.toList_inj, String.toList_ofList]
  rw [htokens, Bool.eq_iff_iff, List.contains_iff_mem, List.contains_iff_mem]
  simp only [List.mem_cons, List.not_mem_nil, or_false, htext]
  exact or_congr hstar hone

end TableSql
