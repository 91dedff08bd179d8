import TableSql.Proofs.Statement.Readers
import TableSql.Proofs.Token.Trimming

/-!
# Printed tokens

Statements are printed from tokens of a few kinds: keywords in upper case, names between double
quotes, the marker `?`, counts and some marks. One blank stands between two tokens, but none behind
an opening parenthesis and none in front of a comma or a closing one. Such tokens stand apart, and
the text neither begins nor ends with a blank, so it is scanned to the tokens it was printed from.

## Main definitions

* `IsName` — the names that can be printed between double quotes.
* `IsWord` — the texts of bare words.
* `Token.Neat` — tokens that can be laid out.
* `Token.Printed` — the tokens that are printed.
* `laidOut`, `printTokens` — the layout of tokens, and its text.

## Main results

* `toOption_tokens_scanTrimmed_append` — what is scanned behind printed tokens.
* `exists_scan_printTokens_of_neat` — tokens that are laid out are scanned back.
* `exists_scan_printTokens` — so are printed tokens.
-/

namespace TableSql

/-- A name that can stand between double quotes. -/
def IsName (w : String) : Prop :=
  w ≠ "" ∧ '"' ∉ w.toList

instance : DecidablePred IsName :=
  fun w => inferInstanceAs (Decidable (w ≠ "" ∧ '"' ∉ w.toList))

/-- A text of letters, digits and underscores that does not begin with a digit. -/
def IsWord (w : String) : Prop :=
  w.toList.head?.any Token.beginsWord = true ∧ w.toList.tail.all Token.continuesWord = true

instance : DecidablePred IsWord :=
  fun w => inferInstanceAs (Decidable (w.toList.head?.any Token.beginsWord = true ∧
    w.toList.tail.all Token.continuesWord = true))

/-- The token of a keyword in upper case. -/
def Keyword.token (k : Keyword) : Token :=
  .word k.spelling

namespace Token

/-- Tokens that can be laid out: they are spelled as they are printed, and end in front of a blank,
a comma or a closing parenthesis. -/
structure Neat (t : Token) : Prop where
  spells : t.Spells t.spelling
  joins_eq_false : ∀ {behind : List Char},
    (∀ c ∈ behind.head?, c = ' ' ∨ c = ',' ∨ c = ')') → t.joins behind = false

/-- The tokens of printed statements. -/
inductive Printed : Token → Prop
  | keyword (k : Keyword) : Printed k.token
  | name {w : String} (h : IsName w) : Printed (quotedName w)
  | next : Printed (marker .next)
  | count (n : Nat) : Printed (number (Decimal.text n))
  | openParen : Printed openParen
  | closeParen : Printed closeParen
  | comma : Printed comma
  | equals : Printed equals
  | star : Printed star

end Token

/-- The blank between two tokens, where one stands. -/
def gapBefore (previous : Option Token) (t : Token) : List Char :=
  if previous = none ∨ previous = some .openParen ∨ t = .comma ∨ t = .closeParen then [] else [' ']

/-- The lexemes of tokens that are laid out behind another one. -/
def laidOut : Option Token → List Token → List Lexeme
  | _, [] => []
  | previous, t :: ts => ⟨gapBefore previous t, t.spelling, t, 0⟩ :: laidOut (some t) ts

/-- The text of tokens. -/
def printTokens (ts : List Token) : String :=
  String.ofList (Scan.source ⟨laidOut none ts, []⟩)

/-! ### Keywords and spellings -/

@[simp]
theorem ofWord?_spelling (k : Keyword) : Keyword.ofWord? k.spelling = some k := by
  cases k <;> decide

@[simp]
theorem isKeyword_token (k k' : Keyword) : k.token.isKeyword k' = decide (k = k') := by
  simp [Token.isKeyword, Keyword.token, Token.keyword?]

theorem Keyword.isWord_spelling (k : Keyword) : IsWord k.spelling := by
  cases k <;> decide

theorem IsName.toList_ne_nil {w : String} (h : IsName w) : w.toList ≠ [] := by
  intro hnil
  exact h.1 (String.toList_eq_nil_iff.1 hnil)

namespace Token

/-- What begins with a blank, a comma or a closing parenthesis does not begin with a character of a
class without these. -/
theorem any_head?_eq_false {behind : List Char}
    (hb : ∀ c ∈ behind.head?, c = ' ' ∨ c = ',' ∨ c = ')') (p : Char → Bool)
    (hp : [' ', ',', ')'].any p = false) : behind.head?.any p = false := by
  cases behind with
  | nil => rfl
  | cons c cs =>
    have hc := hb c rfl
    exact Bool.eq_false_iff.2 (List.any_eq_false.1 hp c (by simpa using hc))

theorem neat_word {w : String} (h : IsWord w) : (word w).Neat where
  spells := by
    obtain ⟨hhead, htail⟩ := h
    cases hw : w.toList with
    | nil => simp [hw] at hhead
    | cons c tail =>
      rw [hw] at hhead htail
      have hspells : (word (String.ofList (c :: tail))).Spells (c :: tail) :=
        .word hhead (List.all_eq_true.1 htail)
      rwa [← hw, String.ofList_toList] at hspells
  joins_eq_false hb := by
    have hword := any_head?_eq_false hb continuesWord (by decide)
    simpa only [joins, extendedBy, beginsComment, Bool.or_false] using hword

theorem neat_number {s : String} (h : IsNumeral s.toList) : (number s).Neat where
  spells := by
    have hspells := Spells.number h
    rwa [String.ofList_toList] at hspells
  joins_eq_false {behind} hb := by
    have hdigit := any_head?_eq_false hb Char.isDigit (by decide)
    have hpoint := any_head?_eq_false hb (· == '.') (by decide)
    cases behind with
    | nil => rfl
    | cons c cs =>
      simp only [List.head?_cons, Option.any_some] at hdigit hpoint
      simp [joins, extendedBy, beginsComment, extendsNumeral, hdigit, hpoint]

theorem neat_quotedName {w : String} (h : IsName w) : (quotedName w).Neat where
  spells := by
    have hspells := Spells.quotedName (.inl rfl) h.toList_ne_nil fun c hc heq => h.2 (heq ▸ hc)
    rwa [String.ofList_toList] at hspells
  joins_eq_false _ := rfl

theorem neat_next : (marker .next).Neat where
  spells := .next
  joins_eq_false hb := by
    have hdigit := any_head?_eq_false hb Char.isDigit (by decide)
    simpa only [joins, extendedBy, beginsComment, Bool.or_false] using hdigit

/-- Printed tokens can be laid out. -/
theorem Printed.neat {t : Token} (h : t.Printed) : t.Neat := by
  cases h with
  | keyword k => exact neat_word k.isWord_spelling
  | name hw => exact neat_quotedName hw
  | next => exact neat_next
  | count n =>
    refine neat_number ?_
    rw [Decimal.text, String.toList_ofList]
    exact isNumeral_digits n
  | _ => exact ⟨.mark (by decide), fun _ => rfl⟩

end Token

/-! ### Layout -/

@[simp]
theorem map_token_laidOut (previous : Option Token) (ts : List Token) :
    (laidOut previous ts).map Lexeme.token = ts := by
  induction ts generalizing previous with
  | nil => rfl
  | cons t ts ih => simp [laidOut, ih]

theorem isGap_gapBefore (previous : Option Token) (t : Token) : IsGap (gapBefore previous t) := by
  unfold gapBefore
  split
  · exact isGap_nil
  · exact isGap_cons_of_isLineBlank rfl isGap_nil

theorem spelled_laidOut {ts : List Token} (h : ∀ t ∈ ts, t.Neat) (previous : Option Token) :
    Spelled (laidOut previous ts) := by
  induction ts generalizing previous with
  | nil => simp [laidOut, Spelled]
  | cons t ts ih =>
    obtain ⟨ht, hts⟩ := List.forall_mem_cons.1 h
    exact List.forall_mem_cons.2 ⟨⟨isGap_gapBefore previous t, ht.spells⟩, ih hts (some t)⟩

/-- Tokens that are laid out stand apart, and they do not join a text that begins with a blank, a
comma or a closing parenthesis. -/
theorem apart_laidOut {ts : List Token} (h : ∀ t ∈ ts, t.Neat) (previous : Option Token)
    {behind : List Char} (hb : ∀ c ∈ behind.head?, c = ' ' ∨ c = ',' ∨ c = ')') :
    Apart behind (laidOut previous ts) := by
  induction ts generalizing previous with
  | nil => trivial
  | cons t ts ih =>
    obtain ⟨ht, hts⟩ := List.forall_mem_cons.1 h
    refine ⟨?_, ih hts (some t)⟩
    by_cases ho : t = .openParen
    · subst ho
      rfl
    refine ht.joins_eq_false ?_
    cases ts with
    | nil => exact hb
    | cons u ts =>
      rw [laidOut, source_cons]
      by_cases hgap : u = .comma ∨ u = .closeParen
      · rw [gapBefore, if_pos (.inr (.inr hgap))]
        rcases hgap with rfl | rfl <;> simp [Token.spelling]
      · rw [gapBefore, if_neg (by simp [ho, hgap])]
        simp

/-! ### Scanning -/

theorem gap_of_mem_head?_laidOut {ts : List Token} {l : Lexeme}
    (hl : l ∈ (laidOut none ts).head?) : l.gap = [] := by
  cases ts with
  | nil => cases hl
  | cons t ts =>
    cases hl
    show gapBefore none t = []
    rw [gapBefore, if_pos (.inl rfl)]

/-- Behind printed tokens and a blank, a text is scanned as it is by itself. -/
theorem toOption_tokens_scanTrimmed_append {ts : List Token} (h : ∀ t ∈ ts, t.Printed)
    (hne : ts ≠ []) (w : String) :
    (scanTrimmed (printTokens ts ++ " " ++ w)).toOption.map Scan.tokens =
      ((scan (Text.trimEnd (' ' :: w.toList))).toOption.map Scan.tokens).map (ts ++ ·) := by
  have hneat : ∀ t ∈ ts, t.Neat := fun t ht => (h t ht).neat
  have htext : (printTokens ts ++ " " ++ w).toList =
      Scan.source ⟨laidOut none ts, []⟩ ++ ' ' :: w.toList := by simp [printTokens]
  have hfirst : ∃ l ∈ (laidOut none ts).head?, l.gap = [] := by
    obtain ⟨t, ts, rfl⟩ := List.exists_cons_of_ne_nil hne
    exact ⟨_, rfl, @gap_of_mem_head?_laidOut (t :: ts) _ rfl⟩
  have hscan := toOption_tokens_scanTrimmed_of_apart (spelled_laidOut hneat none) hfirst
    (fun behind hb => apart_laidOut hneat none fun c hc => .inl (hb c hc)) htext
  rwa [map_token_laidOut] at hscan

/-- Tokens that are laid out are scanned back. -/
theorem exists_scan_printTokens_of_neat {ts : List Token} (h : ∀ t ∈ ts, t.Neat) :
    ∃ s, scanTrimmed (printTokens ts) = .ok s ∧ s.tokens = ts := by
  refine ⟨⟨placed 0 (laidOut none ts), []⟩, ?_, ?_⟩
  · rw [scanTrimmed, printTokens, String.toList_ofList,
      trim_source (spelled_laidOut h none) fun _ => gap_of_mem_head?_laidOut]
    exact scanFrom_of_apart (spelled_laidOut h none) endsInGap_nil
      (apart_laidOut h none (by simp)) 0
  · rw [Scan.tokens, map_token_placed, map_token_laidOut]

/-- Printed tokens are scanned back. -/
theorem exists_scan_printTokens {ts : List Token} (h : ∀ t ∈ ts, t.Printed) :
    ∃ s, scanTrimmed (printTokens ts) = .ok s ∧ s.tokens = ts :=
  exists_scan_printTokens_of_neat fun t ht => (h t ht).neat

end TableSql
