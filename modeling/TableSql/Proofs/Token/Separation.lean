import TableSql.Proofs.Token.Gap

/-!
# Lexemes that stand apart

A list of lexemes may be laid out as a text. The scan of that text gives the lexemes back exactly if
they stand *apart*: no token joins the text behind it. So a statement may be taken to pieces, some
of its pieces replaced, and the result is scanned piece by piece as long as they stand apart.

## Main definitions

* `Spelled`, `EndsInGap`, `Apart` — what makes lexemes and the gap behind them a scan.
* `placed` — lexemes with the places at which they start in their text.

## Main results

* `exists_scanFrom_source`, `scanFrom_of_apart` — lexemes that stand apart are scanned one by one.
* `of_scanFrom` — the lexemes of a scan stand apart.
* `scanFrom_source_iff` — lexemes are scanned one by one exactly if they stand apart.
-/

namespace TableSql

/-- Every lexeme has a gap in front of it, and its text spells its token. -/
def Spelled (ls : List Lexeme) : Prop :=
  ∀ l ∈ ls, IsGap l.gap ∧ l.token.Spells l.source

/-- A text of blanks and comments. -/
def EndsInGap (trailing : List Char) : Prop :=
  gapLength trailing = trailing.length

theorem endsInGap_nil : EndsInGap [] := by
  rw [EndsInGap, gapLength, List.length_nil]

/-- No lexeme's token joins the text behind it. -/
def Apart (trailing : List Char) : List Lexeme → Prop
  | [] => True
  | l :: ls => l.token.joins (Scan.source ⟨ls, trailing⟩) = false ∧ Apart trailing ls

instance decidableApart (trailing : List Char) : (ls : List Lexeme) → Decidable (Apart trailing ls)
  | [] => .isTrue trivial
  | _ :: ls =>
    have := decidableApart trailing ls
    inferInstanceAs (Decidable (_ ∧ _))

/-- The lexemes with the bytes at which they start, in a text that starts at the given byte. -/
def placed : Nat → List Lexeme → List Lexeme
  | _, [] => []
  | start, l :: ls =>
    let here := start + Text.byteCount l.gap
    ⟨l.gap, l.source, l.token, here⟩ :: placed (here + Text.byteCount l.source) ls

@[simp]
theorem source_nil (trailing : List Char) : Scan.source ⟨[], trailing⟩ = trailing := rfl

@[simp]
theorem source_cons (l : Lexeme) (ls : List Lexeme) (trailing : List Char) :
    Scan.source ⟨l :: ls, trailing⟩ = l.gap ++ (l.source ++ Scan.source ⟨ls, trailing⟩) := by
  simp [Scan.source]

@[simp]
theorem source_placed (start : Nat) (ls : List Lexeme) (trailing : List Char) :
    Scan.source ⟨placed start ls, trailing⟩ = Scan.source ⟨ls, trailing⟩ := by
  induction ls generalizing start with
  | nil => rfl
  | cons l ls ih => simp [placed, ih]

@[simp]
theorem map_token_placed (start : Nat) (ls : List Lexeme) :
    (placed start ls).map Lexeme.token = ls.map Lexeme.token := by
  induction ls generalizing start with
  | nil => rfl
  | cons l ls ih => simp [placed, ih]

/-- Whether lexemes stand apart does not depend on where they start. -/
@[simp]
theorem apart_placed (start : Nat) (trailing : List Char) (ls : List Lexeme) :
    Apart trailing (placed start ls) ↔ Apart trailing ls := by
  induction ls generalizing start with
  | nil => rfl
  | cons l ls ih => simp [placed, Apart, ih]

/-- The scan of a text, with its gap and its first token taken apart. -/
theorem scanFrom_append {start : Nat} {gap source behind : List Char} {t : Token}
    (hgap : IsGap gap) (hs : t.Spells source) (hj : t.joins behind = false) :
    scanFrom start (gap ++ (source ++ behind)) =
      let here := start + Text.byteCount gap
      match scanFrom (here + Text.byteCount source) behind with
      | .ok later => .ok ⟨⟨gap, source, t, here⟩ :: later.lexemes, later.trailing⟩
      | .error e => .error e := by
  obtain ⟨hb, hc⟩ := Bool.or_eq_false_iff.1 hj
  have hlength : gapLength (gap ++ (source ++ behind)) = gap.length := by
    rw [hgap, (gapLength_spelling_eq_zero_iff hs behind).2 hc, Nat.add_zero]
  cases source with
  | nil => exact absurd rfl hs.ne_nil
  | cons c tail =>
    rw [scanFrom]
    split
    · rename_i hdrop
      rw [hlength, List.drop_left] at hdrop
      cases hdrop
    · rename_i d rest hdrop
      rw [hlength, List.drop_left, List.cons_append, List.cons.injEq] at hdrop
      obtain ⟨rfl, rfl⟩ := hdrop
      cases hlater : scanFrom (start + Text.byteCount gap + Text.byteCount (c :: tail)) behind <;>
        simp only [Token.read?_of_spells hs hb, hlength, List.take_left, List.drop_left, hlater]

/-- Lexemes that stand apart, also from the text behind them, are scanned one by one. Then the text
behind them is scanned. -/
theorem exists_scanFrom_source {ls : List Lexeme} {behind : List Char} (hs : Spelled ls)
    (ha : Apart behind ls) (start : Nat) :
    ∃ here, scanFrom start (Scan.source ⟨ls, behind⟩) =
      (scanFrom here behind).map fun later =>
        ⟨placed start ls ++ later.lexemes, later.trailing⟩ := by
  induction ls generalizing start with
  | nil =>
    refine ⟨start, ?_⟩
    rw [source_nil]
    cases scanFrom start behind <;> rfl
  | cons l ls ih =>
    obtain ⟨hl, hs⟩ := List.forall_mem_cons.1 hs
    obtain ⟨hj, ha⟩ := ha
    obtain ⟨here, hrest⟩ := ih hs ha (start + Text.byteCount l.gap + Text.byteCount l.source)
    refine ⟨here, ?_⟩
    rw [source_cons, scanFrom_append hl.1 hl.2 hj]
    simp only [hrest]
    cases scanFrom here behind <;> rfl

/-- A text of blanks and comments has no lexemes. -/
theorem scanFrom_of_endsInGap {trailing : List Char} (ht : EndsInGap trailing) (start : Nat) :
    scanFrom start trailing = .ok ⟨[], trailing⟩ := by
  rw [scanFrom]
  split
  · rw [ht, List.take_length]
  · rename_i c rest hdrop
    rw [ht, List.drop_length] at hdrop
    cases hdrop

/-- Lexemes that stand apart are scanned one by one. -/
theorem scanFrom_of_apart {ls : List Lexeme} {trailing : List Char} (hs : Spelled ls)
    (ht : EndsInGap trailing) (ha : Apart trailing ls) (start : Nat) :
    scanFrom start (Scan.source ⟨ls, trailing⟩) = .ok ⟨placed start ls, trailing⟩ := by
  obtain ⟨here, hscan⟩ := exists_scanFrom_source hs ha start
  rw [hscan, scanFrom_of_endsInGap ht, Except.map, List.append_nil]

/-- The lexemes of a scan are spelled, end in a gap and stand apart, and are placed where they
start. -/
theorem of_scanFrom {start : Nat} {cs : List Char} {s : Scan} (h : scanFrom start cs = .ok s) :
    Spelled s.lexemes ∧ EndsInGap s.trailing ∧ Apart s.trailing s.lexemes ∧
      s.lexemes = placed start s.lexemes := by
  fun_induction scanFrom start cs generalizing s with
  | case1 =>
    rename_i cs gap hdrop
    cases h
    refine ⟨by simp [Spelled], ?_, trivial, rfl⟩
    have hall : cs.take (gapLength cs) = cs := by
      have := List.take_append_drop (gapLength cs) cs
      rwa [hdrop, List.append_nil] at this
    have hle : cs.length ≤ gapLength cs := List.drop_eq_nil_iff.1 hdrop
    obtain ⟨gap, behind, hsplit, hlength, -⟩ := exists_gap cs
    have := congrArg List.length hsplit
    rw [List.length_append] at this
    show gapLength (cs.take (gapLength cs)) = (cs.take (gapLength cs)).length
    rw [hall]
    omega
  | case2 => cases h
  | case3 =>
    rename_i cs gap c rest hdrop here t n hread source later hlater ih
    cases h
    obtain ⟨hs, ht, ha, hplaced⟩ := ih hlater
    have hsource := source_scanFrom hlater
    obtain ⟨gap', behind, hsplit, hlength, hgap⟩ := exists_gap cs
    have hbehind : behind = c :: rest := by
      rw [hlength, hsplit, List.drop_left] at hdrop
      exact hdrop
    have hgap' : gap = gap' := by
      show cs.take (gapLength cs) = gap'
      rw [hlength, hsplit, List.take_left]
    subst hbehind hgap'
    obtain ⟨hisGap, hzero⟩ := hgap (List.cons_ne_nil _ _)
    obtain ⟨tail, behind, rfl, rfl, hspells, hext⟩ := Token.spells_of_read? hread
    have hsource' : source = c :: tail := by simp [source]
    have hrest : Scan.source ⟨later.lexemes, later.trailing⟩ = behind := by
      simpa using hsource
    have hjoins : t.joins behind = false := by
      rw [Token.joins, hext, Bool.false_or, ← gapLength_spelling_eq_zero_iff hspells]
      exact hzero
    refine ⟨List.forall_mem_cons.2 ⟨⟨hisGap, hsource' ▸ hspells⟩, hs⟩, ht, ⟨?_, ha⟩, ?_⟩
    · rw [hrest]
      exact hjoins
    · rw [placed, ← hplaced]
  | case4 => cases h

/-- The tokens of a text do not depend on where it starts. -/
theorem toOption_tokens_scanFrom (start here : Nat) (cs : List Char) :
    (scanFrom start cs).toOption.map Scan.tokens = (scanFrom here cs).toOption.map Scan.tokens := by
  have hmoved {start : Nat} {s : Scan} (h : scanFrom start cs = .ok s) (here : Nat) :
      scanFrom here cs = .ok ⟨placed here s.lexemes, s.trailing⟩ := by
    obtain ⟨hs, ht, ha, -⟩ := of_scanFrom h
    rw [← source_scanFrom h]
    exact scanFrom_of_apart hs ht ha here
  cases h : scanFrom start cs with
  | ok s =>
    rw [hmoved h here]
    exact congrArg some (map_token_placed here s.lexemes).symm
  | error e =>
    cases h' : scanFrom here cs with
    | ok s =>
      rw [hmoved h' start] at h
      cases h
    | error e' => rfl

/-- Lexemes are scanned one by one exactly if they stand apart. -/
theorem scanFrom_source_iff {ls : List Lexeme} {trailing : List Char} (hs : Spelled ls)
    (ht : EndsInGap trailing) (start : Nat) :
    scanFrom start (Scan.source ⟨ls, trailing⟩) = .ok ⟨placed start ls, trailing⟩ ↔
      Apart trailing ls := by
  refine ⟨fun h => ?_, fun ha => scanFrom_of_apart hs ht ha start⟩
  have ha := (of_scanFrom h).2.2.1
  exact (apart_placed start trailing ls).1 ha

end TableSql
