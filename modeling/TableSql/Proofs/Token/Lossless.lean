import Mathlib.Data.List.Infix
import TableSql.Proofs.Steps
import TableSql.Proofs.Token.Separation

/-!
# Scans lose nothing

The places of lexemes are bytes of the text that was scanned. They always cut the text between two
characters, and they cut out of it what the lexemes were read from, one behind the other. What is
left over between them is blanks and complete comments. Since no token is extended by the end of the
text or by a blank, the text of a lexeme is scanned to its token when it stands alone, and the texts
of all lexemes are scanned to their tokens when single blanks stand between them.

## Main definitions

* `Text.StandsAt` — the piece of a text between two bytes.
* `Text.IsFiller` — blanks and complete comments, said without a reader.
* `Scan.fillers` — the stretches that the lexemes of a scan leave over.
* `Scan.spaced` — the lexemes of a scan with single blanks between them.
* `Scan.Lossless` — what the places and the texts of lexemes tell about the text that was scanned.

## Main results

* `Text.isFiller_gap` — the gap at the front of a text is blanks and complete comments.
* `Scan.standsAt_of_lexemes` — the text of consecutive lexemes is a piece of the text.
* `scan_lossless` — every scan is lossless.
-/

namespace TableSql

/-! ### Pieces of a text -/

namespace Text

@[simp]
theorem byteCount_nil : byteCount [] = 0 := rfl

@[simp]
theorem byteCount_append (cs ds : List Char) :
    byteCount (cs ++ ds) = byteCount cs + byteCount ds := by
  have hfold (n : Nat) (cs : List Char) :
      cs.foldl (fun n c => n + c.utf8Size) n = n + byteCount cs := by
    induction cs generalizing n with
    | nil => rfl
    | cons c cs ih =>
      rw [byteCount, List.foldl_cons, List.foldl_cons, ih, ih (0 + c.utf8Size), Nat.zero_add,
        Nat.add_assoc]
  rw [byteCount, List.foldl_append, hfold]
  rfl

theorem byteCount_pos {cs : List Char} (h : cs ≠ []) : 0 < byteCount cs := by
  obtain ⟨c, cs, rfl⟩ := List.exists_cons_of_ne_nil h
  rw [← List.singleton_append, byteCount_append]
  exact Nat.add_pos_left (Nat.lt_of_lt_of_eq c.utf8Size_pos (Nat.zero_add _).symm) _

/-- The piece stands in the text between the two bytes, and `behind` stands behind it. Both bytes
are places between characters. -/
def StandsAt (cs : List Char) (start stop : Nat) (piece behind : List Char) : Prop :=
  ∃ before, cs = before ++ (piece ++ behind) ∧ start = byteCount before ∧
    stop = start + byteCount piece

/-! ### Blanks and comments -/

/-- The text is made of blanks and complete comments. A comment from `--` on lasts to the end of its
line, and that is the end of the text at the latest; one from `/*` on lasts to the first `*/`. The
text `behind` is the one that follows. -/
inductive IsFiller (behind : List Char) : List Char → Prop
  | nil : IsFiller behind []
  | blank {c : Char} {cs : List Char} (hc : isLineBlank c = true) (h : IsFiller behind cs) :
      IsFiller behind (c :: cs)
  | line {body cs : List Char} (hbody : ∀ c ∈ body, c ≠ '\n' ∧ c ≠ '\r')
      (hend : EndsLine (cs ++ behind)) (h : IsFiller behind cs) :
      IsFiller behind ('-' :: '-' :: (body ++ cs))
  | block {body cs : List Char} (hbody : ¬['*', '/'] <:+: body) (h : IsFiller behind cs) :
      IsFiller behind ('/' :: '*' :: (body ++ '*' :: '/' :: cs))

/-- A block comment ends with its first `*/`. -/
theorem exists_block_body {cs : List Char} {n : Nat} (h : blockCommentLength? cs = some n) :
    ∃ body behind, cs = body ++ '*' :: '/' :: behind ∧ n = body.length + 2 ∧
      ¬['*', '/'] <:+: body := by
  fun_induction blockCommentLength? cs generalizing n with
  | case1 => cases h
  | case2 cs =>
    cases h
    exact ⟨[], cs, rfl, rfl, by simp⟩
  | case3 c cs hne ih =>
    obtain ⟨m, hm, rfl⟩ := Option.map_eq_some_iff.1 h
    obtain ⟨body, behind, rfl, rfl, hbody⟩ := ih hm
    refine ⟨c :: body, behind, rfl, rfl, fun hinfix => ?_⟩
    rcases List.infix_cons_iff.1 hinfix with ⟨rest, hrest⟩ | hinfix
    · obtain ⟨rfl, rfl⟩ := List.cons.inj hrest
      exact hne (rest ++ '*' :: '/' :: behind) rfl rfl
    · exact hbody hinfix

/-- The gap at the front of a text is made of blanks and complete comments. -/
theorem isFiller_gap (cs : List Char) :
    IsFiller (cs.drop (gapLength cs)) (cs.take (gapLength cs)) := by
  fun_induction gapLength cs with
  | case1 => exact .nil
  | case2 c cs hc ih =>
    rw [Nat.add_comm, List.take_succ_cons, List.drop_succ_cons]
    exact .blank hc ih
  | case3 c cs hc n hcomment ih =>
    have hsplit (body rest : List Char) (hcs : cs = body ++ rest) (hn : n = body.length) :
        (c :: cs).take (1 + n + gapLength (cs.drop n)) =
            c :: (body ++ rest.take (gapLength rest)) ∧
          (c :: cs).drop (1 + n + gapLength (cs.drop n)) = rest.drop (gapLength rest) ∧
          cs.drop n = rest := by
      subst hcs hn
      have hlength : 1 + body.length + gapLength rest = body.length + gapLength rest + 1 := by omega
      rw [List.drop_left, hlength, List.take_succ_cons, List.drop_succ_cons,
        List.take_length_add_append, List.drop_length_add_append]
      exact ⟨rfl, rfl, rfl⟩
    unfold commentLength? at hcomment
    split at hcomment
    · obtain ⟨m, hm, rfl⟩ := Option.map_eq_some_iff.1 hcomment
      obtain ⟨line, rest, rfl, rfl, hline, hend⟩ := exists_line hm
      obtain ⟨htake, hdrop, hrest⟩ := hsplit ('-' :: line) rest rfl rfl
      rw [htake, hdrop]
      rw [hrest] at ih
      refine .line (by simpa using hline) ?_ ih
      rwa [List.take_append_drop]
    · obtain ⟨m, hm, rfl⟩ := Option.map_eq_some_iff.1 hcomment
      obtain ⟨body, rest, rfl, rfl, hbody⟩ := exists_block_body hm
      obtain ⟨htake, hdrop, hrest⟩ :=
        hsplit ('*' :: (body ++ ['*', '/'])) rest (by simp) (by simp)
      rw [htake, hdrop]
      rw [hrest] at ih
      simpa using IsFiller.block hbody ih
    · cases hcomment
  | case4 => exact .nil

end Text

/-! ### Tokens at the end of a text and in front of a blank -/

/-- No comment goes on with a blank or with the end of the text. -/
theorem commentLength?_of_head? {behind : List Char} (h : ∀ c ∈ behind.head?, c = ' ') (c : Char) :
    commentLength? c behind = none := by
  cases behind with
  | nil =>
    unfold commentLength?
    split <;> simp_all
  | cons d cs =>
    obtain rfl := h d rfl
    unfold commentLength?
    split <;> simp_all

/-- The end of the text or a blank extends no token and makes no comment of it. -/
theorem Token.joins_of_head? {behind : List Char} (h : ∀ c ∈ behind.head?, c = ' ') (t : Token) :
    t.joins behind = false := by
  have hcomment : t.beginsComment behind = false := by
    cases t with
    | operator s =>
      unfold beginsComment
      dsimp only
      split
      · rw [commentLength?_of_head? h]
        rfl
      · rfl
    | _ => rfl
  rw [joins, hcomment, Bool.or_false]
  cases behind with
  | nil => cases t <;> simp [extendedBy, extendsNumeral]
  | cons c cs =>
    obtain rfl := h c rfl
    cases t with
    | operator s =>
      unfold extendedBy
      dsimp only
      split
      · simp_all [longOperators]
      · rfl
    | _ => simp [extendedBy, extendsNumeral, continuesWord]

/-! ### Lossless scans -/

namespace Scan

/-- The stretches of a text between the bytes that the lexemes leave over: in front of the first
one, between each of them and the next one, and behind the last one. -/
def fillers (s : Scan) (cs : List Char) : List (Nat × Nat) :=
  (0 :: s.lexemes.map Lexeme.stop).zip (s.lexemes.map Lexeme.start ++ [Text.byteCount cs])

/-- The texts of the lexemes with single blanks between them. -/
def spaced (s : Scan) : List Char :=
  [' '].intercalate (s.lexemes.map Lexeme.source)

/-- What the lexemes of a scan tell about the text that was scanned. -/
structure Lossless (cs : List Char) (s : Scan) : Prop where
  /-- A lexeme is a piece of the text, and not an empty one. -/
  slice : ∀ l ∈ s.lexemes, l.start < l.stop ∧
    ∃ behind, Text.StandsAt cs l.start l.stop l.source behind
  /-- The lexemes stand one behind the other. -/
  order : s.lexemes.Pairwise fun l l' => l.stop ≤ l'.start
  /-- What they leave over is made of blanks and complete comments. -/
  filler : ∀ gap ∈ s.fillers cs, ∃ piece behind,
    Text.StandsAt cs gap.1 gap.2 piece behind ∧ Text.IsFiller behind piece
  /-- The text of a lexeme is scanned to its token, which takes all of it. -/
  alone : ∀ l ∈ s.lexemes, scan l.source = .ok ⟨[⟨[], l.source, l.token, 0⟩], []⟩
  /-- With single blanks between them the texts of all lexemes are scanned to their tokens. -/
  respaced : (scan s.spaced).map tokens = .ok s.tokens

end Scan

section Places

variable {cs before trailing : List Char} {ls : List Lexeme}

/-- The first of the lexemes behind a text, and the others behind the text with it. -/
theorem placed_byteCount_cons (before : List Char) (l : Lexeme) (ls : List Lexeme) :
    placed (Text.byteCount before) (l :: ls) =
      ⟨l.gap, l.source, l.token, Text.byteCount (before ++ l.gap)⟩ ::
        placed (Text.byteCount (before ++ l.gap ++ l.source)) ls := by
  simp [placed, Nat.add_assoc]

/-- Lexemes that are placed behind a text stand behind it. -/
theorem standsAt_of_mem_placed (hs : Spelled ls)
    (hcs : cs = before ++ Scan.source ⟨ls, trailing⟩) {l : Lexeme}
    (hl : l ∈ placed (Text.byteCount before) ls) :
    Text.byteCount before ≤ l.start ∧ l.start < l.stop ∧
      ∃ behind, Text.StandsAt cs l.start l.stop l.source behind := by
  induction ls generalizing before with
  | nil => cases hl
  | cons m ls ih =>
    obtain ⟨hm, hs⟩ := List.forall_mem_cons.1 hs
    rw [source_cons] at hcs
    rw [placed_byteCount_cons] at hl
    rcases List.mem_cons.1 hl with rfl | hl
    · refine ⟨by simp, Nat.lt_add_of_pos_right (Text.byteCount_pos hm.2.ne_nil),
        Scan.source ⟨ls, trailing⟩, before ++ m.gap, by simp [hcs], rfl, rfl⟩
    · obtain ⟨hstart, hslice⟩ := ih hs (by simp [hcs]) hl
      simp only [Text.byteCount_append] at hstart
      exact ⟨by omega, hslice⟩

/-- They stand one behind the other. -/
theorem pairwise_placed (hs : Spelled ls) (before : List Char) :
    (placed (Text.byteCount before) ls).Pairwise fun l l' => l.stop ≤ l'.start := by
  induction ls generalizing before with
  | nil => exact .nil
  | cons m ls ih =>
    obtain ⟨-, hs⟩ := List.forall_mem_cons.1 hs
    rw [placed_byteCount_cons]
    refine List.pairwise_cons.2 ⟨fun l hl => ?_, ih hs _⟩
    have hcs : before ++ m.gap ++ m.source ++ Scan.source ⟨ls, []⟩ = _ := rfl
    obtain ⟨hstart, -⟩ := standsAt_of_mem_placed hs hcs hl
    rwa [Text.byteCount_append] at hstart

/-- What they leave over are their gaps and the gap behind the last one. -/
theorem standsAt_filler (hs : Spelled ls) (ht : EndsInGap trailing) (ha : Apart trailing ls)
    (hcs : cs = before ++ Scan.source ⟨ls, trailing⟩) {gap : Nat × Nat}
    (hgap : gap ∈ (Text.byteCount before :: (placed (Text.byteCount before) ls).map Lexeme.stop).zip
      ((placed (Text.byteCount before) ls).map Lexeme.start ++ [Text.byteCount cs])) :
    ∃ piece behind, Text.StandsAt cs gap.1 gap.2 piece behind ∧ Text.IsFiller behind piece := by
  induction ls generalizing before with
  | nil =>
    obtain rfl : gap = (Text.byteCount before, Text.byteCount cs) := by
      simpa [placed] using hgap
    have hfiller := Text.isFiller_gap trailing
    rw [ht, List.take_length, List.drop_length] at hfiller
    exact ⟨trailing, [], ⟨before, by simpa using hcs, rfl, by simp [hcs]⟩, hfiller⟩
  | cons m ls ih =>
    obtain ⟨hm, hs⟩ := List.forall_mem_cons.1 hs
    obtain ⟨hj, ha⟩ := ha
    rw [source_cons] at hcs
    rw [placed_byteCount_cons, List.map_cons, List.map_cons, List.cons_append,
      List.zip_cons_cons] at hgap
    rcases List.mem_cons.1 hgap with rfl | hgap
    · have hfiller := Text.isFiller_gap (m.gap ++ (m.source ++ Scan.source ⟨ls, trailing⟩))
      have hzero := (gapLength_spelling_eq_zero_iff hm.2 _).2 (Bool.or_eq_false_iff.1 hj).2
      rw [hm.1, hzero, Nat.add_zero, List.take_left, List.drop_left] at hfiller
      exact ⟨m.gap, _, ⟨before, hcs, rfl, by simp⟩, hfiller⟩
    · have hcs : cs = before ++ m.gap ++ m.source ++ Scan.source ⟨ls, trailing⟩ := by simp [hcs]
      refine ih hs ha hcs ?_
      rwa [Text.byteCount_append (before ++ m.gap)] at hgap ⊢

end Places

/-! ### Consecutive lexemes -/

theorem stop_of_mem_getLast?_placed {start : Nat} {ls : List Lexeme} {last : Lexeme}
    (h : last ∈ (placed start ls).getLast?) :
    last.stop = start + Text.byteCount (ls.flatMap fun l => l.gap ++ l.source) := by
  induction ls generalizing start with
  | nil => cases h
  | cons m ls ih =>
    cases ls with
    | nil =>
      cases h
      simp [placed, Lexeme.stop, Nat.add_assoc]
    | cons m' ls =>
      have hlast : last ∈ (placed (start + Text.byteCount m.gap + Text.byteCount m.source)
        (m' :: ls)).getLast? := h
      rw [ih hlast]
      simp [Nat.add_assoc]

/-- Consecutive lexemes that are placed behind a text stand behind it as they were written. -/
theorem standsAt_sourceText (before behind : List Char) {ls : List Lexeme} {first last : Lexeme}
    (hfirst : first ∈ (placed (Text.byteCount before) ls).head?)
    (hlast : last ∈ (placed (Text.byteCount before) ls).getLast?) :
    Text.StandsAt (before ++ (ls.flatMap (fun l => l.gap ++ l.source) ++ behind)) first.start
      last.stop (sourceText ls) behind := by
  cases ls with
  | nil => cases hfirst
  | cons m ls =>
    cases hfirst
    have hstop := stop_of_mem_getLast?_placed hlast
    refine ⟨before ++ m.gap, by simp [sourceText], by simp, ?_⟩
    simp [hstop, sourceText, Nat.add_assoc]

theorem placed_append (start : Nat) (ls ms : List Lexeme) :
    placed start (ls ++ ms) = placed start ls ++
      placed (start + Text.byteCount (ls.flatMap fun l => l.gap ++ l.source)) ms := by
  induction ls generalizing start with
  | nil => rfl
  | cons l ls ih =>
    rw [List.cons_append, placed, placed, ih]
    simp [Nat.add_assoc]

theorem length_placed (start : Nat) (ls : List Lexeme) : (placed start ls).length = ls.length := by
  induction ls generalizing start with
  | nil => rfl
  | cons l ls ih => simp [placed, ih]

/-- The text of consecutive lexemes is a piece of the text that was scanned, from the first byte of
the first one to the last byte of the last one. -/
theorem Scan.standsAt_of_lexemes {cs : List Char} {s : Scan} (h : scan cs = .ok s)
    {front part back : List Lexeme} (hsplit : s.lexemes = front ++ (part ++ back))
    {first last : Lexeme} (hfirst : first ∈ part.head?) (hlast : last ∈ part.getLast?) :
    ∃ behind, Text.StandsAt cs first.start last.stop (sourceText part) behind := by
  obtain ⟨-, -, -, hplaced⟩ := of_scanFrom h
  rw [hsplit, placed_append, placed_append] at hplaced
  obtain ⟨-, hplaced⟩ := List.append_inj hplaced (length_placed _ _).symm
  obtain ⟨hplaced, -⟩ := List.append_inj hplaced (length_placed _ _).symm
  rw [Nat.zero_add] at hplaced
  have hstands := standsAt_sourceText (front.flatMap fun l => l.gap ++ l.source)
    (back.flatMap (fun l => l.gap ++ l.source) ++ s.trailing) (hplaced ▸ hfirst) (hplaced ▸ hlast)
  have hsource : front.flatMap (fun l => l.gap ++ l.source) ++
      (part.flatMap (fun l => l.gap ++ l.source) ++
        (back.flatMap (fun l => l.gap ++ l.source) ++ s.trailing)) = cs := by
    rw [← source_scanFrom h, Scan.source, hsplit]
    simp
  exact ⟨_, hsource ▸ hstands⟩

/-! ### Lexemes laid out anew -/

/-- The text of a lexeme is scanned to its token, which takes all of it. -/
theorem scan_of_spells {t : Token} {source : List Char} (h : t.Spells source) :
    scan source = .ok ⟨[⟨[], source, t, 0⟩], []⟩ := by
  have hspelled : Spelled [⟨[], source, t, 0⟩] := by
    simpa [Spelled] using ⟨isGap_nil, h⟩
  have hapart : Apart [] [⟨[], source, t, 0⟩] := ⟨t.joins_of_head? (by simp), trivial⟩
  have hscan := scanFrom_of_apart hspelled endsInGap_nil hapart 0
  rw [source_cons, source_nil, List.nil_append, List.append_nil] at hscan
  exact hscan

/-- The lexemes with another gap in front of each. -/
def regapped (gap : List Char) (ls : List Lexeme) : List Lexeme :=
  ls.map fun l => { l with gap := gap }

section Regapped

variable {gap : List Char} {ls : List Lexeme}

@[simp]
theorem regapped_nil (gap : List Char) : regapped gap [] = [] := rfl

@[simp]
theorem regapped_cons (gap : List Char) (l : Lexeme) (ls : List Lexeme) :
    regapped gap (l :: ls) = { l with gap := gap } :: regapped gap ls := rfl

@[simp]
theorem map_token_regapped (gap : List Char) (ls : List Lexeme) :
    (regapped gap ls).map Lexeme.token = ls.map Lexeme.token := by
  simp [regapped, Function.comp_def]

theorem spelled_regapped (hgap : IsGap gap) (hs : Spelled ls) : Spelled (regapped gap ls) := by
  rw [Spelled, regapped, List.forall_mem_map]
  exact fun l hl => ⟨hgap, (hs l hl).2⟩

theorem head?_source_regapped_blank (ls : List Lexeme) :
    ∀ c ∈ (Scan.source ⟨regapped [' '] ls, []⟩).head?, c = ' ' := by
  cases ls with
  | nil => simp
  | cons l ls => simp

/-- Behind a blank for each of them, lexemes stand apart. -/
theorem apart_regapped_blank (ls : List Lexeme) : Apart [] (regapped [' '] ls) := by
  induction ls with
  | nil => trivial
  | cons l ls ih => exact ⟨Token.joins_of_head? (head?_source_regapped_blank ls) _, ih⟩

/-- A blank for each lexeme but the first one makes the text of them with blanks between them. -/
theorem source_regapped_blank (l : Lexeme) (ls : List Lexeme) :
    l.source ++ Scan.source ⟨regapped [' '] ls, []⟩ =
      [' '].intercalate ((l :: ls).map Lexeme.source) := by
  induction ls generalizing l with
  | nil => simp
  | cons m ls ih =>
    rw [List.map_cons, List.map_cons, List.intercalate_cons_cons, ← List.map_cons, ← ih]
    simp

end Regapped

/-- With single blanks between them the texts of lexemes are scanned to their tokens. -/
theorem map_tokens_scan_intercalate {ls : List Lexeme} (hs : Spelled ls) :
    (scan ([' '].intercalate (ls.map Lexeme.source))).map Scan.tokens =
      .ok (ls.map Lexeme.token) := by
  cases ls with
  | nil =>
    have hscan := scanFrom_of_endsInGap endsInGap_nil 0
    rw [List.map_nil, List.intercalate_nil, scan, hscan]
    rfl
  | cons l ls =>
    obtain ⟨hl, hs⟩ := List.forall_mem_cons.1 hs
    have hgap : IsGap [' '] := isGap_cons_of_isLineBlank rfl isGap_nil
    have hspelled : Spelled ({ l with gap := [] } :: regapped [' '] ls) :=
      List.forall_mem_cons.2 ⟨⟨isGap_nil, hl.2⟩, spelled_regapped hgap hs⟩
    have hapart : Apart [] ({ l with gap := [] } :: regapped [' '] ls) :=
      ⟨Token.joins_of_head? (head?_source_regapped_blank ls) _, apart_regapped_blank ls⟩
    have hscan := scanFrom_of_apart hspelled endsInGap_nil hapart 0
    rw [source_cons, List.nil_append, source_regapped_blank, List.map_cons] at hscan
    rw [List.map_cons, scan, hscan, map_ok]
    simp [Scan.tokens]

/-- Every scan is lossless. The lexemes are pieces of the text that are not empty, one behind the
other, and what they leave over is made of blanks and complete comments. Each of them is scanned to
its token alone, and all of them are scanned to their tokens when single blanks stand between
them. -/
theorem scan_lossless {cs : List Char} {s : Scan} (h : scan cs = .ok s) : s.Lossless cs := by
  obtain ⟨hs, ht, ha, hplaced⟩ := of_scanFrom h
  have hcs : cs = [] ++ Scan.source ⟨s.lexemes, s.trailing⟩ := (source_scanFrom h).symm
  constructor
  case slice =>
    intro l hl
    rw [hplaced] at hl
    exact (standsAt_of_mem_placed hs hcs hl).2
  case order =>
    rw [hplaced]
    exact pairwise_placed hs []
  case filler =>
    intro gap hgap
    rw [Scan.fillers, hplaced] at hgap
    exact standsAt_filler hs ht ha hcs hgap
  case alone => exact fun l hl => scan_of_spells (hs l hl).2
  case respaced => exact map_tokens_scan_intercalate hs

/-- Two operators in front of a comment, a name that holds the beginning of one, and a line comment
at the end. -/
theorem scan_lossless_operators :
    ∃ s, scan "a=-/**/\"é--\" -- end".toList = .ok s ∧ s.lexemes.length = 4 ∧
      s.Lossless "a=-/**/\"é--\" -- end".toList := by
  have hscan : ∃ s ∈ (scan "a=-/**/\"é--\" -- end".toList).toOption, s.lexemes.length = 4 := by
    decide +kernel
  obtain ⟨s, hs, hlength⟩ := hscan
  have hs := eq_ok_of_mem_toOption hs
  exact ⟨s, hs, hlength, scan_lossless hs⟩

end TableSql
