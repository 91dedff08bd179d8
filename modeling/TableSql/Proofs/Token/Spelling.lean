import TableSql.Token.Scan

/-!
# How tokens are spelled

The reader of tokens takes as many characters as it can. This file says the same without a reader:
which texts spell a token, and which texts behind a spelling would be taken into it. A token is
read at some place exactly if a spelling of it stands there and what follows does not extend it.

## Main definitions

* `IsNumeral` — digits, perhaps with a fraction.
* `Token.Spells` — the texts that spell a token.
* `Token.spelling` — the one of them that a token is printed as.
* `Token.extendedBy` — whether a text behind the token would be taken into it.

## Main results

* `Token.read?_of_spells` — a spelling with nothing behind it that extends it is read.
* `Token.spells_of_read?` — what is read is a spelling, and nothing behind it extends it.
-/

namespace TableSql

/-! ### Runs of characters -/

/-- A run of characters of a class ends where a character of another class follows. -/
theorem takeWhile_append_of_head {p : Char → Bool} {run behind : List Char}
    (hrun : ∀ c ∈ run, p c = true) (hend : ∀ c ∈ behind.head?, p c = false) :
    (run ++ behind).takeWhile p = run := by
  rw [List.takeWhile_append_of_pos hrun]
  cases behind with
  | nil => simp
  | cons c cs => simp [hend c rfl]

/-- Every text begins with a run of characters of a class, perhaps empty, behind which no character
of the class follows. -/
theorem exists_run (p : Char → Bool) (cs : List Char) :
    ∃ run behind, cs = run ++ behind ∧ (∀ c ∈ run, p c = true) ∧
      ∀ c ∈ behind.head?, p c = false := by
  induction cs with
  | nil => exact ⟨[], [], rfl, by simp, by simp⟩
  | cons c cs ih =>
    cases h : p c with
    | false => exact ⟨[], c :: cs, rfl, by simp, by simp [h]⟩
    | true =>
      obtain ⟨run, behind, rfl, hrun, hend⟩ := ih
      exact ⟨c :: run, behind, rfl, by simpa [h] using hrun, hend⟩

/-! ### Numerals -/

/-- Digits, at least one, perhaps with a point and further digits behind them. -/
def IsNumeral (ds : List Char) : Prop :=
  ∃ whole, whole ≠ [] ∧ (∀ c ∈ whole, c.isDigit = true) ∧
    (ds = whole ∨
      ∃ fraction, fraction ≠ [] ∧ (∀ c ∈ fraction, c.isDigit = true) ∧
        ds = whole ++ '.' :: fraction)

/-- Whether a text behind a numeral would be taken into it: it begins with a digit, or with a point
and a digit if the numeral has no point yet. -/
def extendsNumeral (ds behind : List Char) : Bool :=
  match behind with
  | [] => false
  | c :: cs => c.isDigit || (c == '.' && !ds.contains '.' && cs.head?.any Char.isDigit)

theorem IsNumeral.isDigit_head {c : Char} {tail : List Char} (h : IsNumeral (c :: tail)) :
    c.isDigit = true := by
  obtain ⟨whole, hne, hwhole, h⟩ := h
  cases whole with
  | nil => exact absurd rfl hne
  | cons d whole =>
    have hc : c = d := by
      rcases h with h | ⟨fraction, -, -, h⟩ <;> exact (List.cons.inj h).1
    exact hc ▸ hwhole d List.mem_cons_self

theorem IsNumeral.ne_nil {ds : List Char} (h : IsNumeral ds) : ds ≠ [] := by
  obtain ⟨whole, hne, -, rfl | ⟨fraction, -, -, rfl⟩⟩ := h <;> simp [hne]

theorem isNumeral_digits (n : Nat) : IsNumeral (Decimal.digits n) :=
  ⟨Decimal.digits n, Decimal.digits_ne_nil n, fun _ => Decimal.isDigit_of_mem_digits, .inl rfl⟩

theorem contains_point_of_isDigit {ds : List Char} (h : ∀ c ∈ ds, c.isDigit = true) :
    ds.contains '.' = false := by
  rw [List.contains_eq_mem, decide_eq_false_iff_not]
  exact fun hmem => absurd (h '.' hmem) (by decide)

/-- A numeral is taken to its end, if what follows does not extend it. -/
theorem numberLength_append {ds behind : List Char} (h : IsNumeral ds)
    (hb : extendsNumeral ds behind = false) : Token.numberLength (ds ++ behind) = ds.length := by
  have hhead : ∀ c ∈ behind.head?, c.isDigit = false := by
    cases behind with
    | nil => simp
    | cons c cs => simp_all [extendsNumeral]
  obtain ⟨whole, hne, hwhole, rfl | ⟨fraction, hfne, hfraction, rfl⟩⟩ := h
  · rw [Token.numberLength, takeWhile_append_of_head hwhole hhead, List.drop_left]
    split
    · rename_i cs
      have hfraction : cs.takeWhile Char.isDigit = [] := by
        cases cs with
        | nil => rfl
        | cons c cs =>
          have hc : c.isDigit = false := by
            simpa [extendsNumeral, contains_point_of_isDigit hwhole, -List.contains_eq_mem]
              using hb
          simp [hc]
      simp [hfraction]
    · rfl
  · rw [List.append_assoc, List.cons_append, Token.numberLength,
      takeWhile_append_of_head hwhole (by simp), List.drop_left]
    simp only [takeWhile_append_of_head hfraction hhead]
    rw [if_neg (by simpa using hfne)]
    simp only [List.length_append, List.length_cons]
    omega

/-- A text that begins with a digit begins with a numeral that is not extended by the rest. -/
theorem exists_numeral {cs : List Char} (h : cs.head?.any Char.isDigit = true) :
    ∃ ds behind, cs = ds ++ behind ∧ IsNumeral ds ∧ extendsNumeral ds behind = false := by
  obtain ⟨whole, rest, rfl, hwhole, hrest⟩ := exists_run Char.isDigit cs
  have hne : whole ≠ [] := by
    rintro rfl
    cases rest with
    | nil => simp at h
    | cons c cs => simp_all
  cases rest with
  | nil => exact ⟨whole, [], rfl, ⟨whole, hne, hwhole, .inl rfl⟩, rfl⟩
  | cons c cs =>
    by_cases hc : c = '.'
    · subst hc
      obtain ⟨fraction, behind, rfl, hfraction, hbehind⟩ := exists_run Char.isDigit cs
      by_cases hfne : fraction = []
      · refine ⟨whole, '.' :: behind, by simp [hfne], ⟨whole, hne, hwhole, .inl rfl⟩, ?_⟩
        cases behind with
        | nil => simp [extendsNumeral]
        | cons d behind => simp_all [extendsNumeral]
      · refine ⟨whole ++ '.' :: fraction, behind, by simp,
          ⟨whole, hne, hwhole, .inr ⟨fraction, hfne, hfraction, rfl⟩⟩, ?_⟩
        cases behind with
        | nil => rfl
        | cons d behind => simp_all [extendsNumeral]
    · exact ⟨whole, c :: cs, rfl, ⟨whole, hne, hwhole, .inl rfl⟩, by simp_all [extendsNumeral]⟩

/-! ### Texts between quotes -/

/-- What is read between quotes is a written text, and no further quote follows it. -/
theorem exists_doubled {q : Char} {cs text : List Char} {n : Nat}
    (h : Text.readQuoted? q cs = some (text, n)) :
    ∃ behind, cs = Text.doubled q text ++ q :: behind ∧ n = (Text.doubled q text).length + 1 ∧
      behind.head? ≠ some q := by
  fun_induction Text.readQuoted? q cs generalizing text n with
  | case1 => cases h
  | case2 =>
    cases h
    exact ⟨[], by simp [Text.doubled], rfl, by simp⟩
  | case3 => cases h
  | case4 cs ih =>
    obtain ⟨⟨text', n'⟩, hread, heq⟩ := Option.map_eq_some_iff.1 h
    cases heq
    obtain ⟨behind, rfl, rfl, hbehind⟩ := ih hread
    exact ⟨behind, by simp [Text.doubled], by simp [Text.doubled], hbehind⟩
  | case5 d cs hd =>
    cases h
    exact ⟨d :: cs, by simp [Text.doubled], rfl, by simpa using hd⟩
  | case6 c d cs hc ih =>
    obtain ⟨⟨text', n'⟩, hread, heq⟩ := Option.map_eq_some_iff.1 h
    cases heq
    obtain ⟨behind, hsplit, rfl, hbehind⟩ := ih hread
    exact ⟨behind, by simp [Text.doubled, hc, hsplit], by simp [Text.doubled, hc], hbehind⟩

/-! ### Tokens -/

namespace Token

/-- The marks of one character and their tokens. -/
def marks : List (Char × Token) :=
  [('(', openParen), (')', closeParen), (',', comma), ('=', equals), ('*', star), ('.', dot),
    (';', semicolon)]

/-- The texts that spell a token. -/
inductive Spells : Token → List Char → Prop
  | next : Spells (marker .next) ['?']
  | numbered {sign : Char} {ds : List Char} (hsign : sign = '?' ∨ sign = '$') (hne : ds ≠ [])
      (hds : ∀ c ∈ ds, c.isDigit = true) :
      Spells (marker (.numbered (markerNumber ds))) (sign :: ds)
  | string (text : List Char) :
      Spells (.string (String.ofList text)) (Text.quoted '\'' text)
  | quotedName {q : Char} {name : List Char} (hq : q = '"' ∨ q = '\x60') (hne : name ≠ [])
      (hname : ∀ c ∈ name, c ≠ q) :
      Spells (.quotedName (String.ofList name)) (q :: (name ++ [q]))
  | number {ds : List Char} (hds : IsNumeral ds) : Spells (.number (String.ofList ds)) ds
  | negative {ds : List Char} (hds : IsNumeral ds) :
      Spells (.number (String.ofList ('-' :: ds))) ('-' :: ds)
  | word {c : Char} {tail : List Char} (hc : beginsWord c = true)
      (htail : ∀ d ∈ tail, continuesWord d = true) :
      Spells (.word (String.ofList (c :: tail))) (c :: tail)
  | long {c d : Char} (h : (c, d) ∈ longOperators) :
      Spells (operator (String.ofList [c, d])) [c, d]
  | short {c : Char} (h : c ∈ shortOperators) : Spells (operator (String.ofList [c])) [c]
  | mark {c : Char} {t : Token} (h : (c, t) ∈ marks) : Spells t [c]

/-- The text that a token is printed as. -/
def spelling : Token → List Char
  | word w => w.toList
  | quotedName w => '"' :: (w.toList ++ ['"'])
  | string s => Text.quoted '\'' s.toList
  | number s => s.toList
  | marker .next => ['?']
  | marker (.numbered n) => '$' :: Decimal.digits n
  | openParen => ['(']
  | closeParen => [')']
  | comma => [',']
  | equals => ['=']
  | star => ['*']
  | dot => ['.']
  | semicolon => [';']
  | operator s => s.toList

/-- Whether a text behind a token would be taken into it. -/
def extendedBy : Token → List Char → Bool
  | marker _, behind => behind.head?.any Char.isDigit
  | string _, behind => behind.head? == some '\''
  | number s, behind => extendsNumeral s.toList behind
  | word _, behind => behind.head?.any continuesWord
  | operator s, behind =>
    match s.toList, behind with
    | [c], d :: _ => (c == '-' && d.isDigit) || longOperators.contains (c, d)
    | _, _ => false
  | _, _ => false

/-! ### A spelling is read -/

theorem read?_eq_or (c : Char) (cs : List Char) :
    read? c cs = (readMarker? c cs).or ((readString? c cs).or ((readQuotedName? c cs).or
      ((readNumber? c cs).or ((readWord? c cs).or (readSign? c cs))))) := by
  simp [read?]

section Readers

variable {c : Char} {cs : List Char}

theorem readMarker?_eq_none (h : c ≠ '?') (h' : c ≠ '$') : readMarker? c cs = none := by
  simp [readMarker?, h, h']

theorem readString?_eq_none (h : c ≠ '\'') : readString? c cs = none := by
  simp [readString?, h]

theorem readQuotedName?_eq_none (h : c ≠ '"') (h' : c ≠ '\x60') :
    readQuotedName? c cs = none := by
  simp [readQuotedName?, h, h']

theorem readNumber?_eq_none (h : c.isDigit = false)
    (h' : c ≠ '-' ∨ cs.head?.any Char.isDigit = false) : readNumber? c cs = none := by
  have h' : ¬(c = '-' ∧ (cs.head?.map Char.isDigit) = some true) := by
    rintro ⟨hc, hhead⟩
    cases cs <;> simp_all
  rw [readNumber?, if_neg (by simp [h]), if_neg h']

end Readers

/-- A character of a class is no character outside it. -/
theorem ne_of_class (p : Char → Bool) {c d : Char} (h : p c = true) (hd : p d = false) :
    c ≠ d := by
  rintro rfl
  simp [h] at hd

theorem isDigit_eq_false_of_beginsWord {c : Char} (h : beginsWord c = true) :
    c.isDigit = false := by
  have h : (decide (c.val ≥ 65 ∧ c.val ≤ 90) || (c.val ≥ 97 && c.val ≤ 122) || c == '_') = true := h
  simp only [Bool.or_eq_true, Bool.and_eq_true, decide_eq_true_eq, beq_iff_eq] at h
  rw [Char.isDigit, Bool.and_eq_false_iff, decide_eq_false_iff_not, decide_eq_false_iff_not]
  rcases h with (h | h) | rfl
  · right
    intro h'
    exact absurd (UInt32.le_trans h.1 h') (by decide)
  · right
    intro h'
    exact absurd (UInt32.le_trans h.1 h') (by decide)
  · right
    decide

/-- A mark is read whatever stands behind it. -/
theorem read?_of_mem_marks {c : Char} {t : Token} (h : (c, t) ∈ marks) (behind : List Char) :
    read? c behind = some (t, 0) := by
  simp only [marks, List.mem_cons, Prod.mk.injEq, List.not_mem_nil, or_false] at h
  rcases h with ⟨rfl, rfl⟩ | ⟨rfl, rfl⟩ | ⟨rfl, rfl⟩ | ⟨rfl, rfl⟩ | ⟨rfl, rfl⟩ | ⟨rfl, rfl⟩ |
    ⟨rfl, rfl⟩
  all_goals
    cases behind <;>
      simp [read?_eq_or, readMarker?, readString?, readQuotedName?, readNumber?, readWord?,
        beginsWord, readSign?, longOperators, readShort?]

/-- An operator of one character is read, if what follows makes no number and no longer operator of
it. -/
theorem read?_of_mem_shortOperators {c : Char} {behind : List Char} (h : c ∈ shortOperators)
    (hb : (operator (String.ofList [c])).extendedBy behind = false) :
    read? c behind = some (operator (String.ofList [c]), 0) := by
  have hshort : readShort? c = some (operator (String.ofList [c])) := by
    simp only [shortOperators, List.mem_cons, List.not_mem_nil, or_false] at h
    rcases h with rfl | rfl | rfl | rfl | rfl | rfl <;> decide
  have hsign : readSign? c behind = some (operator (String.ofList [c]), 0) := by
    cases behind with
    | nil => simp [readSign?, hshort]
    | cons d behind =>
      have hlong : longOperators.contains (c, d) = false := by
        simp only [extendedBy, String.toList_ofList, Bool.or_eq_false_iff] at hb
        exact hb.2
      simp only [readSign?, hlong, hshort]
      rfl
  have hnumber : readNumber? c behind = none := by
    refine readNumber?_eq_none ?_ ?_
    · simp only [shortOperators, List.mem_cons, List.not_mem_nil, or_false] at h
      rcases h with rfl | rfl | rfl | rfl | rfl | rfl <;> decide
    · by_cases hc : c = '-'
      · right
        cases behind with
        | nil => rfl
        | cons d behind =>
          simp only [extendedBy, String.toList_ofList, Bool.or_eq_false_iff] at hb
          simpa [hc] using hb.1
      · exact .inl hc
  simp only [shortOperators, List.mem_cons, List.not_mem_nil, or_false] at h
  rw [read?_eq_or, hnumber, hsign]
  rcases h with rfl | rfl | rfl | rfl | rfl | rfl <;>
    simp [readMarker?, readString?, readQuotedName?, readWord?, beginsWord]

/-- A spelling that nothing behind it extends is read. -/
theorem read?_of_spells {t : Token} {c : Char} {tail behind : List Char}
    (h : t.Spells (c :: tail)) (hb : t.extendedBy behind = false) :
    read? c (tail ++ behind) = some (t, tail.length) := by
  rw [read?_eq_or]
  cases h with
  | next =>
    have hdigits : behind.takeWhile Char.isDigit = [] := by
      cases behind <;> simp_all [extendedBy]
    simp [readMarker?, hdigits]
  | numbered hsign hne hds =>
    have hdigits : (tail ++ behind).takeWhile Char.isDigit = tail := by
      refine takeWhile_append_of_head hds ?_
      cases behind <;> simp_all [extendedBy]
    rcases hsign with rfl | rfl <;> simp [readMarker?, hdigits, hne]
  | string text =>
    have hread := Text.readQuoted?_doubled '\'' text behind (by simpa [extendedBy] using hb)
    rw [readMarker?_eq_none (by decide) (by decide), List.append_assoc, List.singleton_append]
    simp [readString?, hread]
  | @quotedName _ name hq hne hname =>
    have hname : (name ++ c :: behind).takeWhile (· != c) = name :=
      takeWhile_append_of_head (by simpa using hname) (by simp)
    have hmarker : readMarker? c (name ++ [c] ++ behind) = none := by
      rcases hq with rfl | rfl <;> exact readMarker?_eq_none (by decide) (by decide)
    have hstring : readString? c (name ++ [c] ++ behind) = none := by
      rcases hq with rfl | rfl <;> exact readString?_eq_none (by decide)
    rw [hmarker, hstring, List.append_assoc, List.singleton_append]
    simp [readQuotedName?, hq, hname, hne]
  | number hds =>
    have hc := hds.isDigit_head
    have hlength := numberLength_append hds (by simpa [extendedBy] using hb)
    have hne (d : Char) (hd : d.isDigit = false) : c ≠ d := ne_of_class Char.isDigit hc hd
    rw [readMarker?_eq_none (hne _ (by decide)) (hne _ (by decide)),
      readString?_eq_none (hne _ (by decide)),
      readQuotedName?_eq_none (hne _ (by decide)) (hne _ (by decide))]
    rw [List.cons_append, List.length_cons] at hlength
    simp [readNumber?, hc, hlength]
  | negative hds =>
    have hlength : numberLength (tail ++ behind) = tail.length := by
      refine numberLength_append hds ?_
      rw [extendedBy, String.toList_ofList] at hb
      rw [← hb]
      cases behind <;> simp [extendsNumeral]
    have hhead : (tail ++ behind).head?.map Char.isDigit = some true := by
      cases tail with
      | nil => exact absurd rfl hds.ne_nil
      | cons d tail => simp [hds.isDigit_head]
    have hread : readNumber? '-' (tail ++ behind) =
        some (.number (String.ofList ('-' :: tail)), tail.length) := by
      rw [readNumber?, if_neg (by decide), if_pos ⟨rfl, hhead⟩]
      simp [hlength]
    rw [readMarker?_eq_none (by decide) (by decide), readString?_eq_none (by decide),
      readQuotedName?_eq_none (by decide) (by decide), hread]
    rfl
  | word hc htail =>
    have hne (d : Char) (hd : beginsWord d = false) : c ≠ d := ne_of_class beginsWord hc hd
    have htail : (tail ++ behind).takeWhile continuesWord = tail := by
      refine takeWhile_append_of_head htail ?_
      cases behind <;> simp_all [extendedBy]
    rw [readMarker?_eq_none (hne _ (by decide)) (hne _ (by decide)),
      readString?_eq_none (hne _ (by decide)),
      readQuotedName?_eq_none (hne _ (by decide)) (hne _ (by decide)),
      readNumber?_eq_none (isDigit_eq_false_of_beginsWord hc) (.inl (hne _ (by decide)))]
    simp [readWord?, hc, htail]
  | @long _ d h =>
    have hsign : readSign? c (d :: behind) = some (operator (String.ofList [c, d]), 1) := by
      simp only [readSign?, List.contains_eq_mem, h, decide_true, if_true]
    have hc : c ∈ ['<', '>', '!', '|'] := by
      simp only [longOperators, List.mem_cons, Prod.mk.injEq, List.not_mem_nil, or_false] at h
      rcases h with ⟨rfl, -⟩ | ⟨rfl, -⟩ | ⟨rfl, -⟩ | ⟨rfl, -⟩ | ⟨rfl, -⟩ <;> simp
    simp only [List.mem_cons, List.not_mem_nil, or_false] at hc
    rw [List.singleton_append, hsign]
    rcases hc with rfl | rfl | rfl | rfl <;>
      simp [readMarker?, readString?, readQuotedName?, readNumber?, readWord?, beginsWord]
  | short h => rw [← read?_eq_or]; exact read?_of_mem_shortOperators h hb
  | mark h => rw [← read?_eq_or]; exact read?_of_mem_marks h behind

/-! ### What is read is a spelling -/

section Sound

variable {t : Token} {c : Char} {cs : List Char} {n : Nat}

/-- A token of `n` more characters stands in front of a text: they spell it, and nothing behind them
extends it. -/
def StandsIn (t : Token) (c : Char) (cs : List Char) (n : Nat) : Prop :=
  ∃ tail behind, cs = tail ++ behind ∧ n = tail.length ∧ t.Spells (c :: tail) ∧
    t.extendedBy behind = false

theorem standsIn_of_readMarker? (h : readMarker? c cs = some (t, n)) : StandsIn t c cs n := by
  obtain ⟨digits, behind, rfl, hdigits, hend⟩ := exists_run Char.isDigit cs
  have hrun := takeWhile_append_of_head hdigits hend
  rw [readMarker?, hrun] at h
  have hbehind : behind.head?.any Char.isDigit = false := by
    cases behind <;> simp_all
  split at h
  · rename_i hsign
    split at h
    · rename_i hne
      cases h
      exact ⟨digits, behind, rfl, rfl, .numbered hsign hne hdigits, hbehind⟩
    · rename_i hnil
      split at h
      · rename_i hc
        cases h
        subst hc
        exact ⟨[], behind, by simpa using hnil, rfl, .next, hbehind⟩
      · cases h
  · cases h

theorem standsIn_of_readString? (h : readString? c cs = some (t, n)) : StandsIn t c cs n := by
  unfold readString? at h
  split at h
  · rename_i hc
    subst hc
    obtain ⟨⟨text, m⟩, hread, heq⟩ := Option.map_eq_some_iff.1 h
    cases heq
    obtain ⟨behind, rfl, rfl, hbehind⟩ := exists_doubled hread
    refine ⟨Text.doubled '\'' text ++ ['\''], behind, by simp, by simp, .string text, ?_⟩
    simpa [extendedBy] using hbehind
  · cases h

theorem standsIn_of_readQuotedName? (h : readQuotedName? c cs = some (t, n)) :
    StandsIn t c cs n := by
  unfold readQuotedName? at h
  obtain ⟨name, behind, rfl, hname, hend⟩ := exists_run (· != c) cs
  rw [takeWhile_append_of_head hname hend] at h
  split at h
  · rename_i hc
    dsimp only at h
    split at h
    · rename_i hne
      cases h
      cases behind with
      | nil => simp at hne
      | cons d behind =>
        have hd : d = c := by simpa using hend
        subst hd
        exact ⟨name ++ [d], behind, by simp, by simp,
          .quotedName hc hne.1 (by simpa using hname), rfl⟩
    · cases h
  · cases h

theorem standsIn_of_readNumber? (h : readNumber? c cs = some (t, n)) : StandsIn t c cs n := by
  unfold readNumber? at h
  split at h
  · rename_i hc
    have hhead : (c :: cs).head?.any Char.isDigit = true := by simpa using hc
    obtain ⟨ds, behind, hsplit, hds, hbehind⟩ := exists_numeral hhead
    rw [hsplit, numberLength_append hds hbehind] at h
    cases ds with
    | nil => exact absurd rfl hds.ne_nil
    | cons d tail =>
      obtain ⟨rfl, rfl⟩ := List.cons.inj hsplit
      have htake : (tail.append behind).take tail.length = tail := List.take_left
      simp only [List.length_cons, Nat.add_sub_cancel, htake] at h
      cases h
      exact ⟨tail, behind, rfl, rfl, .number hds, by simpa [extendedBy] using hbehind⟩
  · split at h
    · rename_i hc
      obtain ⟨rfl, hhead⟩ := hc
      have hhead : cs.head?.any Char.isDigit = true := by
        cases cs <;> simp_all
      obtain ⟨ds, behind, rfl, hds, hbehind⟩ := exists_numeral hhead
      rw [numberLength_append hds hbehind] at h
      dsimp only at h
      rw [List.take_left] at h
      cases h
      refine ⟨ds, behind, rfl, rfl, .negative hds, ?_⟩
      rw [extendedBy, String.toList_ofList, ← hbehind]
      cases behind <;> simp [extendsNumeral]
    · cases h

theorem standsIn_of_readWord? (h : readWord? c cs = some (t, n)) : StandsIn t c cs n := by
  unfold readWord? at h
  obtain ⟨tail, behind, rfl, htail, hend⟩ := exists_run continuesWord cs
  rw [takeWhile_append_of_head htail hend] at h
  split at h
  · rename_i hc
    cases h
    refine ⟨tail, behind, rfl, rfl, .word hc htail, ?_⟩
    cases behind <;> simp_all [extendedBy]
  · cases h

theorem mem_of_readShort? (h : readShort? c = some t) :
    (c, t) ∈ marks ∨ c ∈ shortOperators ∧ t = operator (String.ofList [c]) := by
  unfold readShort? at h
  split at h
  case h_8 =>
    split at h
    · rename_i hc
      cases h
      exact .inr ⟨by simpa using hc, rfl⟩
    · cases h
  all_goals
    cases h
    exact .inl (by simp [marks])

/-- Nothing extends a mark. -/
theorem extendedBy_of_mem_marks (h : (c, t) ∈ marks) (behind : List Char) :
    t.extendedBy behind = false := by
  simp only [marks, List.mem_cons, Prod.mk.injEq, List.not_mem_nil, or_false] at h
  rcases h with ⟨-, rfl⟩ | ⟨-, rfl⟩ | ⟨-, rfl⟩ | ⟨-, rfl⟩ | ⟨-, rfl⟩ | ⟨-, rfl⟩ | ⟨-, rfl⟩ <;> rfl

theorem standsIn_of_readShort? (h : readShort? c = some t)
    (hb : (operator (String.ofList [c])).extendedBy cs = false) : StandsIn t c cs 0 := by
  rcases mem_of_readShort? h with hmem | ⟨hmem, rfl⟩
  · exact ⟨[], cs, rfl, rfl, .mark hmem, extendedBy_of_mem_marks hmem cs⟩
  · exact ⟨[], cs, rfl, rfl, .short hmem, hb⟩

theorem standsIn_of_readSign? (h : readSign? c cs = some (t, n))
    (hnumber : readNumber? c cs = none) : StandsIn t c cs n := by
  cases cs with
  | nil =>
    obtain ⟨t', hshort, heq⟩ := Option.map_eq_some_iff.1 h
    cases heq
    exact standsIn_of_readShort? hshort (by simp [extendedBy])
  | cons d cs =>
    unfold readSign? at h
    dsimp only at h
    split at h
    · rename_i hlong
      cases h
      exact ⟨[d], cs, rfl, rfl, .long (by simpa using hlong), by simp [extendedBy]⟩
    · rename_i hlong
      obtain ⟨t', hshort, heq⟩ := Option.map_eq_some_iff.1 h
      cases heq
      refine standsIn_of_readShort? hshort ?_
      simp only [extendedBy, String.toList_ofList]
      refine Bool.or_eq_false_iff.2 ⟨?_, by simpa using hlong⟩
      refine Bool.eq_false_iff.2 fun hsign => ?_
      simp only [Bool.and_eq_true, beq_iff_eq] at hsign
      obtain ⟨rfl, hd⟩ := hsign
      rw [readNumber?, if_neg (by decide), if_pos ⟨rfl, by simp [hd]⟩] at hnumber
      cases hnumber

/-- What is read is a spelling, and nothing behind it extends it. -/
theorem spells_of_read? (h : read? c cs = some (t, n)) : StandsIn t c cs n := by
  rw [read?_eq_or] at h
  rcases Option.or_eq_some_iff.1 h with h | ⟨-, h⟩
  · exact standsIn_of_readMarker? h
  rcases Option.or_eq_some_iff.1 h with h | ⟨-, h⟩
  · exact standsIn_of_readString? h
  rcases Option.or_eq_some_iff.1 h with h | ⟨-, h⟩
  · exact standsIn_of_readQuotedName? h
  rcases Option.or_eq_some_iff.1 h with h | ⟨hnumber, h⟩
  · exact standsIn_of_readNumber? h
  rcases Option.or_eq_some_iff.1 h with h | ⟨-, h⟩
  · exact standsIn_of_readWord? h
  · exact standsIn_of_readSign? h hnumber

end Sound

end Token

end TableSql
