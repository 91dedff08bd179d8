import TableSql.Proofs.Form.Statement
import TableSql.Proofs.Printing.Clauses

/-!
# Quoting plain names

A plain name is a word that is not reserved. It may stand bare where a name stands, also if it is
one of the other keywords, such as `null` or `desc`: the readers ask for a name where they need one,
and the tests that end a clause ask for reserved words only. So a statement in which all names are
plain and bare is the same one as with all of them between quotes.

There is one exception. A word that names an aggregate function makes the statement an aggregate if
an opening parenthesis follows, wherever that is, and in an insertion one follows the name of the
table. A bare `count` there is no name of a table.

## Main definitions

* `IsPlain` — plain names.
* `IsBare`, `IsQuoted` — names that are written bare, and names between quotes.
* `Form.IsText`, `Form.statement?` — the texts of a form, and the statement that has it.
* `Form.print` — one text of a form.

## Main results

* `Form.isText_print_of_isPlain` — a form with plain names has texts of both kinds.
* `parse_of_isText` — the statement of a text of a form.
* `parse_quoted_names` — texts with bare and with quoted names are the same statement.
-/

namespace TableSql

/-! ### Names and texts -/

/-- A name that can be written bare: a word that is not reserved. -/
def IsPlain (w : String) : Prop :=
  IsWord w ∧ Grammar.isReserved w = false

instance : DecidablePred IsPlain :=
  fun w => inferInstanceAs (Decidable (IsWord w ∧ Grammar.isReserved w = false))

/-- The token is the name as a bare word. -/
def IsBare (w : String) (t : Token) : Prop :=
  t = .word w

/-- The token is the name between quotes. -/
def IsQuoted (w : String) (t : Token) : Prop :=
  t = .quotedName w

namespace Form

/-- The text is a statement of the form, in any layout. -/
def IsText (naming : String → Token → Prop) (f : Form) (sql : String) : Prop :=
  ∃ s, scanTrimmed sql = .ok s ∧ f.Writes naming s.tokens

/-- The statement that has the form, with the parameters in place. -/
def statement? (b : Bindings) (f : Form) : Option (Statement Value) :=
  (f.prepared? b.count?).map (Statement.map b.value)

end Form

/-! ### Texts of a form -/

/-- The number that a piece is, as it is written. -/
def Piece.number? : Piece → Option String
  | token (.number s) => some s
  | _ => none

/-- The numbers that are written in a statement. -/
def Form.numbers (f : Form) : List String :=
  f.pieces.filterMap Piece.number?

/-- The text of a form, with keywords in upper case and names written as given. -/
def Form.print (ofName : String → Token) (f : Form) : String :=
  printTokens (f.pieces.map (Piece.write ofName))

/-- Every form has a text, if its names are written as tokens that can be laid out and its counts
are numerals. -/
theorem Form.isText_print {naming : String → Token → Prop} {ofName : String → Token} {f : Form}
    (hneat : ∀ w ∈ f.names, (ofName w).Neat) (hnaming : ∀ w ∈ f.names, naming w (ofName w))
    (hnumbers : ∀ s ∈ f.numbers, IsNumeral s.toList) :
    f.IsText naming (f.print ofName) := by
  have hmark {u : Token} (hu : u.Printed) : .token u ∈ f.pieces → u.Neat := fun _ => hu.neat
  have hclauses : HoldsInClauses fun p => p ∈ f.pieces → (p.write ofName).Neat := {
    keyword := fun k _ => (Token.Printed.keyword k).neat
    name := fun w hw => hneat w (mem_names.2 hw)
    comma := hmark .comma
    equals := hmark .equals
    next := hmark .next
    star := hmark .star
    number := fun s hs => Token.neat_number (hnumbers s (List.mem_filterMap.2 ⟨_, hs, rfl⟩)) }
  have hpieces := hclauses.pieces f fun _ => ⟨hmark .openParen, hmark .closeParen⟩
  have htokens : ∀ t ∈ f.pieces.map (Piece.write ofName), t.Neat :=
    List.forall_mem_map.2 fun p hp => hpieces p hp hp
  obtain ⟨s, hs, hstokens⟩ := exists_scan_printTokens_of_neat htokens
  exact ⟨s, hs, hstokens ▸ writes_map hnaming⟩

theorem IsWord.isName {w : String} (h : IsWord w) : IsName w := by
  obtain ⟨hhead, htail⟩ := h
  constructor
  · rintro rfl
    cases hhead
  · intro hquote
    cases hw : w.toList with
    | nil => simp [hw] at hquote
    | cons c tail =>
      rw [hw] at hhead htail hquote
      rcases List.mem_cons.1 hquote with rfl | hmem
      · cases hhead
      · cases List.all_eq_true.1 htail _ hmem

/-- With plain names a form has a text with all names bare and one with all names quoted. -/
theorem Form.isText_print_of_isPlain {f : Form} (hplain : ∀ w ∈ f.names, IsPlain w)
    (hnumbers : ∀ s ∈ f.numbers, IsNumeral s.toList) :
    f.IsText IsBare (f.print .word) ∧ f.IsText IsQuoted (f.print .quotedName) :=
  ⟨isText_print (fun w hw => Token.neat_word (hplain w hw).1) (fun _ _ => rfl) hnumbers,
    isText_print (fun w hw => Token.neat_quotedName (hplain w hw).1.isName) (fun _ _ => rfl)
      hnumbers⟩

/-! ### Statements of a form -/

/-- A text of a form is an aggregate if it is an insertion that calls an aggregate function by the
name of its table, and else the statement that has the form. -/
theorem parse_of_isText {naming : String → Token → Prop} {calls : String → Bool} {f : Form}
    {sql : String} (h : f.IsText naming sql) (hnaming : ∀ w ∈ f.names, ∀ t, naming w t →
      Grammar.IsNameToken w t ∧ t.isAggregateWord = calls w) (b : Bindings) :
    (f.insertedInto?.any calls = true → ∃ plan, parse b sql = .ok (.aggregate plan)) ∧
      (f.insertedInto?.any calls = false → (parse b sql).toOption = f.statement? b) := by
  obtain ⟨s, hs, hwrites⟩ := h
  have hnames := hwrites.mono hnaming
  have hcall := Form.hasAggregateCall_of_writes hnames
  rw [parse_of_scan hs]
  constructor
  · intro hcalls
    have hkind := f.kindOfTokens_of_writes hwrites
    rw [hcall, hcalls, if_pos rfl] at hkind
    rw [Scan.prepareTokens_aggregate hkind]
    exact ⟨_, rfl⟩
  · intro hcalls
    rw [toOption_map, toOption_mapError, Form.statement?, ← Scan.toOption_prepareTokens_of_writes
      (hnames.mono fun _ _ _ h => h.1) (hcall.trans hcalls)]

/-- Quoting plain names never matters but in one place: the text with all names bare and the text
with all names between quotes are the same statement, or both none, and which one is told by their
form. Only an insertion into a table with the name of an aggregate function is an aggregate if that
name is bare. -/
theorem parse_quoted_names {f : Form} (hplain : ∀ w ∈ f.names, IsPlain w) {bare quoted : String}
    (hbare : f.IsText IsBare bare) (hquoted : f.IsText IsQuoted quoted) (b : Bindings) :
    (parse b quoted).toOption = f.statement? b ∧
      (f.insertedInto?.any isAggregateFunction = false →
        (parse b bare).toOption = (parse b quoted).toOption) ∧
      (f.insertedInto?.any isAggregateFunction = true →
        ∃ plan, parse b bare = .ok (.aggregate plan)) := by
  have hisBare : ∀ w ∈ f.names, ∀ t, IsBare w t →
      Grammar.IsNameToken w t ∧ t.isAggregateWord = isAggregateFunction w := by
    rintro w hw _ rfl
    exact ⟨by simp [Grammar.IsNameToken, Grammar.freeName?, (hplain w hw).2], rfl⟩
  have hisQuoted : ∀ w ∈ f.names, ∀ t, IsQuoted w t →
      Grammar.IsNameToken w t ∧ t.isAggregateWord = false := by
    rintro w hw _ rfl
    exact ⟨rfl, rfl⟩
  have hnone : f.insertedInto?.any (fun _ => false) = false := by
    cases f.insertedInto? <;> rfl
  obtain ⟨haggregate, hstatement⟩ := parse_of_isText hbare hisBare b
  have hparse := (parse_of_isText hquoted hisQuoted b).2 hnone
  exact ⟨hparse, fun hfree => (hstatement hfree).trans hparse.symm, haggregate⟩

/-- Names may be those of functions and keywords that are not reserved, also where such keywords may
stand. -/
theorem parse_quoted_names_select :
    let filtered : Statement Value := .select ⟨"desc", .named ["null", "count"],
      [⟨"sum", .int 1⟩], [⟨"asc", .descending⟩], some 3, none⟩
    (parse ⟨[.int 1, .int 3], ""⟩
        "SELECT null, count FROM desc WHERE sum = ? ORDER BY asc DESC LIMIT ?").toOption =
      some filtered ∧
    (parse ⟨[.int 1, .int 3], ""⟩ ("SELECT \"null\", \"count\" FROM \"desc\" " ++
        "WHERE \"sum\" = ? ORDER BY \"asc\" DESC LIMIT ?")).toOption = some filtered := by
  let f : Form := .select (.named ["null", "count"]) "desc" ["sum"] [⟨"asc", some .descending⟩]
    (some .next) none
  have hplain : ∀ w ∈ f.names, IsPlain w := by decide
  have hnumbers : f.numbers = [] := rfl
  obtain ⟨hbare, hquoted⟩ := f.isText_print_of_isPlain hplain (by simp [hnumbers])
  have hprint : f.print .word =
      "SELECT null, count FROM desc WHERE sum = ? ORDER BY asc DESC LIMIT ?" := by decide +kernel
  have hprint' : f.print .quotedName = "SELECT \"null\", \"count\" FROM \"desc\" " ++
      "WHERE \"sum\" = ? ORDER BY \"asc\" DESC LIMIT ?" := by decide +kernel
  rw [hprint] at hbare
  rw [hprint'] at hquoted
  obtain ⟨hparse, hsame, -⟩ := parse_quoted_names hplain hbare hquoted ⟨[.int 1, .int 3], ""⟩
  exact ⟨(hsame rfl).trans hparse, hparse⟩

/-- A bare `count` behind `INSERT INTO` is not the name of a table. -/
theorem parse_bare_count_ne :
    let f : Form := .insert "count" ["a"] 1
    (∀ w ∈ f.names, IsPlain w) ∧ f.IsText IsBare "INSERT INTO count (a) VALUES (?)" ∧
      f.IsText IsQuoted "INSERT INTO \"count\" (\"a\") VALUES (?)" ∧
      (parse ⟨[.int 1], ""⟩ "INSERT INTO count (a) VALUES (?)").toOption ≠
        (parse ⟨[.int 1], ""⟩ "INSERT INTO \"count\" (\"a\") VALUES (?)").toOption := by
  intro f
  have hplain : ∀ w ∈ f.names, IsPlain w := by decide
  have hnumbers : f.numbers = [] := rfl
  obtain ⟨hbare, hquoted⟩ := f.isText_print_of_isPlain hplain (by simp [hnumbers])
  have hprint : f.print .word = "INSERT INTO count (a) VALUES (?)" := by decide +kernel
  have hprint' : f.print .quotedName = "INSERT INTO \"count\" (\"a\") VALUES (?)" := by
    decide +kernel
  rw [hprint] at hbare
  rw [hprint'] at hquoted
  refine ⟨hplain, hbare, hquoted, fun heq => ?_⟩
  have hkinds :
      (parse ⟨[.int 1], ""⟩ "INSERT INTO count (a) VALUES (?)").toOption.map Statement.kind ≠
        (parse ⟨[.int 1], ""⟩
          "INSERT INTO \"count\" (\"a\") VALUES (?)").toOption.map Statement.kind := by
    decide +kernel
  exact hkinds (congrArg _ heq)

end TableSql
