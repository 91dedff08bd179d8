import TableSql.Proofs.Connection.Agreement
import TableSql.Proofs.Printing.RoundTrip

/-!
# A removal takes away what a reading shows

A removal and a reading of all columns that have the same table and the same text behind `WHERE` are
read by two readers, and carried out by two operations of the store. The readers cut the text into
the same conjuncts and make the same filters of them, and a row passes these for the one operation
exactly if it does for the other. So who looks at the rows first knows what a removal will take
away.

## Main definitions

* `removalText`, `readingText` — the two texts.

## Main results

* `Grammar.select_readingHead` — the reading has the filters of the removal.
* `parse_readingText` — if the removal is accepted the reading is.
* `Connection.removal_takes_reading` — the removal takes away what the reading shows.
-/

namespace TableSql

/-- The text of a removal from a table, with a text behind `WHERE`. -/
def removalText (table conditions : String) : String :=
  "DELETE FROM \"" ++ table ++ "\" WHERE " ++ conditions

/-- The text of a reading of all columns of a table, with a text behind `WHERE`. -/
def readingText (table conditions : String) : String :=
  "SELECT * FROM \"" ++ table ++ "\" WHERE " ++ conditions

/-- The tokens of a removal up to its conditions. -/
def removalHead (table : String) : List Token :=
  [Keyword.DELETE.token, Keyword.FROM.token, .quotedName table, Keyword.WHERE.token]

/-- The tokens of a reading up to its conditions. -/
def readingHead (table : String) : List Token :=
  [Keyword.SELECT.token, .star, Keyword.FROM.token, .quotedName table, Keyword.WHERE.token]

/-! ### Tokens -/

/-- Pieces of text that make up printed tokens and the blank behind them. -/
theorem append_eq_printTokens_append {ts : List Token} {before table behind : String}
    (h : before.toList ++ (table.toList ++ behind.toList) =
      Scan.source ⟨laidOut none ts, []⟩ ++ [' ']) (conditions : String) :
    before ++ table ++ behind ++ conditions = printTokens ts ++ " " ++ conditions := by
  refine String.toList_inj.1 ?_
  have happend := congrArg (· ++ conditions.toList) h
  simpa [printTokens] using happend

theorem removalText_eq (table conditions : String) :
    removalText table conditions = printTokens (removalHead table) ++ " " ++ conditions := by
  refine append_eq_printTokens_append ?_ conditions
  simp only [removalHead, laidOut, source_cons, source_nil, Token.spelling, List.append_assoc,
    List.cons_append]
  rfl

theorem readingText_eq (table conditions : String) :
    readingText table conditions = printTokens (readingHead table) ++ " " ++ conditions := by
  refine append_eq_printTokens_append ?_ conditions
  simp only [readingHead, laidOut, source_cons, source_nil, Token.spelling, List.append_assoc,
    List.cons_append]
  rfl

theorem printed_removalHead {table : String} (h : IsName table) :
    ∀ t ∈ removalHead table, t.Printed := by
  simpa [removalHead] using ⟨Token.Printed.keyword .DELETE, Token.Printed.keyword .FROM,
    Token.Printed.name h, Token.Printed.keyword .WHERE⟩

theorem printed_readingHead {table : String} (h : IsName table) :
    ∀ t ∈ readingHead table, t.Printed := by
  simpa [readingHead] using ⟨Token.Printed.keyword .SELECT, Token.Printed.star,
    Token.Printed.keyword .FROM, Token.Printed.name h, Token.Printed.keyword .WHERE⟩

/-! ### Readers -/

namespace Grammar

variable {c : Cursor} {ts : List Token} {fs : List (Filter Operand)}

theorem startsWith_of_semicolons (h : ∀ t ∈ ts, t = .semicolon) (k : Keyword) :
    startsWith k ts = false := by
  cases ts with
  | nil => rfl
  | cons t ts =>
    obtain rfl := h t List.mem_cons_self
    rfl

/-- The reader of a removal leaves the conditions to the reader of filters. -/
theorem delete_removalHead (c : Cursor) (table : String) (ts : List Token) :
    delete c (removalHead table ++ ts) =
      (writeFilters .DELETE c (Keyword.WHERE.token :: ts)).map fun fs => (table, fs) := by
  have hname : name (.quotedName table :: Keyword.WHERE.token :: ts) =
      .ok (table, Keyword.WHERE.token :: ts) := name_quotedName table (by simp [Keyword.token])
  simp only [removalHead, List.cons_append, List.nil_append, delete, keyword_token, bind_ok, hname]
  cases writeFilters .DELETE c (Keyword.WHERE.token :: ts) <;> rfl

/-- Conditions that make filters of a removal make the same filters of a reading, and nothing is
left behind them to sort or to count by. -/
theorem select_readingHead (read : CountReader) (table : String)
    (h : writeFilters .DELETE c (Keyword.WHERE.token :: ts) = .ok fs) :
    select read c (readingHead table ++ ts) = .ok ⟨table, .all, fs, [], none, none⟩ := by
  obtain ⟨clause, spans, rest, hwhere, hspans, hrest, rfl, -⟩ := exists_of_writeFilters h
  obtain rfl : ts = clause := by simpa using hwhere
  have hname : name (.quotedName table :: Keyword.WHERE.token :: ts) =
      .ok (table, Keyword.WHERE.token :: ts) := name_quotedName table (by simp [Keyword.token])
  have hclause : whereClause (Keyword.WHERE.token :: ts) = .ok (spans, rest) := by
    simpa [whereClause] using hspans
  have hstop (k : Keyword) := startsWith_of_semicolons hrest k
  have hsource : Source.read read c (.quotedName table :: Keyword.WHERE.token :: ts) =
      .ok ⟨table, (c.conditions spans).1, [], none, none⟩ := by
    simp only [Source.read, hname, hclause, bind_ok, orderClause, countClause, hstop,
      finish_of_semicolons hrest, Bool.false_eq_true, if_false]
    rfl
  simp only [readingHead, List.cons_append, List.nil_append, select, keyword_token, bind_ok,
    columns, hsource]
  rfl

end Grammar

namespace Scan

variable {s : Scan} {table : String} {ts : List Token} {read : Grammar.CountReader}

/-- What is prepared from the tokens of a removal. -/
theorem exists_of_removalHead (htable : IsName table) (hs : s.tokens = removalHead table ++ ts)
    {p : Statement Operand} (h : s.prepareTokens read = .ok p) (hkind : p.kind = .delete) :
    hasAggregateCall ts = false ∧ ∃ fs, p = .delete table fs ∧
      Grammar.writeFilters .DELETE (.start (.detect ts)) (Keyword.WHERE.token :: ts) = .ok fs := by
  have hprinted := printed_removalHead htable
  have hdelete : kindOfTokens s.tokens = .delete := (kindOfTokens_of_prepareTokens h).trans hkind
  have hcall : kindOfTokens s.tokens =
      if hasAggregateCall ts then .aggregate else .delete := by
    rw [hs]
    exact kindOfTokens_append_of_printed hprinted ts
  refine ⟨by simpa [hdelete] using hcall, ?_⟩
  unfold prepareTokens at h
  simp only [hdelete] at h
  obtain ⟨⟨table', fs⟩, hread, rfl⟩ := exists_of_map_eq_ok h
  rw [hs, detect_append_of_printed hprinted, Grammar.delete_removalHead] at hread
  obtain ⟨fs, hfs, hpair⟩ := exists_of_map_eq_ok hread
  cases hpair
  exact ⟨fs, rfl, hfs⟩

/-- What is prepared from the tokens of a reading. -/
theorem prepareTokens_readingHead (htable : IsName table) (hs : s.tokens = readingHead table ++ ts)
    (hcall : hasAggregateCall ts = false) {fs : List (Filter Operand)}
    (h : Grammar.writeFilters .DELETE (.start (.detect ts)) (Keyword.WHERE.token :: ts) = .ok fs) :
    s.prepareTokens read = .ok (.select ⟨table, .all, fs, [], none, none⟩) := by
  have hprinted := printed_readingHead htable
  have hselect : kindOfTokens (readingHead table ++ ts) = .select := by
    refine (kindOfTokens_append_of_printed hprinted ts).trans ?_
    rw [hcall]
    rfl
  unfold prepareTokens
  simp only [hs, hselect, detect_append_of_printed hprinted,
    Grammar.select_readingHead read table h, map_ok]

end Scan

/-- If the removal is accepted, the reading is accepted as well. It has the same table and the same
filters, and it neither sorts nor counts. -/
theorem parse_readingText {table conditions : String} (htable : IsName table) {b : Bindings}
    {name : String} {filters : List (Filter Value)}
    (h : parse b (removalText table conditions) = .ok (.delete name filters)) :
    name = table ∧ parse b (readingText table conditions) =
      .ok (.select ⟨table, .all, filters, [], none, none⟩) := by
  obtain ⟨s, p, hscan, hp, hmap⟩ := exists_of_parse_eq_ok h
  have hremoval := toOption_tokens_scanTrimmed_append (printed_removalHead htable)
    (List.cons_ne_nil _ _) conditions
  rw [← removalText_eq, hscan] at hremoval
  obtain ⟨ts, hts, hs⟩ := Option.map_eq_some_iff.1 hremoval.symm
  have hreading := toOption_tokens_scanTrimmed_append (printed_readingHead htable)
    (List.cons_ne_nil _ _) conditions
  rw [← readingText_eq, hts] at hreading
  obtain ⟨s', hs', htokens⟩ := Option.map_eq_some_iff.1 hreading
  have hkind : p.kind = .delete := by
    rw [← Statement.kind_map b.value, hmap]
    rfl
  obtain ⟨hcall, fs, rfl, hfs⟩ := Scan.exists_of_removalHead htable hs.symm hp hkind
  cases hmap
  refine ⟨rfl, ?_⟩
  rw [parse_of_scan (eq_ok_of_mem_toOption hs'),
    Scan.prepareTokens_readingHead htable htokens hcall hfs]
  rfl

/-! ### Stores -/

/-- Every entry reports the number of rows that a removal takes away. -/
theorem Store.runOn_respond_delete_of_some {s : Store} {table : String} {t : Table}
    (h : s.table? table = some t) (c : Connection) (b : Bindings) (sql : String) (entry : Entry)
    (filters : List (Filter Value)) :
    (c.respond b sql entry (.delete table filters)).runOn service s =
      (.ok (entry.ofReport ⟨none, (t.delete filters).1⟩),
        s.replace table (t.delete filters).2) := by
  have hservice : service (.delete table filters) s =
      (.ok (some (t.delete filters).1), s.replace table (t.delete filters).2) := by
    simp [service, onTable, h]
  refine (Attempt.runOn_bind_pure service _ _ s).trans ?_
  rw [Connection.execute, Connection.delete, Attempt.runOn_callOr, hservice]
  rfl

namespace Connection

/-- If a removal is accepted, so is the reading with the same table and the same text behind
`WHERE`, and it has the same filters. Over a store that has the table, the removal reports as many
changes as the reading has shown rows. It leaves the other rows in their order, the next key, the
key column and all other tables as they are, and then the reading shows nothing. -/
theorem removal_takes_reading {table conditions : String} (htable : IsName table) {b : Bindings}
    {name : String} {filters : List (Filter Value)}
    (h : parse b (removalText table conditions) = .ok (.delete name filters)) :
    name = table ∧
    parse b (readingText table conditions) =
      .ok (.select ⟨table, .all, filters, [], none, none⟩) ∧
    ∀ (c : Connection) (s : Store) (t : Table), s.table? table = some t →
      let reading := c.attempt b (readingText table conditions)
      let removal := c.attempt b (removalText table conditions)
      let shown := t.rows.filter (passes filters)
      let behind := ((removal .run).runOn Store.service s).2
      (∀ entry, (reading entry).runOn Store.service s = (.ok (entry.ofRows shown), s)) ∧
      (∀ entry, (removal entry).runOn Store.service s =
        (.ok (entry.ofReport ⟨none, shown.length⟩), behind)) ∧
      behind.table? table = some ⟨t.rows.filter fun row => !passes filters row, t.nextKey⟩ ∧
      (∀ other, other ≠ table → behind.table? other = s.table? other) ∧
      behind.keyColumn = s.keyColumn ∧
      ∀ entry, (reading entry).runOn Store.service behind = (.ok (entry.ofRows []), behind) := by
  obtain ⟨rfl, hreading⟩ := parse_readingText htable h
  refine ⟨rfl, hreading, fun c s t ht => ?_⟩
  intro reading removal shown behind
  have hreads (s : Store) {t : Table} (ht : s.table? name = some t) (entry : Entry) :
      (reading entry).runOn Store.service s =
        (.ok (entry.ofRows (t.select ⟨name, .all, filters, [], none, none⟩)), s) := by
    rw [show reading entry = _ from attempt_of_parse c entry hreading]
    exact Store.runOn_respond_select_of_some c b _ entry ht
  have hremoves (entry : Entry) : (removal entry).runOn Store.service s =
      (.ok (entry.ofReport ⟨none, shown.length⟩), s.replace name (t.delete filters).2) := by
    rw [show removal entry = _ from attempt_of_parse c entry h,
      Store.runOn_respond_delete_of_some ht, Table.fst_delete]
  have hbehind : behind = s.replace name (t.delete filters).2 := congrArg Prod.snd (hremoves .run)
  have htable' : behind.table? name = some (t.delete filters).2 := by
    rw [hbehind, Store.table?_replace, ht]
    simp
  refine ⟨fun entry => ?_, fun entry => ?_, htable', fun other hother => ?_, ?_, fun entry => ?_⟩
  · rw [hreads s ht, Table.select_filters]
  · rw [hremoves, hbehind]
  · rw [hbehind, Store.table?_replace]
    simp [hother]
  · rw [hbehind]
    rfl
  · rw [hreads behind htable', Table.select_filters_delete]

/-- The second conjunct makes no filter, for the removal as for the reading. -/
theorem removal_takes_reading_row :
    let b : Bindings := ⟨[.text "x"], ""⟩
    let conditions := "a = ? AND b > 3 /* both */;"
    let s := (Store.empty "id").withTable "my table"
      [.ofList [("a", .text "x")], .ofList [("a", .text "y")]]
    let behind := ((standard.attempt b (removalText "my table" conditions) .run).runOn
      Store.service s).2
    ∃ filters, parse b (removalText "my table" conditions) = .ok (.delete "my table" filters) ∧
      parse b (readingText "my table" conditions) =
        .ok (.select ⟨"my table", .all, filters, [], none, none⟩) ∧
      (standard.attempt b (removalText "my table" conditions) .run).runOn Store.service s =
        (.ok ⟨none, 1⟩, behind) ∧
      (standard.attempt b (readingText "my table" conditions) .all).runOn Store.service behind =
        (.ok [], behind) := by
  intro b conditions s behind
  have hparse : ∃ statement ∈ (parse b (removalText "my table" conditions)).toOption,
      statement.kind = .delete ∧
        ∃ t ∈ s.table? "my table", (t.rows.filter (passes statement.filters)).length = 1 := by
    decide +kernel
  obtain ⟨statement, hstatement, hkind, t, ht, hlength⟩ := hparse
  cases statement <;> cases hkind
  case delete name filters =>
    have h := eq_ok_of_mem_toOption hstatement
    obtain ⟨rfl, hreading, hstore⟩ := removal_takes_reading (by decide) h
    obtain ⟨-, hremoval, -, -, -, hbehind⟩ := hstore standard s t ht
    have hlength : (t.rows.filter (passes filters)).length = 1 := hlength
    refine ⟨filters, h, hreading, ?_, hbehind .all⟩
    exact hlength ▸ hremoval .run

end Connection

end TableSql
