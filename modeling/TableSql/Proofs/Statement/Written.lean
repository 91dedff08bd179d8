import Mathlib.Data.List.Dedup
import Mathlib.Data.List.Induction
import TableSql.Proofs.Statement.Front
import TableSql.Proofs.Store.Changes

/-!
# What a write writes

An insertion has a list of columns and a list of values, a change has a list of equations. Either
way every column has its written value, and this is said here as a relation between tokens and pairs
of a column and an operand, without a reader. All the lists are of one form, items with commas
between them, and fall into their items in one way only.

The statement keeps the written values in a record. A record has one value for each name, so of
several values for one column it keeps the last one. Nothing is lost exactly if no column is written
twice, however its name is spelled.

## Main definitions

* `Separated` — items with commas between them.
* `Names`, `Assigns` — the items that are names and equations.
* `WritesOut` — the tokens of a write, and what it writes.
* `Record.HasAll` — a record that has every pair of a list as an entry of its own.

## Main results

* `Record.get?_ofList`, `Record.hasAll_ofList_iff` — the record of a list of pairs.
* `WritesOut.unique` — the tokens determine the table and the written values.
* `Scan.exists_writesOut_of_prepareTokens` — where the record of a write comes from.
* `exists_writesOut_of_parse` — what a write keeps of its written values.
-/

namespace TableSql

/-! ### Records of lists -/

/-- The last of the values that are listed for a name. -/
def lastValue? {α : Type} (pairs : List (String × α)) (name : String) : Option α :=
  (pairs.reverse.find? fun e => e.1 = name).map Prod.snd

theorem lastValue?_concat {α : Type} (pairs : List (String × α)) (e : String × α) (name : String) :
    lastValue? (pairs ++ [e]) name = if name = e.1 then some e.2 else lastValue? pairs name := by
  unfold lastValue?
  by_cases h : name = e.1 <;> simp [h, eq_comm]

namespace Record

variable {α β : Type}

/-- The record has an entry for every pair of the list, and no pair shares its entry with another
one. -/
structure HasAll (r : Record α) (pairs : List (String × α)) : Prop where
  length : r.entries.length = pairs.length
  get? : ∀ e ∈ pairs, r.get? e.1 = some e.2

theorem ofList_concat (es : List (String × α)) (e : String × α) :
    ofList (es ++ [e]) = (ofList es).insert e.1 e.2 := by
  simp [ofList]

/-- The value of a name is the last one that is listed for it. -/
theorem get?_ofList (es : List (String × α)) (name : String) :
    (ofList es).get? name = lastValue? es name := by
  induction es using List.reverseRecOn with
  | nil => rfl
  | append_singleton es e ih => rw [ofList_concat, get?_insert, lastValue?_concat, ih]

theorem get?_map (f : α → β) (r : Record α) (name : String) :
    (r.map f).get? name = (r.get? name).map f := by
  simp [get?, List.find?_map, Function.comp_def]

theorem mem_names_ofList {es : List (String × α)} {name : String} :
    name ∈ (ofList es).names ↔ name ∈ es.map Prod.fst := by
  have hnames : name ∈ (ofList es).names ↔ ((ofList es).get? name).isSome = true := by
    rw [← contains_eq_isSome, names, contains, List.mem_map, List.any_eq_true]
    simp
  rw [hnames, get?_ofList, lastValue?, Option.isSome_map, List.find?_isSome, List.mem_map]
  simp

theorem map_ofList (f : α → β) (es : List (String × α)) :
    (ofList es).map f = ofList (es.map fun e => (e.1, f e.2)) := by
  refine ext_get? fun name => ?_
  rw [get?_map, get?_ofList, get?_ofList, lastValue?, lastValue?, ← List.map_reverse,
    List.find?_map]
  simp [Function.comp_def]

/-- There are as many entries as pairs exactly if no name is listed twice. -/
theorem length_entries_ofList_eq_iff {es : List (String × α)} :
    (ofList es).entries.length = es.length ↔ (es.map Prod.fst).Nodup := by
  have hperm : (ofList es).names.Perm (es.map Prod.fst).dedup :=
    (List.perm_ext_iff_of_nodup (nodup_names _) (List.nodup_dedup _)).2 fun name => by
      rw [mem_names_ofList, List.mem_dedup]
  have hlength : (ofList es).entries.length = (es.map Prod.fst).dedup.length := by
    rw [← hperm.length_eq, names, List.length_map]
  rw [hlength, ← List.length_map Prod.fst, ← List.dedup_eq_self]
  exact ⟨(List.dedup_sublist _).eq_of_length, congrArg List.length⟩

theorem lastValue?_of_nodup {es : List (String × α)} (h : (es.map Prod.fst).Nodup)
    {e : String × α} (he : e ∈ es) : lastValue? es e.1 = some e.2 := by
  have hfound : (es.reverse.find? fun d => d.1 = e.1).isSome :=
    List.find?_isSome.2 ⟨e, List.mem_reverse.2 he, decide_eq_true rfl⟩
  obtain ⟨d, hd⟩ := Option.isSome_iff_exists.1 hfound
  have hname : d.1 = e.1 := by simpa using List.find?_some hd
  have hmem : d ∈ es := List.mem_reverse.1 (List.mem_of_find?_eq_some hd)
  rw [lastValue?, hd, List.inj_on_of_nodup_map h hmem he hname]
  rfl

/-- The record of a list of pairs has all of them exactly if no name is listed twice. -/
theorem hasAll_ofList_iff {es : List (String × α)} :
    (ofList es).HasAll es ↔ (es.map Prod.fst).Nodup := by
  constructor
  · intro h
    exact length_entries_ofList_eq_iff.1 h.length
  · intro h
    refine ⟨length_entries_ofList_eq_iff.2 h, fun e he => ?_⟩
    rw [get?_ofList, lastValue?_of_nodup h he]

end Record

/-! ### Items with commas between them -/

/-- One or more items with commas between them. -/
inductive Separated {α : Type} (Item : List Token → α → Prop) : List Token → List α → Prop
  | last {span : List Token} {a : α} (hspan : Item span a) : Separated Item span [a]
  | comma {span : List Token} {a : α} {ts : List Token} {as : List α} (hspan : Item span a)
      (h : Separated Item ts as) : Separated Item (span ++ .comma :: ts) (a :: as)

/-- The token is a name. -/
inductive Names : List Token → String → Prop
  | mk {t : Token} {w : String} (ht : Grammar.freeName? t = some w) : Names [t] w

/-- The tokens assign a value to a column. -/
inductive Assigns : List Token → String × Operand → Prop
  | mk {t : Token} {w : String} {span : List Token} {a : Operand}
      (ht : Grammar.freeName? t = some w) (hspan : Denotes span a)
      (hclosed : Closed Grammar.endsAssignment span) : Assigns (t :: .equals :: span) (w, a)

/-- The items end where `stop` says so, and have one meaning each. -/
structure Delimited {α : Type} (stop : Token → Bool) (Item : List Token → α → Prop) : Prop where
  closed : ∀ {span a}, Item span a → Closed stop span
  unique : ∀ {span a a'}, Item span a → Item span a' → a = a'

theorem eq_of_closed_append {stop : Token → Bool} {span span' behind behind' : List Token}
    {t t' : Token} (h : Closed stop span) (ht : endsSpan stop t = true) (h' : Closed stop span')
    (ht' : endsSpan stop t' = true) (heq : span ++ t :: behind = span' ++ t' :: behind') :
    span = span' ∧ t = t' ∧ behind = behind' := by
  have htake := takeSpan_of_cut (h.cut ht behind)
  rw [heq, takeSpan_of_cut (h'.cut ht' behind')] at htake
  cases htake
  exact ⟨rfl, rfl, rfl⟩

/-- Tokens fall into items in one way only, up to a token that ends an item and is no comma. -/
theorem Separated.unique {α : Type} {stop : Token → Bool} {Item : List Token → α → Prop}
    (hcomma : endsSpan stop .comma = true) (hitem : Delimited stop Item)
    {ts ts' behind behind' : List Token} {as as' : List α} {t t' : Token}
    (h : Separated Item ts as) (h' : Separated Item ts' as') (ht : endsSpan stop t = true)
    (ht' : endsSpan stop t' = true) (hne : t ≠ .comma) (hne' : t' ≠ .comma)
    (heq : ts ++ t :: behind = ts' ++ t' :: behind') : as = as' ∧ t :: behind = t' :: behind' := by
  induction h generalizing ts' as' with
  | last hspan =>
    cases h' with
    | last hspan' =>
      obtain ⟨rfl, rfl, rfl⟩ :=
        eq_of_closed_append (hitem.closed hspan) ht (hitem.closed hspan') ht' heq
      exact ⟨congrArg ([·]) (hitem.unique hspan hspan'), rfl⟩
    | comma hspan' _ =>
      rw [List.append_assoc, List.cons_append] at heq
      exact absurd
        (eq_of_closed_append (hitem.closed hspan) ht (hitem.closed hspan') hcomma heq).2.1 hne
  | comma hspan _ ih =>
    rw [List.append_assoc, List.cons_append] at heq
    cases h' with
    | last hspan' =>
      have heq' := eq_of_closed_append (hitem.closed hspan) hcomma (hitem.closed hspan') ht' heq
      exact absurd heq'.2.1.symm hne'
    | comma hspan' h' =>
      rw [List.append_assoc, List.cons_append] at heq
      obtain ⟨rfl, -, hrest⟩ :=
        eq_of_closed_append (hitem.closed hspan) hcomma (hitem.closed hspan') hcomma heq
      obtain ⟨rfl, hbehind⟩ := ih h' hrest
      exact ⟨by rw [hitem.unique hspan hspan'], hbehind⟩

/-! ### Readers of items -/

theorem Denotes.closed {stop : Token → Bool} {span : List Token} {a : Operand}
    (hstop : ∀ t : Token, t.isValue = true → stop t = false) (h : Denotes span a) :
    Closed stop span := by
  cases h with
  | @token t ht =>
    exact closed_singleton (by rintro rfl; cases ht) (by rintro rfl; cases ht) (hstop t ht)
  | @now w hw =>
    have hword := hstop (.word w) rfl
    exact ⟨by simp [uncut_cons, uncut_nil, endsSpan, Token.openBehind, hword], rfl⟩
  | @datetime w s hw hs =>
    have hword := hstop (.word w) rfl
    exact ⟨by simp [uncut_cons, uncut_nil, endsSpan, Token.openBehind, hword], rfl⟩

theorem Denotes.unique {span : List Token} {a a' : Operand} (h : Denotes span a)
    (h' : Denotes span a') : a = a' := by
  have hc : (Cursor.start .numbered).ByNumber span := .inl rfl
  exact Option.some.inj ((value_of_denotes hc h).symm.trans (value_of_denotes hc h'))

theorem delimited_names : Delimited (· = .comma) Names where
  closed h := by
    cases h with
    | @mk t w ht =>
      exact closed_singleton (by rintro rfl; cases ht) (by rintro rfl; cases ht)
        (decide_eq_false (by rintro rfl; cases ht))
  unique h h' := by
    cases h with
    | mk ht =>
      cases h' with
      | mk ht' => exact Option.some.inj (ht.symm.trans ht')

theorem delimited_denotes : Delimited (· = .comma) Denotes where
  closed h := h.closed fun t ht => decide_eq_false (by rintro rfl; cases ht)
  unique := Denotes.unique

theorem endsAssignment_of_freeName? {t : Token} {w : String}
    (ht : Grammar.freeName? t = some w) : Grammar.endsAssignment t = false := by
  have hends := (uncut_cons.1 (Grammar.closed_of_freeName? ht).uncut).1 rfl
  have hne : t ≠ .openParen ∧ t ≠ .closeParen ∧ t ≠ .comma := by
    refine ⟨?_, ?_, ?_⟩ <;> (rintro rfl; cases ht)
  simpa [endsSpan, Grammar.endsAssignment, hne] using hends

theorem delimited_assigns : Delimited Grammar.endsAssignment Assigns where
  closed h := by
    cases h with
    | @mk t w span a ht hspan hclosed =>
      have hname : Closed Grammar.endsAssignment [t] :=
        closed_singleton (by rintro rfl; cases ht) (by rintro rfl; cases ht)
          (endsAssignment_of_freeName? ht)
      have hequals : Closed Grammar.endsAssignment [.equals] :=
        closed_singleton (by simp) (by simp) rfl
      exact hname.append (hequals.append hclosed)
  unique h h' := by
    cases h with
    | mk ht hspan _ =>
      cases h' with
      | mk ht' hspan' _ =>
        rw [Option.some.inj (ht.symm.trans ht'), hspan.unique hspan']

namespace Grammar

variable {c c' : Cursor} {ts rest : List Token}

theorem separated_of_names {ws : List String} (h : names ts = .ok (ws, rest)) :
    ∃ taken, ts = taken ++ rest ∧ Separated Names taken ws := by
  fun_induction names ts generalizing ws with
  | case1 => cases h
  | case2 ts w rest' hname ws' rest'' hrest ih =>
    cases h
    obtain ⟨t, ht, rfl⟩ := eq_cons_of_name hname
    obtain ⟨taken, rfl, htaken⟩ := ih hrest
    exact ⟨[t] ++ .comma :: taken, rfl, .comma (.mk ht) htaken⟩
  | case3 => cases h
  | case4 ts w rest' hne hname =>
    cases h
    obtain ⟨t, ht, rfl⟩ := eq_cons_of_name hname
    exact ⟨[t], rfl, .last (.mk ht)⟩

theorem denotes_of_operand {stop : Token → Bool} {a : Operand} (hc : c.ByNumber ts)
    (h : operand stop c ts = .ok ((a, c'), rest)) :
    ∃ span, ts = span ++ rest ∧ c'.mode = c.mode ∧ Denotes span a ∧ Cut stop 0 span rest := by
  obtain ⟨span, hspan, -, hvalue⟩ := exists_of_operand_eq_ok h
  obtain ⟨rfl, hcut⟩ := takeSpan_eq_iff.1 hspan
  refine ⟨span, rfl, ?_, denotes_of_value (hc.of_subset (by simp) rfl) (by rw [hvalue]), hcut⟩
  rw [← Cursor.mode_value c span, hvalue]

theorem separated_of_values {as : List Operand} (hc : c.ByNumber ts)
    (h : values c ts = .ok (as, rest)) :
    ∃ taken, ts = taken ++ rest ∧ Separated Denotes taken as := by
  fun_induction values c ts generalizing as with
  | case1 => cases h
  | case2 c ts a d rest' ha as' rest'' hrest ih =>
    cases h
    obtain ⟨span, rfl, hmode, hspan, -⟩ := denotes_of_operand hc ha
    obtain ⟨taken, rfl, htaken⟩ :=
      ih (hc.of_subset (fun t ht => by simp [ht]) hmode) hrest
    exact ⟨span ++ .comma :: taken, by simp, .comma hspan htaken⟩
  | case3 => cases h
  | case4 c ts a d rest' hne ha =>
    cases h
    obtain ⟨span, rfl, -, hspan, -⟩ := denotes_of_operand hc ha
    exact ⟨span, rfl, .last hspan⟩

theorem assigns_of_assignment {x : String × Operand} (hc : c.ByNumber ts)
    (h : assignment c ts = .ok ((x, c'), rest)) (hrest : rest ≠ []) :
    ∃ span, ts = span ++ rest ∧ c'.mode = c.mode ∧ Assigns span x := by
  obtain ⟨behind, hname, hoperand⟩ := exists_of_assignment_eq_ok h
  obtain ⟨t, ht, rfl⟩ := eq_cons_of_name hname
  have hc' : c.ByNumber behind := hc.of_subset (fun t ht => by simp [ht]) rfl
  obtain ⟨span, rfl, hmode, hspan, hcut⟩ := denotes_of_operand hc' hoperand
  exact ⟨t :: .equals :: span, rfl, hmode, .mk ht hspan (hcut.closed hrest)⟩

theorem separated_of_assignments {xs : List (String × Operand)} (hc : c.ByNumber ts)
    (h : assignments c ts = .ok ((xs, c'), rest)) (hne : rest ≠ []) :
    ∃ taken, ts = taken ++ rest ∧ c'.mode = c.mode ∧ Separated Assigns taken xs := by
  fun_induction assignments c ts generalizing xs c' with
  | case1 => cases h
  | case2 c ts x d rest' hx ys d' rest'' hys ih =>
    cases h
    obtain ⟨span, rfl, hmode, hspan⟩ := assigns_of_assignment hc hx (by simp)
    obtain ⟨taken, rfl, hmode', htaken⟩ :=
      ih (hc.of_subset (fun t ht => by simp [ht]) hmode) hys
    exact ⟨span ++ .comma :: taken, by simp, hmode'.trans hmode, .comma hspan htaken⟩
  | case3 => cases h
  | case4 c ts x d rest' hcomma hx =>
    cases h
    obtain ⟨span, rfl, hmode, hspan⟩ := assigns_of_assignment hc hx hne
    exact ⟨span, rfl, hmode, .last hspan⟩

end Grammar

/-! ### Written values -/

/-- The tokens of a write to a table, with the values that it writes, each with its column, in the
order in which they stand. -/
inductive WritesOut : List Token → String → List (String × Operand) → Prop
  | insert {insert into t values : Token} {table : String} {names spans ending : List Token}
      {columns : List String} {operands : List Operand} (hinsert : insert.isKeyword .INSERT = true)
      (hinto : into.isKeyword .INTO = true) (ht : Grammar.freeName? t = some table)
      (hnames : Separated Names names columns) (hvalues : values.isKeyword .VALUES = true)
      (hspans : Separated Denotes spans operands) (hlength : columns.length = operands.length)
      (hending : ∀ t ∈ ending, t = .semicolon) :
      WritesOut (insert :: into :: t :: .openParen :: (names ++ .closeParen :: values ::
        .openParen :: (spans ++ .closeParen :: ending))) table (columns.zip operands)
  | update {update t set w : Token} {table : String} {assigned clause : List Token}
      {written : List (String × Operand)} (hupdate : update.isKeyword .UPDATE = true)
      (ht : Grammar.freeName? t = some table) (hset : set.isKeyword .SET = true)
      (hassigned : Separated Assigns assigned written) (hw : w.isKeyword .WHERE = true) :
      WritesOut (update :: t :: set :: (assigned ++ w :: clause)) table written

/-- The tokens determine the table and what is written to it. -/
theorem WritesOut.unique {ts : List Token} {table table' : String}
    {written written' : List (String × Operand)} (h : WritesOut ts table written)
    (h' : WritesOut ts table' written') : table = table' ∧ written = written' := by
  have hkinds {t : Token} (hinsert : t.isKeyword .INSERT = true)
      (hupdate : t.isKeyword .UPDATE = true) : False :=
    absurd (isKeyword_unique hinsert hupdate) (by decide)
  have hwhere {w : Token} (hw : w.isKeyword .WHERE = true) :
      endsSpan Grammar.endsAssignment w = true ∧ w ≠ .comma :=
    ⟨by simp [endsSpan, Grammar.endsAssignment, hw, (ne_parens_of_isKeyword hw).1],
      by rintro rfl; cases hw⟩
  generalize hts : ts = us at h'
  cases h with
  | insert hinsert _ ht hnames _ hspans _ _ =>
    cases h' with
    | insert _ _ ht' hnames' _ hspans' _ _ =>
      simp only [List.cons.injEq, true_and] at hts
      obtain ⟨-, -, rfl, hrest⟩ := hts
      obtain ⟨rfl, hrest⟩ := hnames.unique rfl delimited_names hnames' rfl rfl (by simp) (by simp)
        hrest
      simp only [List.cons.injEq, true_and] at hrest
      obtain ⟨rfl, -⟩ := hspans.unique rfl delimited_denotes hspans' rfl rfl (by simp) (by simp)
        hrest.2
      exact ⟨Option.some.inj (ht.symm.trans ht'), rfl⟩
    | update hupdate => exact (hkinds hinsert ((List.cons.inj hts).1 ▸ hupdate)).elim
  | update hupdate ht _ hassigned hw =>
    cases h' with
    | insert hinsert => exact (hkinds hinsert ((List.cons.inj hts).1 ▸ hupdate)).elim
    | update _ ht' _ hassigned' hw' =>
      simp only [List.cons.injEq] at hts
      obtain ⟨-, rfl, -, hrest⟩ := hts
      obtain ⟨rfl, -⟩ := hassigned.unique rfl delimited_assigns hassigned' (hwhere hw).1
        (hwhere hw').1 (hwhere hw).2 (hwhere hw').2 hrest
      exact ⟨Option.some.inj (ht.symm.trans ht'), rfl⟩

/-- The table that a statement writes values to, and the values. -/
def Statement.stored? {α : Type} : Statement α → Option (String × Record α)
  | .insert table values => some (table, values)
  | .update table values _ => some (table, values)
  | _ => none

namespace Grammar

variable {c : Cursor} {ts : List Token} {table : String} {values : Record Operand}

/-- The record of an insertion has the values of its list under the columns of its list. -/
theorem writesOut_of_insert (hc : c.ByNumber ts) (h : insert c ts = .ok (table, values)) :
    ∃ written, WritesOut ts table written ∧ values = .ofList written := by
  unfold insert at h
  obtain ⟨ts₁, hinsert, h⟩ := exists_of_bind_eq_ok h
  obtain ⟨ts₂, hinto, h⟩ := exists_of_bind_eq_ok h
  obtain ⟨⟨table', ts₃⟩, hname, h⟩ := exists_of_bind_eq_ok h
  obtain ⟨ts₄, hopen, h⟩ := exists_of_bind_eq_ok h
  obtain ⟨⟨columns, ts₅⟩, hcolumns, h⟩ := exists_of_bind_eq_ok h
  obtain ⟨ts₆, hclose, h⟩ := exists_of_bind_eq_ok h
  obtain ⟨ts₇, hvalues, h⟩ := exists_of_bind_eq_ok h
  obtain ⟨ts₈, hopen', h⟩ := exists_of_bind_eq_ok h
  obtain ⟨⟨operands, ts₉⟩, hoperands, h⟩ := exists_of_bind_eq_ok h
  obtain ⟨ts₁₀, hclose', h⟩ := exists_of_bind_eq_ok h
  dsimp only at h
  split at h
  · cases h
  obtain ⟨⟨⟩, hfinish, h⟩ := exists_of_bind_eq_ok h
  split at h
  · cases h
  rename_i hlength
  cases h
  obtain ⟨t₁, ht₁, rfl⟩ := eq_cons_of_keyword hinsert
  obtain ⟨t₂, ht₂, rfl⟩ := eq_cons_of_keyword hinto
  obtain ⟨t₃, ht₃, rfl⟩ := eq_cons_of_name hname
  obtain rfl := eq_cons_of_mark hopen
  obtain ⟨names, rfl, hnames⟩ := separated_of_names hcolumns
  obtain rfl := eq_cons_of_mark hclose
  obtain ⟨t₇, ht₇, rfl⟩ := eq_cons_of_keyword hvalues
  obtain rfl := eq_cons_of_mark hopen'
  have hc' : c.ByNumber ts₈ := hc.of_subset (fun t ht => by simp [ht]) rfl
  obtain ⟨spans, rfl, hspans⟩ := separated_of_values hc' hoperands
  obtain rfl := eq_cons_of_mark hclose'
  exact ⟨columns.zip operands, .insert ht₁ ht₂ ht₃ hnames ht₇ hspans (not_not.1 hlength)
    (forall_semicolon_of_finish hfinish), rfl⟩

/-- A change is `UPDATE` with a table, `SET` with equations, and the filters of a write. -/
theorem exists_of_update {fs : List (Filter Operand)} (hc : c.ByNumber ts)
    (h : update c ts = .ok (table, values, fs)) :
    ∃ t₁ t₂ t₃ assigned rest d written, ts = t₁ :: t₂ :: t₃ :: (assigned ++ rest) ∧
      t₁.isKeyword .UPDATE = true ∧ freeName? t₂ = some table ∧ t₃.isKeyword .SET = true ∧
      Separated Assigns assigned written ∧ d.mode = c.mode ∧
      writeFilters .UPDATE d rest = .ok fs ∧ values = .ofList written := by
  obtain ⟨t₁, _, t₃, ts₃, written, d, rest, ht₁, rfl, hname, ht₃, hassigned, hfs, rfl⟩ :=
    exists_of_update_eq_ok h
  obtain ⟨t₂, ht₂, rfl⟩ := eq_cons_of_name hname
  have hne : rest ≠ [] := by
    obtain ⟨clause, spans, rest, hwhere, -⟩ := exists_of_writeFilters hfs
    obtain ⟨w, hw, rfl⟩ := eq_cons_of_keyword hwhere
    exact List.cons_ne_nil _ _
  have hc' : c.ByNumber ts₃ := hc.of_subset (fun t ht => by simp [ht]) rfl
  obtain ⟨assigned, rfl, hmode, hassigned⟩ := separated_of_assignments hc' hassigned hne
  exact ⟨t₁, t₂, t₃, assigned, rest, d, written, rfl, ht₁, ht₂, ht₃, hassigned, hmode, hfs, rfl⟩

/-- The record of a change has the values of its equations under their columns. -/
theorem writesOut_of_update {fs : List (Filter Operand)} (hc : c.ByNumber ts)
    (h : update c ts = .ok (table, values, fs)) :
    ∃ written, WritesOut ts table written ∧ values = .ofList written := by
  obtain ⟨t₁, t₂, t₃, assigned, rest, d, written, rfl, ht₁, ht₂, ht₃, hassigned, -, hfs, rfl⟩ :=
    exists_of_update hc h
  obtain ⟨clause, spans, ending, hwhere, -⟩ := exists_of_writeFilters hfs
  obtain ⟨w, hw, rfl⟩ := eq_cons_of_keyword hwhere
  exact ⟨written, .update ht₁ ht₂ ht₃ hassigned hw, rfl⟩

end Grammar

/-! ### Written values of texts -/

namespace Statement

variable {α β : Type}

theorem stored?_map (f : α → β) (p : Statement α) :
    (p.map f).stored? = p.stored?.map fun r => (r.1, r.2.map f) := by
  cases p <;> rfl

@[simp]
theorem stored?_mapFilters (f : α → α) (p : Statement α) :
    (p.mapFilters f).stored? = p.stored? := by
  cases p <;> rfl

end Statement

/-- The record of a write comes from its written values, if its markers name their parameters. -/
theorem Scan.exists_writesOut_of_prepareTokens {s : Scan} {read : Grammar.CountReader}
    {p : Statement Operand} {table : String} {values : Record Operand}
    (hs : (Cursor.start (.detect s.tokens)).ByNumber s.tokens) (h : s.prepareTokens read = .ok p)
    (hp : p.stored? = some (table, values)) :
    ∃ written, WritesOut s.tokens table written ∧ values = .ofList written := by
  have hkind := kindOfTokens_of_prepareTokens h
  unfold prepareTokens at h
  cases p with
  | insert table' values' =>
    cases hp
    simp only [hkind, Statement.kind] at h
    obtain ⟨r, hinsert, hp⟩ := exists_of_map_eq_ok h
    cases hp
    exact Grammar.writesOut_of_insert hs hinsert
  | update table' values' fs =>
    cases hp
    simp only [hkind, Statement.kind] at h
    obtain ⟨r, hupdate, hp⟩ := exists_of_map_eq_ok h
    cases hp
    exact Grammar.writesOut_of_update hs hupdate
  | _ => cases hp

/-- A text is read as the one whose markers name their parameters, but for what its filters compare
with. -/
theorem exists_byNumber_of_parse {b : Bindings} {sql : String} {statement : Statement Value}
    (h : parse b sql = .ok statement) :
    ∃ s read p f, scanTrimmed sql = .ok s ∧ s.byNumber.prepareTokens read = .ok p ∧
      (Cursor.start (.detect s.byNumber.tokens)).ByNumber s.byNumber.tokens ∧
      statement = (p.mapFilters f).map b.value := by
  obtain ⟨s, p, hscan, hp, rfl⟩ := exists_of_parse_eq_ok h
  cases hmode : MarkerMode.detect s.tokens with
  | numbered =>
    have hs : s.byNumber = s := by rw [Scan.byNumber, hmode]
    refine ⟨s, b.count?, p, id, hscan, hs.symm ▸ hp, .inl ?_, by rw [p.mapFilters_id]⟩
    rw [hs, hmode]
    rfl
  | sequential =>
    have hs : s.byNumber = s.numbered := by rw [Scan.byNumber, hmode]
    rw [Scan.prepareTokens_numbered hmode] at hp
    obtain ⟨p', hp', rfl⟩ := exists_of_map_eq_ok hp
    refine ⟨s, _, p', _, hscan, hs.symm ▸ hp', .inr ?_, rfl⟩
    rw [hs, Scan.tokens_numbered]
    exact next_notMem_numberFrom 0 s.tokens

/-- An accepted write gives every column the last of the values that are written to it. So the
statement has as many entries as values were written, and each value under its column, exactly if no
column is written twice. -/
theorem exists_writesOut_of_parse {b : Bindings} {sql : String} {statement : Statement Value}
    {table : String} {values : Row} (h : parse b sql = .ok statement)
    (hstored : statement.stored? = some (table, values)) :
    ∃ s written, scanTrimmed sql = .ok s ∧ WritesOut s.byNumber.tokens table written ∧
      (∀ column, values.get? column =
        lastValue? (written.map fun e => (e.1, b.value e.2)) column) ∧
      (values.HasAll (written.map fun e => (e.1, b.value e.2)) ↔
        (written.map Prod.fst).Nodup) := by
  obtain ⟨s, read, p, f, hscan, hp, hs, rfl⟩ := exists_byNumber_of_parse h
  rw [Statement.stored?_map, Statement.stored?_mapFilters, Option.map_eq_some_iff] at hstored
  obtain ⟨⟨table', record⟩, hrecord, hstored⟩ := hstored
  cases hstored
  obtain ⟨written, hwritten, rfl⟩ := Scan.exists_writesOut_of_prepareTokens hs hp hrecord
  have hnames : (written.map fun e => (e.1, b.value e.2)).map Prod.fst = written.map Prod.fst := by
    rw [List.map_map]
    rfl
  refine ⟨s, written, hscan, hwritten, fun column => ?_, ?_⟩
  · rw [Record.map_ofList, Record.get?_ofList]
  · rw [Record.map_ofList, Record.hasAll_ofList_iff, hnames]

/-- A value that comes as a parameter, and the current time under a quoted name. -/
theorem exists_writesOut_of_parse_insertion :
    ∃ statement table values,
      parse ⟨[.int 7], ""⟩ "INSERT INTO t (a, \"b\") VALUES (?, now())" = .ok statement ∧
        statement.stored? = some (table, values) ∧
        ∃ s written, scanTrimmed "INSERT INTO t (a, \"b\") VALUES (?, now())" = .ok s ∧
          WritesOut s.byNumber.tokens table written ∧
          (∀ column, values.get? column = lastValue?
            (written.map fun e => (e.1, (Bindings.mk [.int 7] "").value e.2)) column) ∧
          (values.HasAll (written.map fun e => (e.1, (Bindings.mk [.int 7] "").value e.2)) ↔
            (written.map Prod.fst).Nodup) := by
  have hparse : ∃ statement ∈
      (parse ⟨[.int 7], ""⟩ "INSERT INTO t (a, \"b\") VALUES (?, now())").toOption,
      statement.stored?.isSome := by decide +kernel
  obtain ⟨statement, hstatement, hstored⟩ := hparse
  obtain ⟨⟨table, values⟩, hstored⟩ := Option.isSome_iff_exists.1 hstored
  have hparse := eq_ok_of_mem_toOption hstatement
  exact ⟨statement, table, values, hparse, hstored, exists_writesOut_of_parse hparse hstored⟩

/-- Of two values for one column the first is lost, in an insertion and in a change. -/
theorem repeated_column_loses_value :
    (∃ s values, scanTrimmed "INSERT INTO t (a, \"a\") VALUES (1, 2)" = .ok s ∧
      parse ⟨[], ""⟩ "INSERT INTO t (a, \"a\") VALUES (1, 2)" = .ok (.insert "t" values) ∧
      WritesOut s.byNumber.tokens "t" [("a", .literal (.int 1)), ("a", .literal (.int 2))] ∧
      values.entries.length = 1 ∧ (values.get? "a").bind Value.signed? = some 2) ∧
    ∃ s values filters, scanTrimmed "UPDATE t SET a = 1, a = 2 WHERE id = 3" = .ok s ∧
      parse ⟨[], ""⟩ "UPDATE t SET a = 1, a = 2 WHERE id = 3" = .ok (.update "t" values filters) ∧
      WritesOut s.byNumber.tokens "t" [("a", .literal (.int 1)), ("a", .literal (.int 2))] ∧
      values.entries.length = 1 ∧ (values.get? "a").bind Value.signed? = some 2 := by
  have hdenotes (s : String) (i : Int) (h : Decimal.signed? s.toList = some i) :
      Denotes [.number s] (.literal (.int i)) := by
    have hvalue : (Token.number s).literal = .literal (.int i) := by
      simp [Token.literal, numberValue, h]
    exact hvalue ▸ .token rfl
  have hone := hdenotes "1" 1 (by decide +kernel)
  have htwo := hdenotes "2" 2 (by decide +kernel)
  have hname (w : String) (h : Grammar.isReserved w = false) :
      Grammar.freeName? (.word w) = some w := by simp [Grammar.freeName?, h]
  have ha := hname "a" (by decide +kernel)
  have ht := hname "t" (by decide +kernel)
  constructor
  · have hscan : ∃ s ∈ (scanTrimmed "INSERT INTO t (a, \"a\") VALUES (1, 2)").toOption,
        s.byNumber.tokens = [.word "INSERT", .word "INTO", .word "t", .openParen, .word "a", .comma,
          .quotedName "a", .closeParen, .word "VALUES", .openParen, .number "1", .comma,
          .number "2", .closeParen] := by decide +kernel
    obtain ⟨s, hs, htokens⟩ := hscan
    have hparse : parse ⟨[], ""⟩ "INSERT INTO t (a, \"a\") VALUES (1, 2)" =
        .ok (.insert "t" (.ofList [("a", .int 2)])) := by with_unfolding_all rfl
    have hcolumns : Separated Names [.word "a", .comma, .quotedName "a"] ["a", "a"] :=
      .comma (Names.mk ha) (.last (Names.mk rfl))
    refine ⟨s, _, eq_ok_of_mem_toOption hs, hparse, ?_, rfl, rfl⟩
    rw [htokens]
    exact .insert (by decide +kernel) (by decide +kernel) ht hcolumns (by decide +kernel)
      (Separated.comma hone (.last htwo)) rfl (List.forall_mem_nil _)
  · have hscan : ∃ s ∈ (scanTrimmed "UPDATE t SET a = 1, a = 2 WHERE id = 3").toOption,
        s.byNumber.tokens = [.word "UPDATE", .word "t", .word "SET", .word "a", .equals,
          .number "1", .comma, .word "a", .equals, .number "2", .word "WHERE", .word "id", .equals,
          .number "3"] := by decide +kernel
    obtain ⟨s, hs, htokens⟩ := hscan
    have hparse : parse ⟨[], ""⟩ "UPDATE t SET a = 1, a = 2 WHERE id = 3" =
        .ok (.update "t" (.ofList [("a", .int 2)]) [⟨"id", .int 3⟩]) := by with_unfolding_all rfl
    have hassigned := Separated.comma (Assigns.mk ha hone (by decide +kernel))
      (.last (Assigns.mk ha htwo (by decide +kernel)))
    refine ⟨s, _, _, eq_ok_of_mem_toOption hs, hparse, ?_, rfl, rfl⟩
    rw [htokens]
    exact .update (by decide +kernel) ht (by decide +kernel) hassigned (by decide +kernel)

end TableSql
