import TableSql.Json.Reader
import TableSql.Value.Text

/-!
# Reading back what was written

Objects whose entries are texts and nulls are written as JSON and read back as they were written,
whatever characters the texts have. The bodies with which a server tells of an error are such
objects. Both ways to read agree on them: nothing in them is passed over.

A string is read one character at a time, and each character is written with an escape of its own,
so the strings are read back by an induction on their characters. The symbols of an object are then
those of its entries with commas between them, and the machine takes one entry after the other.

## Main definitions

* `Json.ofOptional`, `Json.objectOf` — a text or null, and an object of them.
* `Json.entrySymbols` — the symbols of an entry.

## Main results

* `Json.readString?_flatMap_escaped` — a string is read back.
* `Json.symbols?_intercalate` — the symbols of the entries of an object.
* `Json.readAsWritten?_json_objectOf` — an object is read back.
-/

namespace TableSql.Json

/-! ### Strings -/

theorem ofHexDigit?_hexDigit {n : Nat} (h : n < 16) : ofHexDigit? (hexDigit n) = some n := by
  have hall : ∀ n : Fin 16, ofHexDigit? (hexDigit n) = some n.val := by decide
  exact hall ⟨n, h⟩

theorem unit?_escaped {n : Nat} (h : n < 256) :
    unit? '0' '0' (hexDigit (n / 16)) (hexDigit (n % 16)) = some n := by
  have hzero : ofHexDigit? '0' = some 0 := rfl
  rw [unit?, hzero, ofHexDigit?_hexDigit (by omega), ofHexDigit?_hexDigit (by omega)]
  exact congrArg some (by omega)

theorem ofPair?_eq_none {m : Nat} (h : m < 0xD800) (n : Nat) : ofPair? m n = none := by
  rw [ofPair?, if_neg]
  omega

theorem ofUnit?_eq_some {m : Nat} (h : m < 0xD800) : ofUnit? m = some (Char.ofNat m) := by
  rw [ofUnit?, if_neg]
  omega

/-- Four characters that are no unit are refused. -/
theorem readString?_of_unit?_eq_none {a b c d : Char} (hunit : unit? a b c d = none)
    (cs : List Char) : readString? ('\\' :: 'u' :: a :: b :: c :: d :: cs) = none := by
  by_cases hcs : ∃ e f g h ds, cs = '\\' :: 'u' :: e :: f :: g :: h :: ds
  · obtain ⟨e, f, g, h, ds, rfl⟩ := hcs
    rw [readString?, hunit]
  · rw [readString?.eq_4 _ _ _ _ _ fun e f g h ds heq => hcs ⟨e, f, g, h, ds, heq⟩, hunit]

/-- A unit that is no surrogate stands for its character, whatever comes behind it. -/
theorem readString?_of_unit?_eq_some {a b c d : Char} {m : Nat} (hunit : unit? a b c d = some m)
    (hm : m < 0xD800) (cs : List Char) :
    readString? ('\\' :: 'u' :: a :: b :: c :: d :: cs) =
      (readString? cs).map fun (s, k) => (putFirst (some (Char.ofNat m)) s, k + 6) := by
  by_cases hcs : ∃ e f g h ds, cs = '\\' :: 'u' :: e :: f :: g :: h :: ds
  · obtain ⟨e, f, g, h, ds, rfl⟩ := hcs
    rw [readString?, hunit]
    cases hnext : unit? e f g h with
    | none => rw [readString?_of_unit?_eq_none hnext]; rfl
    | some n => simp only [ofPair?_eq_none hm, ofUnit?_eq_some hm]
  · rw [readString?.eq_4 _ _ _ _ _ fun e f g h ds heq => hcs ⟨e, f, g, h, ds, heq⟩, hunit]
    simp only [ofUnit?_eq_some hm]

/-- A character that needs no escape stands for itself. -/
theorem readString?_cons {c : Char} (hquote : c ≠ '"') (hbackslash : c ≠ '\\')
    (hcontrol : ¬c.toNat < 32) (cs : List Char) :
    readString? (c :: cs) =
      (readString? cs).map fun (s, k) => (putFirst (some c) s, k + 1) := by
  rw [readString?.eq_6 _ _ hquote, if_neg (not_or.2 ⟨hcontrol, hbackslash⟩)]
  all_goals exact fun _ _ => by simp [hbackslash]

theorem readString?_escaped (c : Char) (cs : List Char) :
    readString? (escaped c ++ cs) =
      (readString? cs).map fun (s, k) => (putFirst (some c) s, k + (escaped c).length) := by
  unfold escaped
  split
  case h_8 hquote hbackslash _ _ _ _ _ =>
    split
    · rename_i hcontrol
      have hread := readString?_of_unit?_eq_some (unit?_escaped (n := c.toNat) (by omega))
        (by omega) cs
      rwa [Char.ofNat_toNat] at hread
    · rename_i hcontrol
      exact readString?_cons hquote hbackslash hcontrol cs
  all_goals simp [readString?, escape?]

/-- A text is read back up to its closing quote. -/
theorem readString?_flatMap_escaped (cs rest : List Char) :
    readString? (cs.flatMap escaped ++ '"' :: rest) =
      some (some cs, (cs.flatMap escaped).length + 1) := by
  induction cs with
  | nil => rw [List.flatMap_nil, List.nil_append, readString?]; rfl
  | cons c cs ih =>
    rw [List.flatMap_cons, List.append_assoc, readString?_escaped, ih]
    simp [putFirst]; omega


/-! ### Symbols -/

theorem symbols?_cons {c : Char} {cs : List Char} {symbol : Symbol} {n : Nat}
    (hblank : isBlank c = false) (h : readSymbol? c cs = some (symbol, n)) :
    symbols? (c :: cs) = (symbols? (cs.drop n)).map (symbol :: ·) := by
  rw [symbols?, hblank, h]
  rfl

theorem symbols?_string (s : String) (rest : List Char) :
    symbols? ((string s).toList ++ rest) = (symbols? rest).map (.string (some s) :: ·) := by
  have hread : readSymbol? '"' (s.toList.flatMap escaped ++ '"' :: rest) =
      some (.string (some s), (s.toList.flatMap escaped).length + 1) := by
    simp [readSymbol?, readString?_flatMap_escaped]
  rw [string, String.toList_ofList, List.cons_append, List.append_assoc, List.singleton_append,
    symbols?_cons rfl hread, List.append_cons, List.drop_left' (by simp)]

/-- A text or null as a value. -/
def ofOptional : Option String → Value
  | none => .null
  | some s => .text s

/-- The symbol of a text or null. -/
def symbolOf : Option String → Symbol
  | none => .atom (some .null)
  | some s => .string (some s)

theorem symbols?_ofOptional (v : Option String) {c : Char} (hc : c.isAlpha = false)
    (rest : List Char) :
    symbols? ((ofOptional v).json.toList ++ c :: rest) =
      (symbols? (c :: rest)).map (symbolOf v :: ·) := by
  cases v with
  | some s => exact symbols?_string s (c :: rest)
  | none =>
    have hread : readSymbol? 'n' ('u' :: 'l' :: 'l' :: c :: rest) =
        some (.atom (some .null), 3) := by
      simp [readSymbol?, readName?, hc]
    exact symbols?_cons rfl hread

/-- The text of an entry. -/
def entryText (e : String × Option String) : List Char :=
  (string e.1).toList ++ ':' :: (ofOptional e.2).json.toList

/-- The symbols of an entry. -/
def entrySymbols (e : String × Option String) : List Symbol :=
  [.string (some e.1), .colon, symbolOf e.2]

theorem symbols?_entryText (e : String × Option String) {c : Char} (hc : c.isAlpha = false)
    (rest : List Char) :
    symbols? (entryText e ++ c :: rest) = (symbols? (c :: rest)).map (entrySymbols e ++ ·) := by
  rw [entryText, List.append_assoc, List.cons_append, symbols?_string,
    symbols?_cons (c := ':') rfl rfl, List.drop_zero, symbols?_ofOptional e.2 hc, Option.map_map,
    Option.map_map]
  rfl

theorem symbols?_intercalate (es : List (String × Option String)) (rest : List Char) :
    symbols? ([','].intercalate (es.map entryText) ++ '\x7d' :: rest) =
      (symbols? rest).map ([.comma].intercalate (es.map entrySymbols) ++ .closeObject :: ·) := by
  have hclose : symbols? ('\x7d' :: rest) = (symbols? rest).map (.closeObject :: ·) :=
    symbols?_cons (n := 0) rfl rfl
  induction es with
  | nil => simpa using hclose
  | cons e es ih =>
    cases es with
    | nil =>
      rw [List.map_singleton, List.map_singleton, List.intercalate_singleton,
        List.intercalate_singleton, symbols?_entryText e rfl, hclose, Option.map_map]
      rfl
    | cons e' es =>
      have hcomma (cs : List Char) : symbols? (',' :: cs) = (symbols? cs).map (.comma :: ·) :=
        symbols?_cons (n := 0) rfl rfl
      rw [List.map_cons, List.map_cons, List.map_cons, List.map_cons, List.intercalate_cons_cons,
        List.intercalate_cons_cons, ← List.map_cons, ← List.map_cons, List.append_assoc,
        List.append_assoc, List.singleton_append,
        symbols?_entryText e rfl, hcomma, ih, Option.map_map, Option.map_map]
      simp [Function.comp_def]

/-- The object of texts and nulls under names. -/
def objectOf (es : List (String × Option String)) : Value :=
  .object (es.map fun e => (e.1, ofOptional e.2))

theorem toList_json_objectOf (es : List (String × Option String)) :
    (objectOf es).json.toList =
      '\x7b' :: ([','].intercalate (es.map entryText) ++ ['\x7d']) := by
  have hentries : (Value.jsonEntries (es.map fun e => (e.1, ofOptional e.2))).map String.toList =
      es.map entryText := by
    induction es with
    | nil => rfl
    | cons e es ih => simp [Value.jsonEntries, entryText, ih]
  simp [objectOf, Value.json, hentries]

/-! ### Reading -/

namespace Machine

variable (manner : Manner)

theorem run_entrySymbols (e : String × Option String) (entries : List (String × Value))
    (name : String) {next : Expectation} (hnext : next = .name ∨ next = .nameOrClose)
    (rest : List Symbol) :
    run manner ⟨[.object entries name], next, none⟩ (entrySymbols e ++ rest) =
      run manner ⟨[.object ((e.1, ofOptional e.2) :: entries) e.1], .commaOrClose, none⟩ rest := by
  obtain ⟨n, v⟩ := e
  rcases hnext with rfl | rfl <;> cases manner <;> cases v <;> rfl

/-- The entries behind those that were read, up to the end of the object. -/
theorem run_intercalate (e : String × Option String) (es : List (String × Option String))
    (entries : List (String × Value)) (name : String) {next : Expectation}
    (hnext : next = .name ∨ next = .nameOrClose) :
    run manner ⟨[.object entries name], next, none⟩
        ([.comma].intercalate ((e :: es).map entrySymbols) ++ [.closeObject]) =
      some ⟨[], .nothing,
        some (.object (entries.reverse ++ (e :: es).map fun e => (e.1, ofOptional e.2)))⟩ := by
  induction es generalizing e entries name next with
  | nil =>
    rw [List.map_singleton, List.intercalate_singleton,
      run_entrySymbols manner e entries name hnext]
    simp [run, step, complete]
  | cons e' es ih =>
    rw [List.map_cons, List.map_cons, List.intercalate_cons_cons, ← List.map_cons,
      List.append_assoc, List.append_assoc, run_entrySymbols manner e entries name hnext]
    refine (ih e' ((e.1, ofOptional e.2) :: entries) e.1 (.inl rfl)).trans ?_
    simp

theorem run_start (es : List (String × Option String)) :
    run manner start
        (.openObject :: ([.comma].intercalate (es.map entrySymbols) ++ [.closeObject])) =
      some ⟨[], .nothing, some (objectOf es)⟩ := by
  have hopen (rest : List Symbol) : run manner start (.openObject :: rest) =
      run manner ⟨[.object [] ""], .nameOrClose, none⟩ rest := by
    cases manner <;> rfl
  rw [hopen]
  cases es with
  | nil => rfl
  | cons e es => exact run_intercalate manner e es [] "" (.inr rfl)

end Machine

/-- An object of texts and nulls is read back as it was written. -/
theorem readAsWritten?_json_objectOf (manner : Manner) (es : List (String × Option String)) :
    readAsWritten? manner (objectOf es).json = some (objectOf es) := by
  have hsymbols : symbols? (objectOf es).json.toList =
      some (.openObject :: ([.comma].intercalate (es.map entrySymbols) ++ [.closeObject])) := by
    rw [toList_json_objectOf, symbols?_cons (c := '\x7b') rfl rfl, List.drop_zero,
      symbols?_intercalate, symbols?]
    rfl
  rw [readAsWritten?, hsymbols, Option.bind_some, Machine.run_start]
  rfl

end TableSql.Json
