import TableSql.Statement.Condition

/-!
# Clauses

The parts that statements are put together from: keywords and marks that must stand at a place,
names and lists of names, counts of rows, sort keys, and the clauses of a reading behind `FROM`.

Each reader takes the tokens that are left and gives back those behind what it has read. A fault
is placed in front of the token at which the reader would have needed another one.

## Main definitions

* `Grammar.keyword`, `Grammar.mark`, `Grammar.name`, `Grammar.names`, `Grammar.finish`.
* `Grammar.CountReader`, `Grammar.count`, `Grammar.countClause`, `Grammar.sortKeys`.
* `Grammar.Source`, `Grammar.Source.read` — the clauses of a reading from the table's name on.

## Main results

* `Grammar.length_of_name` — a name is one token.
-/

namespace TableSql

namespace Grammar

/-- What is read from the front of a list of tokens, and the tokens behind it. -/
abbrev Reading (α : Type) : Type :=
  Except Fault (α × List Token)

/-- Whether the first token is the given keyword. -/
def startsWith (k : Keyword) (ts : List Token) : Bool :=
  (ts.head?.map (Token.isKeyword k)).getD false

/-- The tokens behind a keyword that must stand first. -/
def keyword (k : Keyword) (ts : List Token) : Except Fault (List Token) :=
  if startsWith k ts then .ok ts.tail else .error (.before ts.length (.expectedKeyword k))

/-- The tokens behind a mark that must stand first. -/
def mark (t : Token) (m : RequiredMark) (ts : List Token) : Except Fault (List Token) :=
  if ts.head? = some t then .ok ts.tail else .error (.before ts.length (.expectedMark m))

/-- Whether a word is a reserved keyword. -/
def isReserved (w : String) : Bool :=
  (Keyword.ofWord? w).any Keyword.isReserved

/-- The name that a token is: a quoted name, or a word that is not reserved. -/
def freeName? : Token → Option String
  | .word w => if isReserved w then none else some w
  | .quotedName w => some w
  | _ => none

/-- A name. A name with a point behind it would be qualified, which is refused. -/
def name (ts : List Token) : Reading String :=
  match ts with
  | [] => .error (.before 0 .expectedName)
  | t :: rest =>
    match freeName? t with
    | none => .error (.before ts.length .expectedName)
    | some w =>
      if rest.head? = some .dot then .error (.before rest.length .qualifiedName)
      else .ok (w, rest)

/-- A name is one token. -/
theorem length_of_name {ts rest : List Token} {w : String} (h : name ts = .ok (w, rest)) :
    ts.length = rest.length + 1 := by
  unfold name at h
  split at h
  · cases h
  · split at h
    · cases h
    · split at h
      · cases h
      · cases h
        rfl

/-- One or more names with commas between them. -/
def names (ts : List Token) : Reading (List String) :=
  match _h : name ts with
  | .error e => .error e
  | .ok (w, .comma :: rest) =>
    match names rest with
    | .ok (ws, rest) => .ok (w :: ws, rest)
    | .error e => .error e
  | .ok (w, rest) => .ok ([w], rest)
termination_by ts.length
decreasing_by
  have := length_of_name _h
  simp only [List.length_cons] at this
  omega

/-- Accepts semicolons and nothing else. -/
def finish (ts : List Token) : Except Fault Unit :=
  match ts.dropWhile (· = .semicolon) with
  | [] => .ok ()
  | t :: rest => .error (.leftover (t :: rest).length)

/-! ### Counts of rows -/

/-- The count of rows that an operand stands for, if it does. -/
abbrev CountReader : Type :=
  Operand → Option Nat

/-- A count of rows: a number as written, or a marker whose parameter is a count. -/
def count (read : CountReader) (c : Cursor) (ts : List Token) : Reading (Nat × Cursor) :=
  match ts with
  | .number s :: rest =>
    match Decimal.unsigned? s.toList with
    | some n => .ok ((n, c), rest)
    | none => .error (.before ts.length .expectedCount)
  | .marker m :: rest =>
    match read (c.take m).1 with
    | some n => .ok ((n, (c.take m).2), rest)
    | none => .error (.before ts.length .expectedCount)
  | _ => .error (.before ts.length .expectedCount)

/-- A count of rows behind its keyword, if the keyword stands first. -/
def countClause (k : Keyword) (read : CountReader) (c : Cursor) (ts : List Token) :
    Reading (Option Nat × Cursor) :=
  if startsWith k ts then
    match count read c ts.tail with
    | .ok ((n, c), rest) => .ok ((some n, c), rest)
    | .error e => .error e
  else .ok ((none, c), ts)

/-! ### Sort keys -/

/-- The direction at the front of the tokens: ascending unless `DESC` is written. -/
def direction (ts : List Token) : Direction × List Token :=
  if startsWith .DESC ts then (.descending, ts.tail)
  else if startsWith .ASC ts then (.ascending, ts.tail)
  else (.ascending, ts)

theorem direction_length_le (ts : List Token) : (direction ts).2.length ≤ ts.length := by
  unfold direction
  split
  · simp
  · split <;> simp

/-- One or more sort keys with commas between them. -/
def sortKeys (ts : List Token) : Reading (List SortKey) :=
  match _h : name ts with
  | .error e => .error e
  | .ok (w, behind) =>
    match _h' : direction behind with
    | (d, .comma :: rest) =>
      match sortKeys rest with
      | .ok (keys, rest) => .ok (⟨w, d⟩ :: keys, rest)
      | .error e => .error e
    | (d, rest) => .ok ([⟨w, d⟩], rest)
termination_by ts.length
decreasing_by
  have := length_of_name _h
  have hd := direction_length_le behind
  rw [_h'] at hd
  simp only [List.length_cons] at this hd
  omega

/-- The sort keys behind `ORDER BY`, if `ORDER` stands first. -/
def orderClause (ts : List Token) : Reading (List SortKey) :=
  if startsWith .ORDER ts then
    match keyword .BY ts.tail with
    | .ok rest => sortKeys rest
    | .error e => .error e
  else .ok ([], ts)

/-- The conjuncts behind `WHERE`, if it stands first. -/
def whereClause (ts : List Token) : Reading (List (List Token)) :=
  if startsWith .WHERE ts then conjuncts ts.tail else .ok ([], ts)

/-! ### Reading from a table -/

/-- What a reading says behind `FROM`: its table, its conditions, each with the filter that it
became, its sort keys, and its limit and offset. -/
structure Source where
  table : String
  conditions : List (Option (Filter Operand))
  order : List SortKey
  limit : Option Nat
  offset : Option Nat

/-- The filters of the conditions that were understood. -/
def Source.filters (s : Source) : List (Filter Operand) :=
  s.conditions.filterMap id

/-- The clauses of a reading from the table's name on, to the end of the statement. -/
def Source.read (read : CountReader) (c : Cursor) (ts : List Token) : Except Fault Source := do
  let (table, ts) ← name ts
  let (spans, ts) ← whereClause ts
  let (conditions, c) := c.conditions spans
  let (order, ts) ← orderClause ts
  let ((limit, c), ts) ← countClause .LIMIT read c ts
  let ((offset, _), ts) ← countClause .OFFSET read c ts
  finish ts
  return ⟨table, conditions, order, limit, offset⟩

end Grammar

end TableSql
