import TableSql.Proofs.Form.Statement
import TableSql.Proofs.Printing.Layout

/-!
# Printed clauses

The clauses of a statement as tokens, every value a marker `?`. They are written clauses with the
keywords in upper case and the names between double quotes, every sort key with its direction, so
the readers take them back.

## Main definitions

* `joined` — lists of tokens with a token between them.
* `columnTokens`, `whereTokens`, `orderTokens`, `countTokens` — printed clauses.
* `Piece.write` — the token of a piece, with a given spelling of names.

## Main results

* `columnTokens_eq_map`, `assignmentTokens_eq_map`, `whereTokens_eq_map`, `orderTokens_eq_map`,
  `countTokens_eq_map` and their like — printed clauses are written ones.
-/

namespace TableSql

/-! ### Tokens of clauses -/

/-- Lists of tokens with a token between them. -/
def joined (separator : Token) : List (List Token) → List Token
  | [] => []
  | [ts] => ts
  | ts :: us :: more => ts ++ separator :: joined separator (us :: more)

/-- The tokens of names with commas between them. -/
def nameTokens (ws : List String) : List Token :=
  joined .comma (ws.map fun w => [.quotedName w])

/-- The tokens of a name that equals a marker. -/
def equation (w : String) : List Token :=
  [.quotedName w, .equals, .marker .next]

/-- The tokens of the columns of a reading. -/
def columnTokens : Columns → List Token
  | .all => [.star]
  | .named ws => nameTokens ws

/-- So many markers with commas between them. -/
def markerTokens (n : Nat) : List Token :=
  joined .comma (List.replicate n [.marker .next])

/-- The assignments to columns, with commas between them. -/
def assignmentTokens (columns : List String) : List Token :=
  joined .comma (columns.map equation)

/-- The conditions of filters on columns, joined by `AND`. -/
def conditionTokens (columns : List String) : List Token :=
  joined Keyword.AND.token (columns.map equation)

/-- The clause of filters, if there are any. -/
def whereTokens (columns : List String) : List Token :=
  if columns = [] then [] else Keyword.WHERE.token :: conditionTokens columns

/-- The tokens of sort keys, each with its direction. -/
def keyTokens (keys : List SortKey) : List Token :=
  joined .comma (keys.map fun key => [.quotedName key.column, key.direction.keyword.token])

/-- The clause of sort keys, if there are any. -/
def orderTokens (keys : List SortKey) : List Token :=
  if keys = [] then [] else Keyword.ORDER.token :: Keyword.BY.token :: keyTokens keys

/-- The clause of a count, if there is one. -/
def countTokens (k : Keyword) : Option Nat → List Token
  | some n => [k.token, .number (Decimal.text n)]
  | none => []

/-! ### Keywords and quoted names -/

namespace Grammar

@[simp]
theorem startsWith_token (k k' : Keyword) (ts : List Token) :
    startsWith k' (k.token :: ts) = decide (k = k') := by
  simp [startsWith]

@[simp]
theorem keyword_token (k : Keyword) (ts : List Token) : keyword k (k.token :: ts) = .ok ts := by
  simp [keyword]

theorem name_quotedName (w : String) {rest : List Token} (hdot : rest.head? ≠ some .dot) :
    name (.quotedName w :: rest) = .ok (w, rest) :=
  name_of_isNameToken (show IsNameToken w (.quotedName w) from rfl) hdot

end Grammar

/-! ### Printed clauses are written ones -/

/-- The token of a piece. Keywords are in upper case, and names are written as given. -/
def Piece.write (ofName : String → Token) : Piece → Token
  | keyword k => k.token
  | name w => ofName w
  | token t => t

theorem map_write_listed (ofName : String → Token) (separator : Piece) (pss : List (List Piece)) :
    (listed separator pss).map (Piece.write ofName) =
      joined (separator.write ofName) (pss.map (List.map (Piece.write ofName))) := by
  induction pss with
  | nil => rfl
  | cons ps pss ih =>
    cases pss with
    | nil => simp [listed, joined]
    | cons qs pss =>
      rw [listed_cons_cons, List.map_append, List.map_cons, ih]
      rfl

theorem nameTokens_eq_map (ws : List String) :
    nameTokens ws = (namePieces ws).map (Piece.write .quotedName) := by
  rw [namePieces, map_write_listed, List.map_map]
  rfl

theorem columnTokens_eq_map (cols : Columns) :
    columnTokens cols = (columnPieces cols).map (Piece.write .quotedName) := by
  cases cols with
  | all => rfl
  | named ws => exact nameTokens_eq_map ws

theorem markerTokens_eq_map (n : Nat) :
    markerTokens n = (markerPieces n).map (Piece.write .quotedName) := by
  rw [markerPieces, map_write_listed, List.map_replicate]
  rfl

theorem assignmentTokens_eq_map (ws : List String) :
    assignmentTokens ws = (assignmentPieces ws).map (Piece.write .quotedName) := by
  rw [assignmentPieces, map_write_listed, List.map_map]
  rfl

theorem whereTokens_eq_map (ws : List String) :
    whereTokens ws = (wherePieces ws).map (Piece.write .quotedName) := by
  unfold whereTokens wherePieces
  split
  · rfl
  · rw [List.map_cons, conditionPieces, map_write_listed, List.map_map]
    rfl

/-- A sort key that is written with its direction. -/
def SortKey.form (key : SortKey) : SortForm :=
  ⟨key.column, some key.direction⟩

theorem orderTokens_eq_map (keys : List SortKey) :
    orderTokens keys = (orderPieces (keys.map SortKey.form)).map (Piece.write .quotedName) := by
  unfold orderTokens orderPieces
  simp only [List.map_eq_nil_iff]
  split
  · rfl
  · rw [List.map_cons, List.map_cons, map_write_listed, List.map_map, List.map_map]
    rfl

/-- A count that is written in digits. -/
def digitsForm (n : Nat) : CountForm :=
  .number (Decimal.text n)

theorem countTokens_eq_map (k : Keyword) (n : Option Nat) :
    countTokens k n = (countPieces k (n.map digitsForm)).map (Piece.write .quotedName) := by
  cases n <;> rfl

/-- A form is written by giving each of its names a token that stands for it. -/
theorem Form.writes_map {naming : String → Token → Prop} {ofName : String → Token} {f : Form}
    (h : ∀ w ∈ f.names, naming w (ofName w)) :
    f.Writes naming (f.pieces.map (Piece.write ofName)) := by
  refine ⟨_, 0, written_map fun p hp => ?_, (List.append_nil _).symm⟩
  cases p with
  | keyword k => simp [Piece.Is, Piece.write]
  | name w => exact h w (mem_names.2 hp)
  | token t => rfl

/-! ### Counts in digits -/

theorem Grammar.countAt?_digitsForm (read : CountReader) (k : Nat) {n : Option Nat}
    (hn : ∀ m ∈ n, m < UInt64.size) : countAt? read k (n.map digitsForm) = some (n, k) := by
  cases n with
  | none => rfl
  | some n =>
    rw [Option.map_some, digitsForm, countAt?, Decimal.text, String.toList_ofList,
      Decimal.unsigned?_digits (hn n rfl)]
    rfl

end TableSql
