import TableSql.Token
import TableSql.Value

/-!
# Parameters and their markers

A statement refers to its parameters by markers of one of two kinds. Sequential markers `?` take
the parameters in turn; numbered markers name the parameter that they take, and then a bare `?` is
only a text. Which kind a statement uses is decided by whether it has a numbered marker at all.

Taking a parameter is separated from knowing its value. A marker becomes an *operand*, which says
which parameter it takes; `Bindings` then give every operand its value. So the structure of a
statement is found without its parameters, and only afterwards are they put in place.

## Main definitions

* `MarkerMode`, `MarkerMode.detect`.
* `Operand`, `Bindings`, `Bindings.value`.
* `Cursor`, `Cursor.take`, `Cursor.skip`, `Cursor.skipAll` — which parameter the next sequential
  marker takes.
-/

namespace TableSql

/-- The two kinds of markers. -/
inductive MarkerMode where
  | sequential
  | numbered
  deriving DecidableEq, Repr

namespace MarkerMode

/-- The name of the mode. -/
def name : MarkerMode → String
  | sequential => "Sequential"
  | numbered => "Numbered"

/-- Whether a token is a numbered marker. -/
def isNumbered : Token → Bool
  | .marker (.numbered _) => true
  | _ => false

/-- Numbered if the statement has a numbered marker, else sequential. -/
def detect (tokens : List Token) : MarkerMode :=
  if tokens.any isNumbered then numbered else sequential

end MarkerMode

/-! ### Operands and their values -/

/-- Where a value of a statement comes from: it is written in the statement, it is the parameter
with the given index, counted from zero, or it is the time at which the statement runs. -/
inductive Operand where
  | literal (v : Value)
  | parameter (index : Nat)
  | now

/-- What the operands of a statement stand for: its parameters, and the time at which it runs. -/
structure Bindings where
  params : List Value
  now : String

/-- The value of an operand. A parameter beyond the list is null. -/
def Bindings.value (b : Bindings) : Operand → Value
  | .literal v => v
  | .parameter k => b.params[k]?.getD .null
  | .now => .text b.now

/-! ### Taking parameters in turn -/

/-- The mode of a statement, and how many parameters its sequential markers have taken so far. -/
structure Cursor where
  mode : MarkerMode
  used : Nat
  deriving DecidableEq, Repr

namespace Cursor

/-- Before the first marker. -/
def start (mode : MarkerMode) : Cursor :=
  ⟨mode, 0⟩

/-- The operand of a marker. A sequential marker takes the next parameter. A numbered one takes
the parameter with its number, and number zero takes none and is null. Among numbered markers a
bare `?` is a text. -/
def take (c : Cursor) : Marker → Operand × Cursor
  | .next =>
    match c.mode with
    | .sequential => (.parameter c.used, ⟨c.mode, c.used + 1⟩)
    | .numbered => (.literal (.text "?"), c)
  | .numbered 0 => (.literal .null, c)
  | .numbered (n + 1) => (.parameter n, c)

/-- Passes over a marker: a sequential one takes its parameter, whose value is not used. -/
def skip (c : Cursor) (m : Marker) : Cursor :=
  (c.take m).2

/-- Passes over all markers of a list of tokens. -/
def skipAll (c : Cursor) (tokens : List Token) : Cursor :=
  (tokens.filterMap Token.marker?).foldl skip c

@[simp]
theorem mode_take (c : Cursor) (m : Marker) : (c.take m).2.mode = c.mode := by
  rcases c with ⟨_ | _, n⟩ <;> rcases m with _ | _ | _ <;> rfl

@[simp]
theorem mode_skipAll (c : Cursor) (tokens : List Token) : (c.skipAll tokens).mode = c.mode := by
  unfold skipAll
  induction tokens.filterMap Token.marker? generalizing c with
  | nil => rfl
  | cons m ms ih => rw [List.foldl_cons, ih, skip, mode_take]

/-- Numbered markers leave the cursor as it is. -/
theorem take_of_numbered {c : Cursor} (h : c.mode = .numbered) (m : Marker) :
    (c.take m).2 = c := by
  rcases m with _ | _ | _ <;> simp [take, h]

end Cursor

end TableSql
