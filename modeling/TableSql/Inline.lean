import TableSql.Literal
import TableSql.Token.Scan

/-!
# Statements with their parameters written in

A service that takes raw SQL takes no separate list of parameters, so the parameters are written
into the text of the statement as literals. The text is kept as *fragments*: pieces of the
statement as written, and operands in the places of the markers. Every marker is replaced, except
a bare `?` among numbered markers, which stays as it is.

## Main definitions

* `Fragment`, `Fragment.map`, `Fragment.render`.
* `Scan.fragments` — the text of a statement with operands in place of its markers.
* `inline` — the text with the values of its parameters.
-/

namespace TableSql

/-- A piece of text as written, or something in the place of a marker. -/
inductive Fragment (α : Type) where
  | verbatim (text : List Char)
  | operand (a : α)

namespace Fragment

variable {α β : Type}

/-- The fragment with a function applied to an operand. -/
def map (f : α → β) : Fragment α → Fragment β
  | verbatim text => verbatim text
  | operand a => operand (f a)

/-- The text of a fragment whose operand is known. -/
def render : Fragment Value → List Char
  | verbatim text => text
  | operand v => v.sqlLiteral.toList

end Fragment

/-- The fragments of a list of lexemes. -/
def lexemeFragments (c : Cursor) : List Lexeme → List (Fragment Operand)
  | [] => []
  | l :: ls =>
    match l.token.marker? with
    | some m =>
      if c.mode = .numbered ∧ m = .next then
        .verbatim (l.gap ++ l.source) :: lexemeFragments c ls
      else
        let (a, c) := c.take m
        .verbatim l.gap :: .operand a :: lexemeFragments c ls
    | none => .verbatim (l.gap ++ l.source) :: lexemeFragments c ls

/-- The text of a statement with operands in the places of its markers. -/
def Scan.fragments (s : Scan) (mode : MarkerMode) : List (Fragment Operand) :=
  lexemeFragments (.start mode) s.lexemes ++ [.verbatim s.trailing]

/-- The text of fragments whose operands are known. -/
def renderFragments (fs : List (Fragment Value)) : String :=
  String.ofList (fs.flatMap Fragment.render)

/-- The text of a statement with its parameters written in. -/
def inline (b : Bindings) (s : Scan) (mode : MarkerMode) : String :=
  renderFragments ((s.fragments mode).map (Fragment.map b.value))

end TableSql
