import TableSql.Json.Pretty

/-!
# Rows for a reader

Rows are shown as a grid or as indented JSON. The columns of a grid are those of the first row: a
further column of another row is not shown, and a cell that a row lacks is empty. A column is as
wide as the longest text in it, its name included, counted in bytes of UTF-8; a shorter text is
filled up with blanks, one for each missing character.

## Main definitions

* `CommandLine.Grid`, `CommandLine.Grid.ofRows` — a header and lines of cells.
* `CommandLine.Grid.widths`, `CommandLine.Grid.lines` — its layout.
-/

namespace TableSql.CommandLine

/-- A text filled up with blanks at its end. -/
def fillRight (width : Nat) (s : String) : String :=
  s ++ String.ofList (List.replicate (width - s.length) ' ')

/-- A text filled up with blanks at its start. -/
def fillLeft (width : Nat) (s : String) : String :=
  String.ofList (List.replicate (width - s.length) ' ') ++ s

/-- A line of a number of equal characters. -/
def rule (length : Nat) : String :=
  String.ofList (List.replicate length '─')

/-- The texts of a grid. -/
structure Grid where
  header : List String
  /-- The cells of each line; there is none where a row lacks the column. -/
  cells : List (List (Option String))
  deriving DecidableEq, Repr

namespace Grid

/-- The grid of rows, with the given columns. -/
def ofColumns (columns : List String) (rows : List Row) : Grid where
  header := columns
  cells := rows.map fun row => columns.map fun c => (row.get? c).map Value.shown

/-- The grid of rows, with the columns of the first one. -/
def ofRows (rows : List Row) : Grid :=
  ofColumns ((rows.head?.map Record.names).getD []) rows

/-- The wider of a width and that of a cell. -/
def widen (width : Nat) (cell : Option String) : Nat :=
  max width ((cell.map String.utf8ByteSize).getD 0)

/-- The widths of the columns. -/
def widths (g : Grid) : List Nat :=
  g.cells.foldl (fun ws line => ws.zipWith widen line) (g.header.map String.utf8ByteSize)

/-- A line of cells. -/
def line (widths : List Nat) (cells : List String) : String :=
  " │ ".intercalate (widths.zipWith fillRight cells)

/-- The lines of the grid: its header, a rule, and its rows. -/
def lines (g : Grid) : List String :=
  let ws := g.widths
  line ws g.header :: "─┼─".intercalate (ws.map rule) ::
    g.cells.map fun cells => line ws (cells.map fun c => c.getD "")

end Grid

/-- Lines as a text, each ended by a line break. -/
def textOfLines (lines : List String) : String :=
  String.join (lines.map (· ++ "\n"))

end TableSql.CommandLine
