import TableSql.Inline
import TableSql.Record

/-!
# Statements

The statements of the dialect: reading, inserting, changing and deleting rows of one table,
aggregates, and schema statements that are accepted and ignored.

A statement is a structure around the things it compares and assigns, so its type has a parameter
for them. A *prepared* statement holds operands; a *bound* one holds values. Binding applies a
function to every operand and leaves the structure alone.

## Main definitions

* `Columns`, `SortKey`, `Filter`, `Select`.
* `AggregateShape`, `AggregatePlan`.
* `Statement`, `Statement.map`, `StatementKind`.
-/

namespace TableSql

/-- The columns of a result. -/
inductive Columns where
  | all
  /-- A list of columns, in this order. -/
  | named (columns : List String)
  deriving DecidableEq, Repr

/-- The columns as a list with commas. -/
def Columns.display : Columns → String
  | all => "*"
  | named columns => ",".intercalate columns

/-- The direction of a sort key. -/
inductive Direction where
  | ascending
  | descending
  deriving DecidableEq, Repr

/-- The keyword of a direction. -/
def Direction.keyword : Direction → Keyword
  | ascending => .ASC
  | descending => .DESC

/-- A column by which rows are sorted. -/
structure SortKey where
  column : String
  direction : Direction
  deriving DecidableEq, Repr

/-- The condition that a column equals something. Equality with null means that the column is
null or missing. -/
structure Filter (α : Type) where
  column : String
  value : α

/-- The filter with a function applied to what it compares with. -/
def Filter.map {α β : Type} (f : α → β) (x : Filter α) : Filter β :=
  ⟨x.column, f x.value⟩

/-- A filter in words. -/
def Filter.display (x : Filter Value) : String :=
  if x.value.isNull then x.column ++ " IS NULL" else x.column ++ " = " ++ x.value.json

/-- A reading of the rows of a table that pass all filters, sorted, from an offset on and up to a
limit. -/
structure Select (α : Type) where
  table : String
  columns : Columns
  filters : List (Filter α)
  order : List SortKey
  limit : Option Nat
  offset : Option Nat

/-- The reading with a function applied to what its filters compare with. -/
def Select.map {α β : Type} (f : α → β) (q : Select α) : Select β :=
  ⟨q.table, q.columns, q.filters.map (Filter.map f), q.order, q.limit, q.offset⟩

/-- What is known about an aggregate over one table: its function and argument, and what else its
select list holds. -/
structure AggregateShape (α : Type) where
  table : String
  /-- The function in upper case. -/
  function : String
  /-- The argument of the function as written. -/
  argument : String
  /-- The select list is the call alone, perhaps with an alias. -/
  bare : Bool
  /-- The names in the select list, in lower case. -/
  words : List String
  hasCase : Bool
  /-- The name that the select list gives the result. -/
  resultName : Option String
  filters : List (Filter α)
  /-- Every condition became a filter. -/
  exact : Bool

namespace AggregateShape

variable {α β : Type}

/-- The shape with a function applied to what its filters compare with. -/
def map (f : α → β) (s : AggregateShape α) : AggregateShape β :=
  ⟨s.table, s.function, s.argument, s.bare, s.words, s.hasCase, s.resultName,
    s.filters.map (Filter.map f), s.exact⟩

/-- Whether the select list has the name, given in lower case. -/
def mentions (s : AggregateShape α) (word : String) : Bool :=
  s.words.contains word

/-- Whether there is a filter on the column. -/
def hasFilter (s : AggregateShape α) (column : String) : Bool :=
  s.filters.any fun f => f.column = column

theorem hasFilter_iff {s : AggregateShape α} {column : String} :
    s.hasFilter column = true ↔ ∃ f ∈ s.filters, f.column = column := by
  simp [hasFilter]

end AggregateShape

/-- An aggregate statement: its shape, if it is an aggregate over one table in the form that the
dialect knows, and its text for a service that takes raw SQL. -/
structure AggregatePlan (α : Type) where
  shape : Option (AggregateShape α)
  text : List (Fragment α)

namespace AggregatePlan

variable {α β : Type}

/-- The plan with a function applied to what it compares with and writes in. -/
def map (f : α → β) (p : AggregatePlan α) : AggregatePlan β :=
  ⟨p.shape.map (AggregateShape.map f), p.text.map (Fragment.map f)⟩

/-- The text for a service that takes raw SQL. -/
def remoteSql (p : AggregatePlan Value) : String :=
  renderFragments p.text

end AggregatePlan

/-- A statement, around what it compares with and assigns. -/
inductive Statement (α : Type) where
  | select (q : Select α)
  | insert (table : String) (values : Record α)
  | update (table : String) (values : Record α) (filters : List (Filter α))
  | delete (table : String) (filters : List (Filter α))
  | aggregate (plan : AggregatePlan α)
  /-- A schema or transaction statement, with its first word in upper case. -/
  | schema (keyword : String)

/-- The kinds of statements, and of texts that are none. -/
inductive StatementKind where
  | select
  | insert
  | update
  | delete
  | aggregate
  | schema
  | unsupported
  deriving DecidableEq, Repr

/-- The name of a kind. -/
def StatementKind.name : StatementKind → String
  | select => "SELECT"
  | insert => "INSERT"
  | update => "UPDATE"
  | delete => "DELETE"
  | aggregate => "AGGREGATE"
  | schema => "SCHEMA_NOOP"
  | unsupported => "UNSUPPORTED"

namespace Statement

variable {α β γ : Type}

/-- The kind of a statement. -/
def kind : Statement α → StatementKind
  | select _ => .select
  | insert _ _ => .insert
  | update _ _ _ => .update
  | delete _ _ => .delete
  | aggregate _ => .aggregate
  | schema _ => .schema

/-- The statement with a function applied to everything it compares with and assigns. -/
def map (f : α → β) : Statement α → Statement β
  | select q => select (q.map f)
  | insert table values => insert table (values.map f)
  | update table values filters => update table (values.map f) (filters.map (Filter.map f))
  | delete table filters => delete table (filters.map (Filter.map f))
  | aggregate plan => aggregate (plan.map f)
  | schema keyword => schema keyword

@[simp]
theorem kind_map (f : α → β) (s : Statement α) : (s.map f).kind = s.kind := by
  cases s <;> rfl

end Statement

end TableSql
