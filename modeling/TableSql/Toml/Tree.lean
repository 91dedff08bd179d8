import TableSql.Toml.Scalar

/-!
# The tree of a settings file

A TOML document is a tree of tables. A table is *stated* by a header of its own, *implied* by the
header of a table inside it, or *dotted*: it came about through the dots of a key. What may still
be added to a table depends on this. A stated table is stated once; keys with dots add only to
tables that such keys made; and a table written between braces is closed.

## Main definitions

* `Toml.Node`, `Toml.Origin`, `Toml.Entries`.
* `Toml.Entries.assign?` — the entries with a value under a key.
* `Toml.Entries.state?`, `Toml.Entries.extend?` — the entries with a table stated by a header.
-/

namespace TableSql.Toml

/-- How a table came about. -/
inductive Origin where
  | stated
  | implied
  | dotted
  deriving DecidableEq, Repr

/-- A value of a document. -/
inductive Node where
  | scalar (s : Scalar)
  | array (items : List Node)
  /-- A table between braces. -/
  | inline (entries : List (String × Node))
  | table (origin : Origin) (entries : List (String × Node))
  /-- The tables stated under one name by headers with two brackets, the last one first. -/
  | tables (last : List (String × Node)) (former : List (List (String × Node)))

/-- The entries of a table. -/
abbrev Entries : Type :=
  List (String × Node)

namespace Entries

/-- The value under a name. -/
def get? (es : Entries) (name : String) : Option Node :=
  (es.find? fun e => e.1 = name).map Prod.snd

/-- The entries with a value in place of the one under a name. -/
def put (es : Entries) (name : String) (n : Node) : Entries :=
  (name, n) :: es.filter fun e => e.1 ≠ name

/-- The entries with a new value under a key with dots. `isOpen` tells whether the last name of
the key may be added to the table itself. -/
def assign? (v : Node) (isOpen : Bool) (es : Entries) : List String → Option Entries
  | [] => none
  | [name] => if isOpen ∧ (es.get? name).isNone then some (es.put name v) else none
  | name :: path =>
    match es.get? name with
    | none => (assign? v true [] path).map fun inner => es.put name (.table .dotted inner)
    | some (.table .dotted inner) =>
      (assign? v true inner path).map fun inner => es.put name (.table .dotted inner)
    | some (.table .implied inner) =>
      (assign? v false inner path).map fun inner => es.put name (.table .implied inner)
    | some (.tables last former) =>
      (assign? v false last path).map fun last => es.put name (.tables last former)
    | _ => none

/-- The entries with a change made to those of the table at a path of headers. Tables that are not
there yet are implied; of tables under one name the last is meant. -/
def change? (f : Entries → Option Entries) (es : Entries) : List String → Option Entries
  | [] => f es
  | name :: path =>
    match es.get? name with
    | none => (change? f [] path).map fun inner => es.put name (.table .implied inner)
    | some (.table origin inner) =>
      (change? f inner path).map fun inner => es.put name (.table origin inner)
    | some (.tables last former) =>
      (change? f last path).map fun last => es.put name (.tables last former)
    | _ => none

/-- The entries with a table stated under a name: a new one, or one that was implied. -/
def stateHere? (name : String) (es : Entries) : Option Entries :=
  match es.get? name with
  | none => some (es.put name (.table .stated []))
  | some (.table .implied inner) => some (es.put name (.table .stated inner))
  | _ => none

/-- The entries with a further table under a name. -/
def extendHere? (name : String) (es : Entries) : Option Entries :=
  match es.get? name with
  | none => some (es.put name (.tables [] []))
  | some (.tables last former) => some (es.put name (.tables [] (last :: former)))
  | _ => none

/-- Applies a change under the last name of a path to the table at the others. -/
def atPath? (f : String → Entries → Option Entries) (es : Entries) (path : List String) :
    Option Entries :=
  match path.getLast? with
  | some name => es.change? (f name) path.dropLast
  | none => none

/-- The entries with a table stated by a header. -/
def state? (es : Entries) (path : List String) : Option Entries :=
  es.atPath? stateHere? path

/-- The entries with a further table stated by a header with two brackets. -/
def extend? (es : Entries) (path : List String) : Option Entries :=
  es.atPath? extendHere? path

end Entries

end TableSql.Toml
