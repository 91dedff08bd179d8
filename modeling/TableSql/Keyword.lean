import TableSql.Text.Caseless

/-!
# Keywords

The words with a meaning of their own in statements. A keyword is recognised in any mixture of
upper and lower case. The reserved ones never name a table or a column unless they are quoted; the
others, such as `INSERT` or `NULL`, may.

## Main definitions

* `Keyword`, `Keyword.spelling`, `Keyword.ofWord?`.
* `Keyword.isReserved` — the words that cannot be bare names.
* `Keyword.endsCondition`, `Keyword.isSchema` — the words that begin a clause behind the
  conditions, and those that begin a schema or transaction statement.
* `isAggregateFunction` — the names of the aggregate functions.
-/

namespace TableSql

/-- The words with a meaning of their own. -/
inductive Keyword where
  | SELECT | FROM | WHERE | AND | OR | ORDER | BY | LIMIT | OFFSET | SET | VALUES | INTO | JOIN
  | ON | GROUP | HAVING | UNION
  | INSERT | UPDATE | DELETE
  | CREATE | ALTER | PRAGMA | BEGIN | COMMIT | END | ROLLBACK
  | ASC | DESC | IS | NULL | AS | CASE | TRUE | FALSE | CURRENT_TIMESTAMP
  deriving DecidableEq, Repr

namespace Keyword

/-- The keyword in upper case. -/
def spelling : Keyword → String
  | SELECT => "SELECT"
  | FROM => "FROM"
  | WHERE => "WHERE"
  | AND => "AND"
  | OR => "OR"
  | ORDER => "ORDER"
  | BY => "BY"
  | LIMIT => "LIMIT"
  | OFFSET => "OFFSET"
  | SET => "SET"
  | VALUES => "VALUES"
  | INTO => "INTO"
  | JOIN => "JOIN"
  | ON => "ON"
  | GROUP => "GROUP"
  | HAVING => "HAVING"
  | UNION => "UNION"
  | INSERT => "INSERT"
  | UPDATE => "UPDATE"
  | DELETE => "DELETE"
  | CREATE => "CREATE"
  | ALTER => "ALTER"
  | PRAGMA => "PRAGMA"
  | BEGIN => "BEGIN"
  | COMMIT => "COMMIT"
  | END => "END"
  | ROLLBACK => "ROLLBACK"
  | ASC => "ASC"
  | DESC => "DESC"
  | IS => "IS"
  | NULL => "NULL"
  | AS => "AS"
  | CASE => "CASE"
  | TRUE => "TRUE"
  | FALSE => "FALSE"
  | CURRENT_TIMESTAMP => "CURRENT_TIMESTAMP"

/-- The reserved keywords. -/
def reserved : List Keyword :=
  [SELECT, FROM, WHERE, AND, OR, ORDER, BY, LIMIT, OFFSET, SET, VALUES, INTO, JOIN, ON, GROUP,
    HAVING, UNION]

/-- The keywords of schema and transaction statements. -/
def schema : List Keyword :=
  [CREATE, ALTER, PRAGMA, BEGIN, COMMIT, END, ROLLBACK]

/-- Every keyword. -/
def all : List Keyword :=
  reserved ++ [INSERT, UPDATE, DELETE] ++ schema ++
    [ASC, DESC, IS, NULL, AS, CASE, TRUE, FALSE, CURRENT_TIMESTAMP]

/-- The keyword that a word spells, in any mixture of upper and lower case. -/
def ofWord? (w : String) : Option Keyword :=
  all.find? fun k => k.spelling = Text.upper w

/-- Whether the keyword cannot be a bare name. -/
def isReserved (k : Keyword) : Bool :=
  reserved.contains k

/-- Whether the keyword begins a schema or transaction statement. -/
def isSchema (k : Keyword) : Bool :=
  schema.contains k

/-- Whether the keyword begins a clause that may stand behind the conditions. -/
def endsCondition (k : Keyword) : Bool :=
  [ORDER, LIMIT, OFFSET, GROUP, HAVING].contains k

end Keyword

/-- The names of the aggregate functions. -/
def aggregateFunctions : List String :=
  ["SUM", "COUNT", "AVG", "MIN", "MAX"]

/-- Whether a word names an aggregate function, in any mixture of upper and lower case. -/
def isAggregateFunction (w : String) : Bool :=
  aggregateFunctions.contains (Text.upper w)

end TableSql
