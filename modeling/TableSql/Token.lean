import TableSql.Keyword

/-!
# Tokens

The tokens of a statement, and the lexemes that a statement falls into: each token with the text
it was written as and the blanks and comments in front of it.

## Main definitions

* `Marker` — the markers of parameters.
* `Token`, `Token.keyword?`, `Token.name?`, `Token.marker?`.
* `Lexeme`, `Lexeme.stop`.
* `sourceText` — the text of consecutive lexemes as written.
-/

namespace TableSql

/-- A marker of a parameter: `?` for the next one, or a numbered one, counted from one. -/
inductive Marker where
  | next
  | numbered (n : Nat)
  deriving DecidableEq, Repr

/-- A token of a statement. -/
inductive Token where
  /-- A bare name or keyword, as written. -/
  | word (w : String)
  /-- A name between double quotes or grave accents. -/
  | quotedName (w : String)
  /-- A text between apostrophes. -/
  | string (s : String)
  /-- A number, as written. -/
  | number (s : String)
  | marker (m : Marker)
  | openParen
  | closeParen
  | comma
  | equals
  | star
  | dot
  | semicolon
  /-- Any other operator. -/
  | operator (s : String)
  deriving DecidableEq, Repr

namespace Token

/-- The keyword that a bare word spells. A quoted name is never a keyword. -/
def keyword? : Token → Option Keyword
  | word w => Keyword.ofWord? w
  | _ => none

/-- Whether the token is the given keyword. -/
def isKeyword (k : Keyword) (t : Token) : Bool :=
  t.keyword? = some k

/-- The name that a bare or quoted name stands for. -/
def name? : Token → Option String
  | word w => some w
  | quotedName w => some w
  | _ => none

/-- The marker that the token is. -/
def marker? : Token → Option Marker
  | marker m => some m
  | _ => none

/-- Whether the token is a word that names an aggregate function. -/
def isAggregateWord : Token → Bool
  | word w => isAggregateFunction w
  | _ => false

end Token

/-- The number of bytes of a text in UTF-8. -/
def Text.byteCount (cs : List Char) : Nat :=
  cs.foldl (fun n c => n + c.utf8Size) 0

/-- A token as it stands in a statement: the blanks and comments in front of it, its own text, and
the byte at which that text starts. -/
structure Lexeme where
  gap : List Char
  source : List Char
  token : Token
  start : Nat
  deriving DecidableEq, Repr

/-- The byte behind the text of the lexeme. -/
def Lexeme.stop (l : Lexeme) : Nat :=
  l.start + Text.byteCount l.source

/-- The text of consecutive lexemes as written, from the first one's own text on. -/
def sourceText : List Lexeme → List Char
  | [] => []
  | l :: ls => l.source ++ ls.flatMap fun l => l.gap ++ l.source

end TableSql
