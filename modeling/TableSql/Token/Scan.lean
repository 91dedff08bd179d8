import TableSql.SyntaxError
import TableSql.Text.Blank
import TableSql.Text.Quoted
import TableSql.Token

/-!
# Scanning a statement

A statement falls into tokens with gaps between them. A gap consists of ASCII blanks, comments
from `--` to the end of the line, and comments between `/*` and `*/`. At every place the longest
gap is taken first, then one token:

* a marker: `?`, or `?` or `$` with digits;
* a text between apostrophes, in which an apostrophe is written twice;
* a name between double quotes or grave accents, not empty;
* a number: digits, perhaps with a sign `-` in front and a fraction;
* a word: a letter or underscore, then letters, digits and underscores, all of them ASCII;
* a mark or an operator, the operators of two characters before those of one.

The reader of a token and the reader of a gap say how many characters they take, so that the
lexemes of a statement are pieces of its text and nothing is lost between them.

## Main definitions

* `gapLength` — the number of characters of the gap at the front of a text.
* `Token.read?` — the token that begins with a character, and its length.
* `Scan`, `scan`.

## Main results

* `Scan.source_scanFrom` — the lexemes and gaps of a statement make up its text.
-/

namespace TableSql

/-! ### Gaps -/

/-- The length of what follows `--` up to the end of the line. A carriage return ends a line only
together with a line feed; a line that meets one alone makes no comment. -/
def lineCommentLength? (cs : List Char) : Option Nat :=
  let body := cs.takeWhile fun c => c != '\n' && c != '\r'
  match cs.drop body.length with
  | '\r' :: '\n' :: _ => some body.length
  | '\r' :: _ => none
  | _ => some body.length

/-- The length of what follows `/*` up to and including the first `*/`. -/
def blockCommentLength? : List Char → Option Nat
  | [] => none
  | '*' :: '/' :: _ => some 2
  | _ :: cs => (blockCommentLength? cs).map (· + 1)

/-- How many of the characters `cs` belong to a comment that begins with `c`; `none` if no complete
comment begins there. -/
def commentLength? (c : Char) (cs : List Char) : Option Nat :=
  match c, cs with
  | '-', '-' :: cs => (lineCommentLength? cs).map (· + 1)
  | '/', '*' :: cs => (blockCommentLength? cs).map (· + 1)
  | _, _ => none

/-- The number of characters of blanks and comments at the front of a text. -/
def gapLength : List Char → Nat
  | [] => 0
  | c :: cs =>
    if Text.isLineBlank c then 1 + gapLength cs
    else
      match commentLength? c cs with
      | some n => 1 + n + gapLength (cs.drop n)
      | none => 0
termination_by cs => cs.length
decreasing_by all_goals simp only [List.length_cons, List.length_drop]; omega

/-! ### Tokens -/

namespace Token

/-- The characters that begin a word. -/
def beginsWord (c : Char) : Bool :=
  c.isAlpha || c == '_'

/-- The characters of a word behind its first one. -/
def continuesWord (c : Char) : Bool :=
  c.isAlphanum || c == '_'

/-- The number of a numbered marker; zero for one that does not fit into 64 bits. -/
def markerNumber (digits : List Char) : Nat :=
  let n := Decimal.value digits
  if n < UInt64.size then n else 0

/-- A marker that begins with `c`, with the digits at the front of `cs`. -/
def readMarker? (c : Char) (cs : List Char) : Option (Token × Nat) :=
  let digits := cs.takeWhile Char.isDigit
  if c = '?' ∨ c = '$' then
    if digits ≠ [] then some (marker (.numbered (markerNumber digits)), digits.length)
    else if c = '?' then some (marker .next, 0)
    else none
  else none

/-- A text between apostrophes. -/
def readString? (c : Char) (cs : List Char) : Option (Token × Nat) :=
  if c = '\'' then
    (Text.readQuoted? '\'' cs).map fun (text, n) => (string (String.ofList text), n)
  else none

/-- A name between double quotes or grave accents. -/
def readQuotedName? (c : Char) (cs : List Char) : Option (Token × Nat) :=
  if c = '"' ∨ c = '\x60' then
    let name := cs.takeWhile (· != c)
    if name ≠ [] ∧ name.length < cs.length then
      some (quotedName (String.ofList name), name.length + 1)
    else none
  else none

/-- The length of the digits at the front of `cs`, with the fraction behind them. -/
def numberLength (cs : List Char) : Nat :=
  let whole := (cs.takeWhile Char.isDigit).length
  match cs.drop whole with
  | '.' :: cs =>
    let fraction := (cs.takeWhile Char.isDigit).length
    if fraction = 0 then whole else whole + 1 + fraction
  | _ => whole

/-- A number: digits, perhaps with a sign in front and a fraction behind. -/
def readNumber? (c : Char) (cs : List Char) : Option (Token × Nat) :=
  if c.isDigit then
    let n := numberLength (c :: cs) - 1
    some (number (String.ofList (c :: cs.take n)), n)
  else if c = '-' ∧ (cs.head?.map Char.isDigit) = some true then
    let n := numberLength cs
    some (number (String.ofList (c :: cs.take n)), n)
  else none

/-- A word. -/
def readWord? (c : Char) (cs : List Char) : Option (Token × Nat) :=
  if beginsWord c then
    let tail := cs.takeWhile continuesWord
    some (word (String.ofList (c :: tail)), tail.length)
  else none

/-- The operators of two characters. -/
def longOperators : List (Char × Char) :=
  [('<', '='), ('>', '='), ('<', '>'), ('!', '='), ('|', '|')]

/-- The operators of one character. -/
def shortOperators : List Char :=
  ['<', '>', '+', '-', '/', '%']

/-- A mark or an operator of one character. -/
def readShort? (c : Char) : Option Token :=
  match c with
  | '(' => some openParen
  | ')' => some closeParen
  | ',' => some comma
  | '=' => some equals
  | '*' => some star
  | '.' => some dot
  | ';' => some semicolon
  | c => if shortOperators.contains c then some (operator (String.ofList [c])) else none

/-- A mark or an operator. -/
def readSign? (c : Char) (cs : List Char) : Option (Token × Nat) :=
  let short := (readShort? c).map fun t => (t, 0)
  match cs with
  | d :: _ =>
    if longOperators.contains (c, d) then some (operator (String.ofList [c, d]), 1) else short
  | [] => short

/-- The token that begins with the character `c`, and how many of the characters `cs` behind `c`
belong to it. -/
def read? (c : Char) (cs : List Char) : Option (Token × Nat) :=
  readMarker? c cs <|> readString? c cs <|> readQuotedName? c cs <|> readNumber? c cs <|>
    readWord? c cs <|> readSign? c cs

end Token

/-! ### Statements -/

/-- The lexemes of a statement, and the gap behind the last one. -/
structure Scan where
  lexemes : List Lexeme
  trailing : List Char
  deriving DecidableEq, Repr

namespace Scan

/-- The text that was scanned. -/
def source (s : Scan) : List Char :=
  s.lexemes.flatMap (fun l => l.gap ++ l.source) ++ s.trailing

/-- The tokens without their texts. -/
def tokens (s : Scan) : List Token :=
  s.lexemes.map Lexeme.token

/-- The byte at which a lexeme starts, or the number of bytes of the text for the place behind the
last lexeme. -/
def position (s : Scan) (index : Nat) : Nat :=
  match s.lexemes[index]? with
  | some l => l.start
  | none => Text.byteCount s.source

/-- The text of the `count` lexemes from the one at `index` on. -/
def excerpt (s : Scan) (index count : Nat) : String :=
  String.ofList (sourceText ((s.lexemes.drop index).take count))

end Scan

/-- Why no token begins with the character. -/
def scanFault (c : Char) : SyntaxError.Cause :=
  if c = '\'' then .unterminatedText else .unexpectedCharacter c

/-- Scans a text that starts at the given byte of the statement. -/
def scanFrom (start : Nat) (cs : List Char) : Except SyntaxError Scan :=
  let gap := cs.take (gapLength cs)
  match _h : cs.drop (gapLength cs) with
  | [] => .ok ⟨[], gap⟩
  | c :: rest =>
    let here := start + Text.byteCount gap
    match Token.read? c rest with
    | none => .error ⟨here, scanFault c⟩
    | some (token, n) =>
      let source := c :: rest.take n
      match scanFrom (here + Text.byteCount source) (rest.drop n) with
      | .ok later => .ok ⟨⟨gap, source, token, here⟩ :: later.lexemes, later.trailing⟩
      | .error e => .error e
termination_by cs.length
decreasing_by
  have := congrArg List.length _h
  simp only [List.length_drop, List.length_cons] at this ⊢
  omega

/-- The lexemes of a statement. -/
def scan (cs : List Char) : Except SyntaxError Scan :=
  scanFrom 0 cs

/-- Nothing is lost: the lexemes and the gaps between them make up the text. -/
theorem source_scanFrom {start : Nat} {cs : List Char} {s : Scan}
    (h : scanFrom start cs = .ok s) : s.source = cs := by
  fun_induction scanFrom start cs generalizing s with
  | case1 =>
    rename_i cs gap hdrop
    cases h
    have := List.take_append_drop (gapLength cs) cs
    rw [hdrop, List.append_nil] at this
    exact this
  | case2 => cases h
  | case3 =>
    rename_i cs gap c rest hdrop here token n hread source later hlater ih
    cases h
    have hlater := ih hlater
    simp only [Scan.source, List.flatMap_cons, List.append_assoc] at hlater ⊢
    rw [hlater]
    conv => rhs; rw [← List.take_append_drop (gapLength cs) cs, hdrop]
    simp [gap, source]
  | case4 => cases h

end TableSql
