import TableSql.Json.Number

/-!
# The symbols of JSON

A JSON text is a sequence of symbols: brackets, braces, commas, colons, strings and atoms (numbers
and the three names), with blanks between them.

## Main definitions

* `Json.Symbol`, `Json.symbols?` — the symbols of a text.
* `Json.readString?` — a string up to its closing quote.
-/

namespace TableSql.Json

/-- A symbol of a JSON text. A string that holds half a pair of surrogates has the form of a string
and no text, and a number beyond the range has the form of a number and no value. -/
inductive Symbol where
  | openArray
  | closeArray
  | openObject
  | closeObject
  | comma
  | colon
  | string (s : Option String)
  | atom (v : Option Value)

/-- The value of a hexadecimal digit. -/
def ofHexDigit? (c : Char) : Option Nat :=
  if c.isDigit then some (c.toNat - 48)
  else if 'a' ≤ c ∧ c ≤ 'f' then some (c.toNat - 87)
  else if 'A' ≤ c ∧ c ≤ 'F' then some (c.toNat - 55)
  else none

/-- The number of four hexadecimal digits. -/
def unit? (a b c d : Char) : Option Nat :=
  match ofHexDigit? a, ofHexDigit? b, ofHexDigit? c, ofHexDigit? d with
  | some a, some b, some c, some d => some (((a * 16 + b) * 16 + c) * 16 + d)
  | _, _, _, _ => none

/-- The character that a backslash and a letter stand for. -/
def escape? : Char → Option Char
  | '"' => some '"'
  | '\\' => some '\\'
  | '/' => some '/'
  | 'b' => some '\x08'
  | 'f' => some '\x0c'
  | 'n' => some '\n'
  | 'r' => some '\r'
  | 't' => some '\t'
  | _ => none

/-- The character of a unit that is no surrogate. -/
def ofUnit? (n : Nat) : Option Char :=
  if 0xD800 ≤ n ∧ n < 0xE000 then none else some (Char.ofNat n)

/-- The character of a pair of surrogates. -/
def ofPair? (high low : Nat) : Option Char :=
  if 0xD800 ≤ high ∧ high < 0xDC00 ∧ 0xDC00 ≤ low ∧ low < 0xE000 then
    some (Char.ofNat (0x10000 + (high - 0xD800) * 0x400 + (low - 0xDC00)))
  else none

/-- A character in front of a text, if both are there. -/
def putFirst (x : Option Char) (s : Option (List Char)) : Option (List Char) :=
  x.bind fun x => s.map (x :: ·)

/-- Reads on behind an opening quote: the text, and the number of characters read, the closing
quote included. A character beyond `0xFFFF` may be escaped as a pair of surrogates; with a
surrogate on its own there is no text. A bare control character is refused. -/
def readString? : List Char → Option (Option (List Char) × Nat)
  | [] => none
  | '"' :: _ => some (some [], 1)
  | '\\' :: 'u' :: a :: b :: c :: d :: '\\' :: 'u' :: e :: f :: g :: h :: cs =>
    match unit? a b c d, unit? e f g h with
    | some m, some n =>
      match ofPair? m n with
      | some x => (readString? cs).map fun (s, k) => (putFirst x s, k + 12)
      | none =>
        (readString? ('\\' :: 'u' :: e :: f :: g :: h :: cs)).map fun (s, k) =>
          (putFirst (ofUnit? m) s, k + 6)
    | _, _ => none
  | '\\' :: 'u' :: a :: b :: c :: d :: cs =>
    match unit? a b c d with
    | some m => (readString? cs).map fun (s, k) => (putFirst (ofUnit? m) s, k + 6)
    | none => none
  | '\\' :: c :: cs =>
    match escape? c with
    | some x => (readString? cs).map fun (s, k) => (putFirst x s, k + 2)
    | none => none
  | c :: cs =>
    if c.toNat < 32 ∨ c = '\\' then none
    else (readString? cs).map fun (s, k) => (putFirst c s, k + 1)

/-- The value of the name at the front of a text, and its length. -/
def readName? (cs : List Char) : Option (Value × Nat) :=
  let word := String.ofList (cs.takeWhile Char.isAlpha)
  if word = "null" then some (.null, 4)
  else if word = "true" then some (.bool true, 4)
  else if word = "false" then some (.bool false, 5)
  else none

/-- The symbol that begins with the character `c`, and how many of the characters behind `c`
belong to it. -/
def readSymbol? (c : Char) (cs : List Char) : Option (Symbol × Nat) :=
  match c with
  | '[' => some (.openArray, 0)
  | ']' => some (.closeArray, 0)
  | '\x7b' => some (.openObject, 0)
  | '\x7d' => some (.closeObject, 0)
  | ',' => some (.comma, 0)
  | ':' => some (.colon, 0)
  | '"' => (readString? cs).map fun (s, n) => (.string (s.map String.ofList), n)
  | c =>
    if c.isAlpha then (readName? (c :: cs)).map fun (v, n) => (.atom v, n - 1)
    else (readNumber? (c :: cs)).map fun (v, n) => (.atom v, n - 1)

/-- The blanks of JSON. -/
def isBlank (c : Char) : Bool :=
  c == ' ' || c == '\t' || c == '\r' || c == '\n'

/-- The symbols of a text, or `none` for a text that has others. -/
def symbols? : List Char → Option (List Symbol)
  | [] => some []
  | c :: cs =>
    if isBlank c then symbols? cs
    else
      match readSymbol? c cs with
      | some (symbol, n) => (symbols? (cs.drop n)).map (symbol :: ·)
      | none => none
termination_by cs => cs.length
decreasing_by all_goals simp only [List.length_cons, List.length_drop]; omega

end TableSql.Json
