import TableSql.Toml.Tree

/-!
# Reading a settings file

A TOML document is read line by line: a line holds a key with its value, or the header of a table,
or nothing, and may end with a comment. Arrays and texts may run over several lines.

Reading a value goes down into arrays and tables between braces, and along them; what bounds it is
a count of steps that starts at the length of the text. The depth of nesting and the number of
names in a key have a limit of their own.

## Main definitions

* `Toml.readKey?`, `Toml.readValue?` — a key with dots, and a value.
* `Toml.Document`, `Toml.Document.line?` — the document so far, and with one more line.
* `Toml.read?` — the entries of a document.
-/

namespace TableSql.Toml

/-- Keys have fewer names, and values fewer levels of nesting. -/
def nestingLimit : Nat := 80

/-! ### Keys -/

/-- The characters of a name without quotes. -/
def isBare (c : Char) : Bool :=
  c.isAlphanum || c == '_' || c == '-'

/-- A name: bare, or a text on one line. -/
def readName? (cs : List Char) : Option (String × List Char) :=
  match cs with
  | '"' :: rest => (readBasic? rest).map fun (text, rest) => (String.ofList text, rest)
  | '\'' :: rest => (readLiteral? rest).map fun (text, rest) => (String.ofList text, rest)
  | _ =>
    let word := cs.takeWhile isBare
    if word.isEmpty then none else some (String.ofList word, cs.drop word.length)

/-- Names with points between them, in at most so many steps. -/
def readNames? : Nat → List Char → Option (List String × List Char)
  | 0, _ => none
  | steps + 1, cs =>
    match readName? (cs.dropWhile isGap) with
    | none => none
    | some (name, rest) =>
      match rest.dropWhile isGap with
      | '.' :: rest => (readNames? steps rest).map fun (names, rest) => (name :: names, rest)
      | rest => some ([name], rest)

/-- A key, with the blanks around it. -/
def readKey? (cs : List Char) : Option (List String × List Char) :=
  readNames? (nestingLimit - 1) cs

/-! ### Values -/

/-- What follows blanks, line breaks and comments. -/
def skipLines? (inComment : Bool) : List Char → Option (List Char)
  | [] => some []
  | '\n' :: cs => skipLines? false cs
  | c :: cs =>
    if inComment then if isTextChar c then skipLines? true cs else none
    else if isGap c then skipLines? false cs
    else if c = '#' then skipLines? true cs
    else some (c :: cs)

mutual

/-- A value at a depth of nesting, and what follows it. -/
def readValue? (steps depth : Nat) (cs : List Char) : Option (Node × List Char) :=
  match steps with
  | 0 => none
  | steps + 1 =>
    match cs with
    | '[' :: rest =>
      if depth + 1 < nestingLimit then
        (readItems? steps (depth + 1) rest).map fun (items, rest) => (.array items, rest)
      else none
    | '\x7b' :: rest =>
      if depth + 1 < nestingLimit then
        match rest.dropWhile isGap with
        | '\x7d' :: rest => some (.inline [], rest)
        | rest => (readPairs? steps (depth + 1) [] rest).map fun (es, rest) => (.inline es, rest)
      else none
    | '"' :: _ => (readText? cs).map fun (s, rest) => (.scalar (.text (String.ofList s)), rest)
    | '\'' :: _ => (readText? cs).map fun (s, rest) => (.scalar (.text (String.ofList s)), rest)
    | _ => (readWord? cs).map fun (s, rest) => (.scalar s, rest)

/-- The items of an array up to its closing bracket. -/
def readItems? (steps depth : Nat) (cs : List Char) : Option (List Node × List Char) :=
  match steps with
  | 0 => none
  | steps + 1 =>
    match skipLines? false cs with
    | none => none
    | some (']' :: rest) => some ([], rest)
    | some cs =>
      match readValue? steps depth cs with
      | none => none
      | some (v, rest) =>
        match skipLines? false rest with
        | some (',' :: rest) =>
          (readItems? steps depth rest).map fun (items, rest) => (v :: items, rest)
        | some (']' :: rest) => some ([v], rest)
        | _ => none

/-- The keys and values of a table between braces, added to the entries before them, up to the
closing brace. -/
def readPairs? (steps depth : Nat) (es : Entries) (cs : List Char) :
    Option (Entries × List Char) :=
  match steps with
  | 0 => none
  | steps + 1 =>
    match readKey? cs with
    | some (key, '=' :: rest) =>
      match readValue? steps depth (rest.dropWhile isGap) with
      | none => none
      | some (v, rest) =>
        match es.assign? v true key, rest.dropWhile isGap with
        | some es, ',' :: rest => readPairs? steps depth es rest
        | some es, '\x7d' :: rest => some (es, rest)
        | _, _ => none
    | _ => none

end

/-! ### Lines -/

/-- A document as far as it is read: its entries, and the path of the table that keys are added
to. -/
structure Document where
  entries : Entries
  current : List String

/-- What follows the end of a line, with a comment in front of it. -/
def endLine? (cs : List Char) : Option (List Char) :=
  let rest := match cs.dropWhile isGap with
    | '#' :: comment => comment.dropWhile isTextChar
    | rest => rest
  match rest with
  | [] => some []
  | '\n' :: rest => some rest
  | _ => none

/-- The document with a header. -/
def Document.header? (d : Document) (cs : List Char) : Option (Document × List Char) :=
  match cs with
  | '[' :: cs =>
    match readKey? cs with
    | some (path, ']' :: ']' :: rest) =>
      (d.entries.extend? path).map fun entries => (⟨entries, path⟩, rest)
    | _ => none
  | cs =>
    match readKey? cs with
    | some (path, ']' :: rest) =>
      (d.entries.state? path).map fun entries => (⟨entries, path⟩, rest)
    | _ => none

/-- The document with a key and its value. -/
def Document.pair? (d : Document) (cs : List Char) : Option (Document × List Char) :=
  match readKey? cs with
  | some (key, '=' :: rest) =>
    match readValue? (2 * rest.length + 2) 0 (rest.dropWhile isGap) with
    | some (v, rest) =>
      (d.entries.change? (fun es => es.assign? v true key) d.current).map fun entries =>
        (⟨entries, d.current⟩, rest)
    | none => none
  | _ => none

/-- The document with one more line, and the lines behind it. -/
def Document.line? (d : Document) (cs : List Char) : Option (Document × List Char) :=
  let read := match cs.dropWhile isGap with
    | '[' :: rest => d.header? rest
    | [] => some (d, [])
    | '\n' :: rest => some (d, '\n' :: rest)
    | '#' :: rest => some (d, '#' :: rest)
    | cs => d.pair? cs
  read.bind fun (d, rest) => (endLine? rest).map (d, ·)

/-- The document with all its lines, in at most so many steps. -/
def Document.lines? : Nat → Document → List Char → Option Document
  | _, d, [] => some d
  | 0, _, _ => none
  | steps + 1, d, cs =>
    match d.line? cs with
    | some (d, rest) => Document.lines? steps d rest
    | none => none

/-- A text with a line feed for every pair of carriage return and line feed. -/
def unifyBreaks : List Char → List Char
  | '\r' :: '\n' :: cs => '\n' :: unifyBreaks cs
  | c :: cs => c :: unifyBreaks cs
  | [] => []

/-- A text without the mark of its byte order. -/
def dropByteOrderMark : List Char → List Char
  | '\uFEFF' :: cs => cs
  | cs => cs

/-- The entries of a document, or `none` for a text that is none. -/
def read? (s : String) : Option Entries :=
  let cs := unifyBreaks (dropByteOrderMark s.toList)
  (Document.lines? (cs.length + 1) ⟨[], []⟩ cs).map Document.entries

end TableSql.Toml
