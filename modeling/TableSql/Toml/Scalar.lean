import TableSql.Decimal.Reading
import TableSql.Json.Symbol

/-!
# Scalars of a settings file

The texts, numbers, truth values, dates and times that may stand in a TOML document. Texts are
read up to their closing quotes. Everything else is one word without blanks, which is classified
as a whole; a date and a time may also stand next to each other with a space between them.

## Main definitions

* `Toml.Scalar`.
* `Toml.readText?` — a text in one of its four forms.
* `Toml.readWord?` — a number, truth value, date or time.
-/

namespace TableSql.Toml

/-- A scalar of a document. Of a date or time only the kind is kept. -/
inductive Scalar where
  | text (s : String)
  | integer (i : Int)
  | float (x : Float)
  | boolean (b : Bool)
  | moment

/-- Blanks within a line. -/
def isGap (c : Char) : Bool :=
  c == ' ' || c == '\t'

/-- The characters of a comment and of a text: all but the controls, of which tabs are allowed. -/
def isTextChar (c : Char) : Bool :=
  c == '\t' || (0x20 ≤ c.toNat && c.toNat ≠ 0x7F)

/-! ### Texts -/

/-- The number of hexadecimal digits. -/
def hexValue? (cs : List Char) : Option Nat :=
  cs.foldlM (fun n c => (Json.ofHexDigit? c).map (16 * n + ·)) 0

/-- The character with the code point that hexadecimal digits give. -/
def scalarChar? (cs : List Char) : Option Char :=
  (hexValue? cs).bind fun n => if n.isValidChar then some (Char.ofNat n) else none

/-- The character that a backslash and a letter stand for. -/
def escape? : Char → Option Char
  | 'b' => some '\x08'
  | 't' => some '\t'
  | 'n' => some '\n'
  | 'f' => some '\x0c'
  | 'r' => some '\r'
  | '"' => some '"'
  | '\\' => some '\\'
  | _ => none

/-- The character escaped at the front of a text, behind the backslash, and what follows it. -/
def readEscape? : List Char → Option (Char × List Char)
  | 'u' :: cs => if cs.length < 4 then none else (scalarChar? (cs.take 4)).map (·, cs.drop 4)
  | 'U' :: cs => if cs.length < 8 then none else (scalarChar? (cs.take 8)).map (·, cs.drop 8)
  | c :: cs => (escape? c).map (·, cs)
  | [] => none

theorem length_of_readEscape? {cs rest : List Char} {c : Char}
    (h : readEscape? cs = some (c, rest)) : rest.length < cs.length := by
  unfold readEscape? at h
  split at h
  · split at h
    · cases h
    · simp only [Option.map_eq_some_iff, Prod.mk.injEq] at h
      obtain ⟨_, _, _, rfl⟩ := h
      simp only [List.length_drop, List.length_cons]
      omega
  · split at h
    · cases h
    · simp only [Option.map_eq_some_iff, Prod.mk.injEq] at h
      obtain ⟨_, _, _, rfl⟩ := h
      simp only [List.length_drop, List.length_cons]
      omega
  · simp only [Option.map_eq_some_iff, Prod.mk.injEq] at h
    obtain ⟨_, _, _, rfl⟩ := h
    simp
  · cases h

/-- What is read of a text in front of its rest. -/
abbrev TextReading : Type :=
  Option (List Char × List Char)

/-- Puts a character in front of the text that is read. -/
def TextReading.push (c : Char) (r : TextReading) : TextReading :=
  r.map fun (text, rest) => (c :: text, rest)

/-- A text between double quotes, behind the opening one. -/
def readBasic? (cs : List Char) : TextReading :=
  match cs with
  | [] => none
  | '"' :: rest => some ([], rest)
  | '\\' :: rest =>
    match _h : readEscape? rest with
    | some (c, rest) => (readBasic? rest).push c
    | none => none
  | c :: rest => if isTextChar c then (readBasic? rest).push c else none
termination_by cs.length
decreasing_by
  · have := length_of_readEscape? _h
    simp only [List.length_cons]
    omega
  · simp

/-- A text between apostrophes, behind the opening one. -/
def readLiteral? : List Char → TextReading
  | [] => none
  | '\'' :: rest => some ([], rest)
  | c :: rest => if isTextChar c then (readLiteral? rest).push c else none

/-- The quotes that belong to a text over several lines where a run of quotes closes it: a run may
be up to two quotes longer than the three that close. -/
def closingQuotes (q : Char) (cs : List Char) : List Char :=
  List.replicate (min ((cs.takeWhile (· = q)).length - 3) 2) q

/-- What follows a run of quotes that closes a text over several lines. -/
def behindQuotes (q : Char) (cs : List Char) : List Char :=
  cs.drop (3 + (closingQuotes q cs).length)

/-- What follows a line break that a backslash escapes, with the blanks and line breaks behind it;
`none` if the line does not end there. -/
def escapedBreak? (cs : List Char) : Option (List Char) :=
  let isFiller := fun c : Char => isGap c || c == '\n'
  match cs.dropWhile isGap with
  | '\n' :: rest => some (rest.dropWhile isFiller)
  | _ => none

theorem length_dropWhile_le {α : Type} (p : α → Bool) (l : List α) :
    (l.dropWhile p).length ≤ l.length :=
  (List.dropWhile_sublist p).length_le

theorem length_of_escapedBreak? {cs rest : List Char} (h : escapedBreak? cs = some rest) :
    rest.length < cs.length := by
  unfold escapedBreak? at h
  have hgap := length_dropWhile_le isGap cs
  split at h
  · rename_i rest' heq
    cases h
    rw [heq] at hgap
    have := length_dropWhile_le (fun c : Char => isGap c || c == '\n') rest'
    simp only [List.length_cons] at hgap
    omega
  · cases h

/-- A text over several lines between three double quotes, behind the opening ones. -/
def readBasicLines? (cs : List Char) : TextReading :=
  match cs with
  | [] => none
  | '"' :: '"' :: '"' :: rest =>
    let all := '"' :: '"' :: '"' :: rest
    some (closingQuotes '"' all, behindQuotes '"' all)
  | '\\' :: rest =>
    match _h : escapedBreak? rest with
    | some rest => readBasicLines? rest
    | none =>
      match _h' : readEscape? rest with
      | some (c, rest) => (readBasicLines? rest).push c
      | none => none
  | c :: rest => if isTextChar c ∨ c = '\n' then (readBasicLines? rest).push c else none
termination_by cs.length
decreasing_by
  · have := length_of_escapedBreak? _h
    simp only [List.length_cons]
    omega
  · have := length_of_readEscape? _h'
    simp only [List.length_cons]
    omega
  · simp

/-- A text over several lines between three apostrophes, behind the opening ones. -/
def readLiteralLines? : List Char → TextReading
  | [] => none
  | '\'' :: '\'' :: '\'' :: rest =>
    let all := '\'' :: '\'' :: '\'' :: rest
    some (closingQuotes '\'' all, behindQuotes '\'' all)
  | c :: rest => if isTextChar c ∨ c = '\n' then (readLiteralLines? rest).push c else none

/-- The text without a line break at its start. -/
def dropBreak : List Char → List Char
  | '\n' :: cs => cs
  | cs => cs

/-- A text in any of its forms, and what follows it. -/
def readText? : List Char → TextReading
  | '"' :: '"' :: '"' :: cs => readBasicLines? (dropBreak cs)
  | '"' :: cs => readBasic? cs
  | '\'' :: '\'' :: '\'' :: cs => readLiteralLines? (dropBreak cs)
  | '\'' :: cs => readLiteral? cs
  | _ => none

/-! ### Numbers -/

/-- Digits of the given kind, an underscore allowed between any two of them. -/
def ungroup? (isDigit : Char → Bool) : List Char → Option (List Char)
  | [] => none
  | [c] => if isDigit c then some [c] else none
  | c :: '_' :: cs => if isDigit c then (ungroup? isDigit cs).map (c :: ·) else none
  | c :: cs => if isDigit c then (ungroup? isDigit cs).map (c :: ·) else none

/-- The digits of a decimal number, which has no zero in front. -/
def decimalDigits? (cs : List Char) : Option (List Char) :=
  (ungroup? Char.isDigit cs).filter fun ds => ds.length = 1 || ds.head? ≠ some '0'

/-- A text without its sign, and whether the sign is negative. -/
def unsign : List Char → List Char × Bool
  | '+' :: cs => (cs, false)
  | '-' :: cs => (cs, true)
  | cs => (cs, false)

/-- The integer of digits in a base. -/
def ofBase? (base : Nat) (cs : List Char) : Option Int :=
  let isDigit := fun c => (Json.ofHexDigit? c).any (· < base)
  (ungroup? isDigit cs).map fun ds =>
    ((ds.foldl (fun n c => base * n + (Json.ofHexDigit? c).getD 0) 0 : Nat) : Int)

/-- An integer of 64 bits, in decimal with a sign or in another base without. -/
def integer? (cs : List Char) : Option Int :=
  let read : Option Int := match cs with
    | '0' :: 'x' :: cs => ofBase? 16 cs
    | '0' :: 'o' :: cs => ofBase? 8 cs
    | '0' :: 'b' :: cs => ofBase? 2 cs
    | cs =>
      let (body, negative) := unsign cs
      (decimalDigits? body).map fun ds =>
        if negative then -(Decimal.value ds : Int) else (Decimal.value ds : Int)
  read.filter Decimal.isSigned

/-- The digits of an exponent behind its mark, with their sign. -/
def exponentDigits? (cs : List Char) : Option (List Char) :=
  let (body, negative) := unsign cs
  (ungroup? Char.isDigit body).map fun ds => if negative then '-' :: ds else ds

/-- A floating-point number: a decimal number with a fraction, an exponent or both, or the name of
an infinity or of no number. One beyond the range is refused unless it is negative. -/
def float? (cs : List Char) : Option Float :=
  let (body, negative) := unsign cs
  let sign := fun x : Float => if negative then -x else x
  if body = "inf".toList then some (sign (1.0 / 0.0))
  else if body = "nan".toList then some (sign (0.0 / 0.0))
  else
    let isMark := fun c : Char => c == 'e' || c == 'E'
    let number := body.takeWhile fun c => !isMark c
    let whole := number.takeWhile (· != '.')
    let fraction := match number.dropWhile (· != '.') with
      | _ :: digits => (ungroup? Char.isDigit digits).map ('.' :: ·)
      | [] => some []
    let exponent := match body.dropWhile fun c => !isMark c with
      | _ :: digits => (exponentDigits? digits).map ('e' :: ·)
      | [] => some []
    match decimalDigits? whole, fraction, exponent with
    | some whole, some fraction, some exponent =>
      if fraction.isEmpty && exponent.isEmpty then none
      else ((Decimal.float? (whole ++ fraction ++ exponent)).map sign).filter fun x =>
        !(x == 1.0 / 0.0)
    | _, _, _ => none

/-! ### Dates and times -/

/-- The number of exactly two digits between two bounds. -/
def twoDigits? (low high : Nat) (a b : Char) : Bool :=
  a.isDigit && b.isDigit && low ≤ Decimal.value [a, b] && Decimal.value [a, b] ≤ high

/-- The number of days of a month. -/
def daysOfMonth (year month : Nat) : Nat :=
  if month = 2 then
    if (year % 4 = 0 ∧ year % 100 ≠ 0) ∨ year % 400 = 0 then 29 else 28
  else if [4, 6, 9, 11].contains month then 30
  else 31

/-- Whether a text is a time of day: hours, minutes and seconds, perhaps with a fraction. -/
def isTime : List Char → Bool
  | a :: b :: ':' :: c :: d :: ':' :: e :: f :: rest =>
    twoDigits? 0 23 a b && twoDigits? 0 59 c d && twoDigits? 0 60 e f &&
      match rest with
      | [] => true
      | '.' :: digits => digits ≠ [] && digits.all Char.isDigit
      | _ => false
  | _ => false

/-- Whether a text is a time of day with the offset of its zone. -/
def isZonedTime (cs : List Char) : Bool :=
  let time := cs.takeWhile fun c => c.isDigit || c == ':' || c == '.'
  isTime time &&
    match cs.drop time.length with
    | [z] => z == 'Z' || z == 'z'
    | [s, a, b, ':', c, d] => (s == '+' || s == '-') && twoDigits? 0 23 a b && twoDigits? 0 59 c d
    | _ => false

/-- Whether a text is a date: year, month and day. -/
def isDate : List Char → Bool
  | [a, b, c, d, '-', e, f, '-', g, h] =>
    [a, b, c, d].all Char.isDigit && twoDigits? 1 12 e f &&
      twoDigits? 1 (daysOfMonth (Decimal.value [a, b, c, d]) (Decimal.value [e, f])) g h
  | _ => false

/-- Whether a word is a date, a time, or a date with a time. -/
def isMoment (cs : List Char) : Bool :=
  isDate cs || isTime cs ||
    (isDate (cs.take 10) &&
      match cs.drop 10 with
      | t :: time => (t == 'T' || t == 't' || t == ' ') && (isTime time || isZonedTime time)
      | [] => false)

/-! ### Words -/

/-- The characters that end a word. -/
def endsWord (c : Char) : Bool :=
  [' ', '\t', '\r', '\n', '#', ',', ']', '\x7d'].contains c

/-- The length of the word at the front of a text. A date and a time with a space between them are
one word. -/
def wordLength (cs : List Char) : Nat :=
  let n := (cs.takeWhile (!endsWord ·)).length
  if isDate (cs.take n) then
    match cs.drop n with
    | ' ' :: d :: rest =>
      if d.isDigit then n + 1 + ((d :: rest).takeWhile (!endsWord ·)).length else n
    | _ => n
  else n

/-- What a word stands for. -/
def ofWord? (cs : List Char) : Option Scalar :=
  if cs = "true".toList then some (.boolean true)
  else if cs = "false".toList then some (.boolean false)
  else
    match integer? cs, float? cs with
    | some i, _ => some (.integer i)
    | none, some x => some (.float x)
    | none, none => if isMoment cs then some .moment else none

/-- A number, truth value, date or time, and what follows it. -/
def readWord? (cs : List Char) : Option (Scalar × List Char) :=
  let n := wordLength cs
  (ofWord? (cs.take n)).map (·, cs.drop n)

end TableSql.Toml
