import TableSql.Value.Text

/-!
# Percent encoding

Bytes of a text that may not stand in a URL are written as `%` and two hexadecimal digits in upper
case. Two sets of bytes are kept: those of a path, and those of the keys and values of a query
string, where a space is written as `+`.

## Main definitions

* `Text.percentByte`, `Text.percentEncode`.
* `Text.pathEncode`, `Text.formEncode`, `Text.formQuery`.
-/

namespace TableSql.Text

/-- A byte as `%` and two hexadecimal digits. -/
def percentByte (b : UInt8) : List Char :=
  ['%', (Json.hexDigit (b.toNat / 16)).toUpper, (Json.hexDigit (b.toNat % 16)).toUpper]

/-- The text with every character encoded that `keep` does not hold of, byte by byte. -/
def percentEncode (keep : Char → Bool) (cs : List Char) : List Char :=
  cs.flatMap fun c => if keep c then [c] else (String.utf8EncodeChar c).flatMap percentByte

/-- The visible ASCII characters that are encoded in a path. -/
def encodedInPath : List Char :=
  ['"', '<', '>', '\x60', '#', '?', '\x7b', '\x7d']

/-- The characters that stand for themselves in a path. -/
def keepsInPath (c : Char) : Bool :=
  0x20 < c.toNat && c.toNat < 0x7F && !(encodedInPath.contains c)

/-- A path as it is sent. -/
def pathEncode (cs : List Char) : List Char :=
  percentEncode keepsInPath cs

/-- The characters that stand for themselves in a query string. -/
def keepsInForm (c : Char) : Bool :=
  c.isAlphanum || ['*', '-', '.', '_'].contains c

/-- A key or a value of a query string as it is sent. -/
def formEncode (s : String) : List Char :=
  s.toList.flatMap fun c => if c = ' ' then ['+'] else percentEncode keepsInForm [c]

/-- Pairs as a query string as it is sent. -/
def formQuery (pairs : List (String × String)) : List Char :=
  ['&'].intercalate (pairs.map fun (key, value) => formEncode key ++ '=' :: formEncode value)

end TableSql.Text
