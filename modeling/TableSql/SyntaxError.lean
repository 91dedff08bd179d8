import TableSql.Decimal.Digits
import TableSql.Keyword

/-!
# Syntax errors

What can be wrong with the text of a statement, where, and how an error message says it. The place
is a byte of the statement's text in UTF-8.

## Main definitions

* `SyntaxError.Cause`, `SyntaxError`.
* `SyntaxError.Cause.message`, `SyntaxError.message`.
-/

namespace TableSql

/-- A mark that a statement needs at some place, named by what it is needed for. -/
inductive RequiredMark where
  | openColumns
  | closeColumns
  | openValues
  | closeValues
  | assign
  deriving DecidableEq, Repr

/-- The mark and its purpose in words. -/
def RequiredMark.description : RequiredMark → String
  | openColumns => "'(' before column list"
  | closeColumns => "')' after column list"
  | openValues => "'(' before values"
  | closeValues => "')' after values"
  | assign => "'=' in assignment"

namespace SyntaxError

/-- What is wrong with a statement. -/
inductive Cause where
  /-- An apostrophe opens a text that does not close. -/
  | unterminatedText
  /-- No token begins with the character. -/
  | unexpectedCharacter (c : Char)
  /-- The statement begins like none of the known ones. -/
  | unrecognized
  | expectedKeyword (k : Keyword)
  | expectedMark (m : RequiredMark)
  | expectedName
  /-- A point follows a name. -/
  | qualifiedName
  | expectedCondition
  | expectedValue
  /-- An expression whose value is not known here. -/
  | unsupportedValue
  /-- A count of rows is not a natural number below `2 ^ 64`. -/
  | expectedCount
  /-- More than one list of values. -/
  | severalRows
  | unequalLists (columns values : Nat)
  /-- A write without a usable condition. -/
  | unfiltered (verb : Keyword)
  /-- Something with the given text stands behind a complete statement. -/
  | unexpectedText (source : String)
  deriving DecidableEq, Repr

/-- The cause in words. -/
def Cause.message : Cause → String
  | unterminatedText => "Unterminated string literal"
  | unexpectedCharacter c => "Unexpected character '" ++ String.ofList [c] ++ "'"
  | unrecognized => "Unrecognized statement"
  | expectedKeyword k => "Expected " ++ k.spelling
  | expectedMark m => "Expected " ++ m.description
  | expectedName => "Expected identifier"
  | qualifiedName => "Qualified names are not supported"
  | expectedCondition => "Expected condition"
  | expectedValue => "Expected value"
  | unsupportedValue => "Unsupported value expression"
  | expectedCount => "Expected a non-negative integer"
  | severalRows => "Multi-row VALUES lists are not supported"
  | unequalLists columns values =>
    Decimal.text columns ++ " columns but " ++ Decimal.text values ++ " values"
  | unfiltered verb => verb.spelling ++ " requires at least one equality condition"
  | unexpectedText source => "Unexpected '" ++ source ++ "'"

end SyntaxError

/-- A syntax error: the byte of the statement at which it was found, and its cause. -/
structure SyntaxError where
  position : Nat
  cause : SyntaxError.Cause
  deriving DecidableEq, Repr

/-- The error in words, with its position. -/
def SyntaxError.message (e : SyntaxError) : String :=
  "Syntax error at position " ++ Decimal.text e.position ++ ": " ++ e.cause.message

end TableSql
