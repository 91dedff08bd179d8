import TableSql.Token

/-!
# Spans of tokens

A condition, a value or a select list is cut out of a statement by looking for the token that ends
it outside all parentheses. The same count of open parentheses finds the end of a call.

## Main definitions

* `takeSpan` — the tokens up to the first one that ends the span.
* `closing?` — the place of the parenthesis that closes a call.
* `FunctionCall`, `FunctionCall.ofSpan?` — a span that is one call.

## Main results

* `takeSpan_append` — a span and what follows it make up the tokens.
* `takeSpan_length_le` — what follows a span is not longer than the tokens.
-/

namespace TableSql

/-- Puts a token in front of a span. -/
def pushToken (t : Token) (r : List Token × List Token) : List Token × List Token :=
  (t :: r.1, r.2)

/-- The tokens up to the first one that ends the span, and the tokens from it on, with `depth`
parentheses open. Outside all parentheses a span ends at a token that `stop` holds of, and at a
closing parenthesis. -/
def takeSpan (stop : Token → Bool) : Nat → List Token → List Token × List Token
  | _, [] => ([], [])
  | depth, .openParen :: ts => pushToken .openParen (takeSpan stop (depth + 1) ts)
  | 0, .closeParen :: ts => ([], .closeParen :: ts)
  | depth + 1, .closeParen :: ts => pushToken .closeParen (takeSpan stop depth ts)
  | depth, t :: ts =>
    if depth = 0 ∧ stop t then ([], t :: ts) else pushToken t (takeSpan stop depth ts)

/-- A span and what follows it make up the tokens. -/
theorem takeSpan_append (stop : Token → Bool) (depth : Nat) (ts : List Token) :
    (takeSpan stop depth ts).1 ++ (takeSpan stop depth ts).2 = ts := by
  fun_induction takeSpan stop depth ts <;> simp_all [pushToken]

/-- What follows a span is not longer than the tokens. -/
theorem takeSpan_length_le (stop : Token → Bool) (depth : Nat) (ts : List Token) :
    (takeSpan stop depth ts).2.length ≤ ts.length := by
  have h := congrArg List.length (takeSpan_append stop depth ts)
  rw [List.length_append] at h
  omega

/-- The number of tokens in front of the closing parenthesis of a call, of the tokens behind its
opening one, with `depth` further parentheses open. -/
def closing? : Nat → List Token → Option Nat
  | _, [] => none
  | depth, .openParen :: ts => (closing? (depth + 1) ts).map (· + 1)
  | 0, .closeParen :: _ => some 0
  | depth + 1, .closeParen :: ts => (closing? depth ts).map (· + 1)
  | depth, _ :: ts => (closing? depth ts).map (· + 1)

/-- A call: a name, and the tokens between its parentheses. -/
structure FunctionCall where
  function : String
  args : List Token
  deriving DecidableEq, Repr

/-- The call that a span is: a word and an opening parenthesis that closes at the end of the
span. -/
def FunctionCall.ofSpan? : List Token → Option FunctionCall
  | .word w :: .openParen :: t :: ts =>
    if closing? 0 (t :: ts) = some ts.length then some ⟨w, (t :: ts).take ts.length⟩ else none
  | _ => none

end TableSql
