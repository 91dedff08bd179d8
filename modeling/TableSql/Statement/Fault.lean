import TableSql.SyntaxError
import TableSql.Token.Scan

/-!
# Faults in a list of tokens

The grammar of statements speaks of tokens and knows nothing of the text between them. A fault
therefore says how many tokens were left when it was found; a scan of the statement turns that
into a byte of the text.

## Main definitions

* `Fault`, `Fault.locate`.
-/

namespace TableSql

/-- What is wrong with a list of tokens. -/
inductive Fault where
  /-- Found in front of the last `remaining` tokens. -/
  | before (remaining : Nat) (cause : SyntaxError.Cause)
  /-- Behind a complete statement the last `remaining` tokens are too many. -/
  | leftover (remaining : Nat)
  /-- Wrong with the statement as a whole. -/
  | whole (cause : SyntaxError.Cause)
  deriving DecidableEq, Repr

/-- The fault as an error in the text that was scanned. -/
def Fault.locate (s : Scan) : Fault → SyntaxError
  | before remaining cause => ⟨s.position (s.lexemes.length - remaining), cause⟩
  | leftover remaining =>
    let index := s.lexemes.length - remaining
    ⟨s.position index, .unexpectedText (s.excerpt index 1)⟩
  | whole cause => ⟨0, cause⟩

end TableSql
