import TableSql.Proofs.Inlining
import TableSql.Proofs.Token.Lossless

/-!
# Literals read back

A value may go into a statement as a literal instead of a parameter. Then the reader of the
statement should find the value that was written. It does for null, for truth values, for integers
of 64 bits and for texts. A text is written with its apostrophes doubled, and so it makes one token
whatever it holds: blanks, markers, beginnings of comments or quotes at any place. An integer makes
one token together with its sign, and `NULL`, `TRUE` and `FALSE` are words. The token of such a
literal stands for the value again.

Other values are not read back. An array or an object becomes the text of its JSON.

## Main definitions

* `Value.IsPlain` — the values whose literals are read back.

## Main results

* `Value.literal_literalToken` — the token of a literal stands for the value.
* `scan_sqlLiteral` — a literal is scanned to one token that takes all of it and stands for the
  value.
-/

namespace TableSql

/-- The value is null, a truth value, an integer of 64 bits or a text. -/
inductive Value.IsPlain : Value → Prop
  | null : IsPlain .null
  | bool (b : Bool) : IsPlain (.bool b)
  | int {i : Int} (hi : Decimal.isSigned i = true) : IsPlain (.int i)
  | text (s : String) : IsPlain (.text s)

namespace Value

variable {v : Value}

theorem IsPlain.isFloat_eq_false (h : v.IsPlain) : v.isFloat = false := by
  cases h <;> rfl

/-- An integer of 64 bits is the value of its text. -/
theorem numberValue_ofInt {i : Int} (hi : Decimal.isSigned i = true) :
    numberValue (String.ofList (Decimal.ofInt i)) = .int i := by
  rw [numberValue, String.toList_ofList, Decimal.signed?_ofInt hi]

/-- The token of a literal stands for the value. -/
theorem literal_literalToken (h : v.IsPlain) : v.literalToken.literal = .literal v := by
  cases h with
  | null => rfl
  | bool b => cases b <;> rfl
  | int hi => exact congrArg Operand.literal (numberValue_ofInt hi)
  | text s => rfl

end Value

/-- The literal of a plain value is scanned to one token, which takes all of it and stands for the
value. -/
theorem scan_sqlLiteral {v : Value} (h : v.IsPlain) :
    ∃ t, scan v.sqlLiteral.toList = .ok ⟨[⟨[], v.sqlLiteral.toList, t, 0⟩], []⟩ ∧
      t.literal = .literal v :=
  ⟨v.literalToken, scan_of_spells (Value.spells_sqlLiteral h.isFloat_eq_false),
    Value.literal_literalToken h⟩

/-- A text with quotes at both ends, the beginning of a comment, a marker and the end of a line. -/
theorem scan_sqlLiteral_quotes :
    (Value.text "'' -- ?\n/*é'").IsPlain ∧
      ∃ t, scan (Value.text "'' -- ?\n/*é'").sqlLiteral.toList =
          .ok ⟨[⟨[], (Value.text "'' -- ?\n/*é'").sqlLiteral.toList, t, 0⟩], []⟩ ∧
        t.literal = .literal (.text "'' -- ?\n/*é'") :=
  ⟨.text _, scan_sqlLiteral (.text _)⟩

end TableSql
