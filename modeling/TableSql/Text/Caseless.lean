/-!
# Letters without case

Keywords, function names and the spellings of special numbers are compared without regard to the
case of the ASCII letters. Letters outside ASCII have no case here: `É` and `é` differ.

## Main definitions

* `Text.lower`, `Text.upper` — a text with its ASCII letters in one case.
* `Text.Caseless` — two texts agree up to the case of ASCII letters.
-/

namespace TableSql.Text

/-- The text with every ASCII letter in lower case. -/
def lower (s : String) : String :=
  String.ofList (s.toList.map Char.toLower)

/-- The text with every ASCII letter in upper case. -/
def upper (s : String) : String :=
  String.ofList (s.toList.map Char.toUpper)

/-- Two texts agree up to the case of ASCII letters. -/
def Caseless (s t : String) : Prop :=
  lower s = lower t

instance (s t : String) : Decidable (Caseless s t) :=
  inferInstanceAs (Decidable (lower s = lower t))

theorem Caseless.refl (s : String) : Caseless s s := rfl

theorem Caseless.symm {s t : String} (h : Caseless s t) : Caseless t s := Eq.symm h

theorem Caseless.trans {s t u : String} (h : Caseless s t) (h' : Caseless t u) : Caseless s u :=
  Eq.trans h h'

end TableSql.Text
