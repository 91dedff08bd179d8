import TableSql.Decimal.Reading
import TableSql.Value

/-!
# Numbers of JSON

A number is an optional sign, digits without a needless zero in front, and perhaps a fraction and
an exponent. Without fraction and exponent it is an integer when it fits into 64 bits, signed or
unsigned; only `-0` is not, because an integer would lose its sign.

Any other number is a floating-point number, which is found in two steps that each round: the
digits that fit into 64 bits are taken for a floating-point number, and that is multiplied or
divided by a power of ten. So it need not be the one nearest to the number as written; it may
differ from that in its last digits. A number beyond the range has no value.

## Main definitions

* `Json.Numeral`, `Json.Numeral.read?` — a number as written.
* `Json.Numeral.decimal` — the decimal that is taken for it.
* `Json.scale?` — a decimal as a floating-point number.
* `Json.readNumber?` — the value of a number.
-/

namespace TableSql.Json

/-! ### Numbers as written -/

/-- A number as written: its digits in front of the point and behind it, and its exponent. -/
structure Numeral where
  negative : Bool
  whole : List Char
  fraction : List Char
  exponent : Option Int

/-- The digits behind the point at the front of a text, and their number with the point; no digits
if there is no point. -/
def readFraction? : List Char → Option (List Char × Nat)
  | '.' :: cs =>
    let digits := cs.takeWhile Char.isDigit
    if digits = [] then none else some (digits, digits.length + 1)
  | _ => some ([], 0)

/-- The exponent behind the mark `e` or `E` at the front of a text, and its length with the
mark. -/
def readExponent? : List Char → Option (Option Int × Nat)
  | c :: cs =>
    if c = 'e' ∨ c = 'E' then
      let sign := match cs with
        | '+' :: _ => 1
        | '-' :: _ => 1
        | _ => 0
      let length := sign + ((cs.drop sign).takeWhile Char.isDigit).length
      (Decimal.Literal.exponent? (cs.take length)).map fun e => (some e, length + 1)
    else some (none, 0)
  | [] => some (none, 0)

namespace Numeral

/-- The number at the front of a text, and its length. -/
def read? (cs : List Char) : Option (Numeral × Nat) := do
  let negative : Bool := cs.head? = some '-'
  let body := if negative then cs.tail else cs
  let whole := body.takeWhile Char.isDigit
  if whole = [] ∨ (whole.head? = some '0' ∧ 1 < whole.length) then none
  let rest := body.drop whole.length
  let (fraction, fractionLength) ← readFraction? rest
  let (exponent, exponentLength) ← readExponent? (rest.drop fractionLength)
  let signLength := if negative then 1 else 0
  return (⟨negative, whole, fraction, exponent⟩,
    signLength + whole.length + fractionLength + exponentLength)

end Numeral

/-! ### Floating-point numbers -/

/-- The number `n` with digits written behind it as long as it fits into 64 bits, and the digits
that are left. -/
def appendDigits (n : Nat) : List Char → Nat × List Char
  | [] => (n, [])
  | d :: ds =>
    let m := 10 * n + Decimal.ofDigit d
    if m < UInt64.size then appendDigits m ds else (n, d :: ds)

/-- The decimal that is taken for a number. Of the digits in front of the point, those that do not
fit count as powers of ten; of the digits behind it, those that do not fit are left out. -/
def Numeral.decimal (x : Numeral) : Decimal.Literal :=
  let (n, dropped) := appendDigits 0 x.whole
  let (n, left) := appendDigits n x.fraction
  let places := x.fraction.length - left.length
  ⟨n, x.exponent.getD 0 + (dropped.length : Int) - (places : Int)⟩

/-- The largest exponent of a power of ten that is in the range. -/
def greatestPower : Nat := 308

/-- The floating-point number nearest to a power of ten. -/
def powerOfTen (n : Nat) : Float :=
  Float.ofScientific 1 false n

/-- A floating-point number times a power of ten, if that is in the range. Zero stays zero. -/
def multiply? (x : Float) (n : Nat) : Option Float :=
  if n ≤ greatestPower then
    let y := x * powerOfTen n
    if y.isFinite then some y else none
  else if x == 0.0 then some x
  else none

/-- A floating-point number divided by a power of ten. One out of the range is taken in several
steps, which end at zero. -/
def divide (x : Float) (n : Nat) : Float :=
  if n ≤ greatestPower then x / powerOfTen n
  else if x == 0.0 then x
  else divide (x / powerOfTen greatestPower) (n - greatestPower)
termination_by n
decreasing_by simp only [greatestPower] at *; omega

/-- A decimal as a floating-point number: its digits as one, multiplied or divided by a power of
ten. -/
def scale? (d : Decimal.Literal) : Option Float :=
  match d.exponent with
  | .ofNat n => multiply? (Float.ofNat d.significand) n
  | .negSucc n => some (divide (Float.ofNat d.significand) (n + 1))

/-! ### Values -/

/-- The value of a number as written, if it is in the range. -/
def Numeral.value? (x : Numeral) : Option Value :=
  let n := Decimal.value x.whole
  let i : Int := if x.negative then -Int.ofNat n else Int.ofNat n
  if x.fraction = [] ∧ x.exponent = none ∧ (Decimal.isSigned i ∨ Decimal.isUnsigned i) ∧
      ¬ (x.negative ∧ n = 0) then some (.int i)
  else (scale? x.decimal).map fun y => .float (if x.negative then -y else y)

/-- The value of the number at the front of a text, if it is in the range, and its length. -/
def readNumber? (cs : List Char) : Option (Option Value × Nat) :=
  (Numeral.read? cs).map fun (x, length) => (x.value?, length)

end TableSql.Json
