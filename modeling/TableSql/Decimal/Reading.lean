import TableSql.Decimal.Digits
import TableSql.Text.Caseless

/-!
# Reading floating-point numbers

The texts that stand for a floating-point number: an optional sign, then `inf`, `infinity` or
`nan` in any case, or digits with an optional point and an optional exponent. A decimal is rounded
to the nearest binary64 number; one beyond the range becomes an infinity.

## Main definitions

* `Decimal.Literal` — a decimal as written: digits and a power of ten.
* `Decimal.Literal.read?` — the grammar of decimals.
* `Decimal.Literal.toFloat` — the nearest floating-point number.
* `Decimal.float?` — the floating-point number of a text.
-/

namespace TableSql.Decimal

/-- The decimal `significand * 10 ^ exponent`. -/
structure Literal where
  significand : Nat
  exponent : Int

namespace Literal

/-- The exponent behind the mark `e`: digits after an optional sign. -/
def exponent? : List Char → Option Int
  | '-' :: cs => (natural? cs).map fun n => -Int.ofNat n
  | '+' :: cs => (natural? cs).map Int.ofNat
  | cs => (natural? cs).map Int.ofNat

/-- Digits with an optional point among them or at their ends, and an optional exponent behind the
mark `e` or `E`. There is at least one digit in front of the mark. -/
def read? (cs : List Char) : Option Literal :=
  let isMark := fun c : Char => c == 'e' || c == 'E'
  let number := cs.takeWhile fun c => !isMark c
  let whole := number.takeWhile (· != '.')
  let fraction := (number.dropWhile (· != '.')).drop 1
  let exponent := match cs.dropWhile fun c => !isMark c with
    | [] => some 0
    | _ :: mark => exponent? mark
  match natural? (whole ++ fraction), exponent with
  | some n, some e => some ⟨n, e - (fraction.length : Int)⟩
  | _, _ => none

/-- The floating-point number nearest to the decimal. The leading digit decides about decimals far
outside the range, so that no power of ten is ever large. -/
def toFloat (d : Literal) : Float :=
  let leading := d.exponent + (digits d.significand).length
  if d.significand = 0 ∨ leading < -400 then 0.0
  else if 400 < leading then 1.0 / 0.0
  else if d.exponent < 0 then Float.ofScientific d.significand true d.exponent.natAbs
  else Float.ofScientific d.significand false d.exponent.natAbs

end Literal

/-- The magnitude that a text without sign stands for. -/
def magnitude? (cs : List Char) : Option Float :=
  let name := Text.lower (String.ofList cs)
  if name = "inf" ∨ name = "infinity" then some (1.0 / 0.0)
  else if name = "nan" then some (0.0 / 0.0)
  else (Literal.read? cs).map Literal.toFloat

/-- The floating-point number of a text: a magnitude after an optional sign. -/
def float? : List Char → Option Float
  | '+' :: cs => magnitude? cs
  | '-' :: cs => (magnitude? cs).map Float.neg
  | cs => magnitude? cs

/-- The floating-point number nearest to an integer. -/
def floatOfInt (i : Int) : Float :=
  Float.ofInt i

end TableSql.Decimal
