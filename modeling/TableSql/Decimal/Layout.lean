import TableSql.Decimal.Digits
import TableSql.Decimal.Shortest

/-!
# The text of a floating-point number

Numbers of moderate size are written positionally, the others with an exponent of ten. Where the
one form ends and how the exponent is written are collected in a `Layout`; the texts of cells,
parameters and answers all use `Layout.cell`.

## Main definitions

* `Decimal.Layout`, `Decimal.Layout.cell`.
* `Decimal.Layout.write` — the text of a number.
-/

namespace TableSql.Decimal

/-- The choices that a text of a floating-point number makes: the exponents of ten that are
written positionally, the fraction that a whole number gets there, and the marks in front of a
positive and a negative exponent. -/
structure Layout where
  leastPlain : Int
  greatestPlain : Int
  wholeFraction : String
  positiveMark : String
  negativeMark : String

/-- Numbers from `0.00001` to below `10 ^ 16` are written positionally and always with a fraction;
an exponent shows its sign. -/
def Layout.cell : Layout :=
  ⟨-5, 15, ".0", "e+", "e-"⟩

namespace Layout

/-- Positional form: `digits` with the first digit worth `10 ^ e`. -/
def plain (l : Layout) (digits : List Char) (e : Int) : String :=
  if e < 0 then
    "0." ++ String.ofList (List.replicate (-e - 1).toNat '0' ++ digits)
  else
    let whole := e.toNat + 1
    let padded := digits ++ List.replicate (whole - digits.length) '0'
    let fraction := digits.drop whole
    String.ofList (padded.take whole) ++
      (if fraction.isEmpty then l.wholeFraction else "." ++ String.ofList fraction)

/-- Exponent form: one digit, the others as its fraction, and the exponent. -/
def exponential (l : Layout) (digits : List Char) (e : Int) : String :=
  let fraction := digits.drop 1
  String.ofList (digits.take 1) ++
    (if fraction.isEmpty then "" else "." ++ String.ofList fraction) ++
    (if e < 0 then l.negativeMark else l.positiveMark) ++ text e.natAbs

/-- The text of a decimal in scientific form. -/
def scientific (l : Layout) (s : Scientific) : String :=
  let digits := digits s.significand
  if l.leastPlain ≤ s.exponent ∧ s.exponent ≤ l.greatestPlain then l.plain digits s.exponent
  else l.exponential digits s.exponent

/-- The text of a finite number: the shortest decimal that reads back, in this layout. -/
def write (l : Layout) (x : Float) : String :=
  let bits := x.toBits.toNat
  let sign := if bits < 0x8000000000000000 then "" else "-"
  sign ++ match Binary.ofBits? (bits % 0x8000000000000000) with
    | some b => l.scientific b.shortest
    | none => l.scientific ⟨0, 0⟩

end Layout

end TableSql.Decimal
