/-!
# The shortest decimal that reads back

A finite binary64 number is the midpoint region of an interval of real numbers, those that round
to it. Among the decimals in that interval the ones with the fewest digits are preferred, and of
these the one nearest to the number. The search runs over the number of digits: on the grid of
decimals with `n` digits only the two neighbours of the number can be nearest, and the first grid
with a neighbour inside the interval gives the result.

All comparisons are made between natural numbers; nothing is rounded on the way.

## Main definitions

* `Decimal.Binary` — a positive binary64 number as a mantissa and an exponent of two.
* `Decimal.Binary.shortest` — its digits and the exponent of ten of the leading one.
-/

namespace TableSql.Decimal

/-- The positive number `mantissa * 2 ^ exponent`, with the interval of numbers that round to it.
Where the mantissa is the least one of its exponent the neighbour below is half as far away. -/
structure Binary where
  mantissa : Nat
  exponent : Int
  atBoundary : Bool

/-- The finite number with the given bits, without its sign; `none` for zero. -/
def Binary.ofBits? (bits : Nat) : Option Binary :=
  let fraction : Nat := bits % 0x10000000000000
  let biased : Nat := bits / 0x10000000000000 % 0x800
  if biased = 0 then
    if fraction = 0 then none else some ⟨fraction, -1074, false⟩
  else some ⟨fraction + 0x10000000000000, (biased : Int) - 1075, fraction == 0 && 1 < biased⟩

/-- A decimal in scientific form: the digits `significand`, without trailing zeros, the first of
them worth `10 ^ exponent`. -/
structure Scientific where
  significand : Nat
  exponent : Int

namespace Binary

/-- Four times the number, over a denominator, in units of `10 ^ p`: numerator and denominator.
Quadrupling makes the ends of the interval whole. -/
def scaled (b : Binary) (p : Int) : Nat × Nat :=
  (4 * b.mantissa * Nat.pow 2 b.exponent.toNat * Nat.pow 10 (-p).toNat,
    Nat.pow 2 (-b.exponent).toNat * Nat.pow 10 p.toNat)

/-- How far the interval reaches below and above the number, in quarters of the last binary
place. -/
def reach (b : Binary) : Nat × Nat :=
  (if b.atBoundary then 1 else 2, 2)

/-- Whether the decimal `c * 10 ^ p` rounds to the number: it lies within the interval, or on one
of its ends when the mantissa is even. -/
def admits (b : Binary) (p : Int) (c : Nat) : Bool :=
  let (num, den) := b.scaled p
  let unit := num / (4 * b.mantissa)
  let low := num - b.reach.1 * unit
  let high := num + b.reach.2 * unit
  if b.mantissa % 2 = 0 then low ≤ 4 * c * den && 4 * c * den ≤ high
  else low < 4 * c * den && 4 * c * den < high

/-- Whether `10 ^ e` is at most the number. -/
def reaches (b : Binary) (e : Int) : Bool :=
  let (num, den) := b.scaled e
  4 * den ≤ num

/-- The exponent of ten of the leading digit. It is estimated from the exponent of two of the
leading bit, which leaves it wrong by at most one. -/
def leading (b : Binary) : Int :=
  let guess := Int.fdiv (((Nat.log2 b.mantissa : Int) + b.exponent) * 30103) 100000
  if b.reaches (guess + 1) then guess + 1
  else if b.reaches guess then guess
  else guess - 1

/-- The nearest decimal with `n` digits that rounds to the number, if there is one, as a multiple
of the power of ten of its last digit. Of two equally near ones the even one is taken. -/
def onGrid? (b : Binary) (n : Nat) : Option (Nat × Int) :=
  let p := b.leading - (n : Int) + 1
  let (num, den) := b.scaled p
  let below := num / (4 * den)
  let rest := num % (4 * den)
  let nearest := if 2 * rest < 4 * den then below
    else if 4 * den < 2 * rest then below + 1
    else if below % 2 = 0 then below else below + 1
  let other := if nearest = below then below + 1 else below
  if b.admits p nearest then some (nearest, p)
  else if b.admits p other then some (other, p)
  else none

end Binary

/-- The digits of `c` without trailing zeros. -/
def dropZeros (c : Nat) : Nat :=
  if 0 < c ∧ c % 10 = 0 then dropZeros (c / 10) else c
termination_by c

/-- The decimal `c * 10 ^ p` in scientific form. -/
def Scientific.ofMultiple (c : Nat) (p : Int) : Scientific :=
  ⟨dropZeros c, p + (Nat.toDigits 10 c).length - 1⟩

/-- The shortest decimal that reads back as the number. Seventeen digits always suffice. -/
def Binary.shortest (b : Binary) : Scientific :=
  match (List.range 17).findSome? fun n => b.onGrid? (n + 1) with
  | some (c, p) => .ofMultiple c p
  | none => .ofMultiple b.mantissa b.exponent

end TableSql.Decimal
