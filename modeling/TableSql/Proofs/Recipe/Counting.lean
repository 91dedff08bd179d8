import TableSql.Proofs.Decimal.Binary64
import TableSql.Recipe

/-!
# Counting by floating-point addition

The number of rows is found by adding up a one for each of them, as floating-point numbers of 64
bits. Such a number has a mantissa of 53 binary digits, so every natural number below `2 ^ 53` is
one, and to add a one to it is exact: both summands are brought to one exponent, their sum is
rounded by a shift that drops nothing but zeros, and the result is packed into 64 bits and unpacked
again.

## Main definitions

* `sumOfOnes` — the sum of so many ones.

## Main results

* `add_sumOfOnes_one` — one more one.
* `Recipe.fold_rowCount` — the recipe that counts rows gives their number.
-/

namespace TableSql

open Float.Model Float.Model.UnpackedFloat

/-- The floating-point number that adding up so many ones gives. The sum starts from negative zero,
and otherwise the mantissa has all its 53 digits. -/
def sumOfOnes : Nat → UnpackedFloat
  | 0 => .zero .negative
  | n + 1 => .finite .positive ((n + 1) * 2 ^ (52 - (n + 1).log2)) ((n + 1).log2 - 52)
      (Nat.mul_pos n.succ_pos (Nat.two_pow_pos _))

theorem unpack_pack_sumOfOnes {n : Nat} (hn : n < 2 ^ 53) :
    (Float.Model.pack (sumOfOnes n)).unpack = sumOfOnes n := by
  cases n with
  | zero => rfl
  | succ n =>
    have hlog := log2_le_of_lt hn
    exact unpack_pack_of_log2 _ (log2_mantissa n.succ_ne_zero hlog) (by omega) (by omega)

/-! ### Adding ones -/

theorem add_finite (spec : Format) {m m' : Nat} (e e' : Int) (hm : 0 < m) (hm' : 0 < m') :
    UnpackedFloat.add spec (.finite .positive m e hm) (.finite .positive m' e' hm') =
      UnpackedFloat.normalize spec
        ((decreaseExponent m e (min e e')).1 + (decreaseExponent m' e' (min e e')).1)
        (min e e') .positive := rfl

/-- One more one is added without rounding. -/
theorem add_sumOfOnes_one {n : Nat} (hn : n + 1 < 2 ^ 53) :
    UnpackedFloat.add Format.binary64 (sumOfOnes n) (sumOfOnes 1) = sumOfOnes (n + 1) := by
  cases n with
  | zero => rfl
  | succ n =>
    have hlog := log2_le_of_lt (Nat.lt_of_succ_lt hn)
    have hlog' := log2_le_of_lt hn
    have hpos : 0 < (n + 1 + 1) * 2 ^ (52 - (n + 1 + 1).log2) :=
      Nat.mul_pos (Nat.succ_pos _) (Nat.two_pow_pos _)
    have hone : sumOfOnes 1 = .finite .positive (2 ^ 52) (-52) (by decide) := rfl
    have hmin : min (((n + 1).log2 : Int) - 52) (-52) = -52 := by omega
    have hleft : decreaseExponent ((n + 1) * 2 ^ (52 - (n + 1).log2)) ((n + 1).log2 - 52) (-52) =
        ((n + 1) * 2 ^ 52, -52) := by
      rw [decreaseExponent_eq (k := (n + 1).log2) (by omega), Nat.mul_assoc,
        Nat.pow_sub_mul_pow 2 hlog]
      exact congrArg _ (by omega)
    have hright : decreaseExponent (2 ^ 52) (-52) (-52) = (2 ^ 52, -52) :=
      decreaseExponent_eq (k := 0) (by decide)
    have hsum : (((n + 1) * 2 ^ 52 : Nat) : Int) + ((2 ^ 52 : Nat) : Int) =
        (((n + 1 + 1) * 2 ^ (52 - (n + 1 + 1).log2) * 2 ^ (n + 1 + 1).log2 : Nat) : Int) := by
      rw [Nat.mul_assoc, Nat.pow_sub_mul_pow 2 hlog']
      omega
    rw [hone, sumOfOnes, add_finite, hmin, hleft, hright, hsum,
      normalize_natCast (Nat.mul_pos hpos (Nat.two_pow_pos _)),
      round_eq hpos (log2_mantissa (Nat.succ_ne_zero _) hlog') _ (by decide)]
    simp only [sumOfOnes, UnpackedFloat.finite.injEq, true_and]
    omega

/-- The sum of ones is their number. -/
theorem toNat_toUInt64_sumOfOnes {n : Nat} (hn : n < 2 ^ 53) :
    (sumOfOnes n).toUInt64.toNat = n := by
  cases n with
  | zero => decide
  | succ n =>
    have hlog := log2_le_of_lt hn
    have hint : (sumOfOnes (n + 1)).toInt 0 (UInt64.size - 1) = (n + 1 : Nat) := by
      have hshift : (0 - (((n + 1).log2 : Int) - 52 - (0 : Nat))).toNat =
          52 - (n + 1).log2 := by omega
      show roundToInt .positive ((n + 1) * 2 ^ (52 - (n + 1).log2)) ((n + 1).log2 - 52) = _
      rw [roundToInt, decreaseExponent_eq (k := 0) (by omega), Nat.pow_zero, Nat.mul_one]
      simp only [shiftToExponent, hshift, ExtendedMantissa.ofMantissaAndAccuracy,
        shiftRight_mul_two_pow, Sign.apply]
    rw [UnpackedFloat.toUInt64, hint, Int.toNat_natCast, UInt64.ofNatClamp,
      dif_pos (by rw [UInt64.size]; omega)]
    rfl

/-! ### The number of rows -/

theorem unpack_toModel_add (x y : Float) :
    (x + y).toModel.unpack =
      (Float.Model.pack
        (UnpackedFloat.add Format.binary64 x.toModel.unpack y.toModel.unpack)).unpack := rfl

theorem unpack_one : (1.0 : Float).toModel.unpack = sumOfOnes 1 := rfl

theorem unpack_neg_zero : (-0.0 : Float).toModel.unpack = sumOfOnes 0 := rfl

/-- Adding a one for each item of a list, behind so many others. -/
theorem unpack_foldl_ones {α : Type} (xs : List α) {x : Float} {n : Nat}
    (hx : x.toModel.unpack = sumOfOnes n) (hn : n + xs.length < 2 ^ 53) :
    ((xs.map fun _ => (1.0 : Float)).foldl (· + ·) x).toModel.unpack =
      sumOfOnes (n + xs.length) := by
  induction xs generalizing x n with
  | nil => exact hx
  | cons _ xs ih =>
    rw [List.length_cons, ← Nat.add_assoc, Nat.add_right_comm] at hn ⊢
    refine ih ?_ hn
    rw [unpack_toModel_add, hx, unpack_one, add_sumOfOnes_one (by omega),
      unpack_pack_sumOfOnes (by omega)]

/-- The recipe that counts rows gives their number, as long as every sum is exact. -/
theorem Recipe.fold_rowCount {rows : List Row} (h : rows.length < 2 ^ 53) :
    rowCount.fold rows = .int rows.length := by
  have hsum : (sum (fun _ => 1.0) rows).toModel.unpack = sumOfOnes rows.length := by
    have h := unpack_foldl_ones rows unpack_neg_zero (by omega)
    rwa [Nat.zero_add] at h
  have hcount : (sum (fun _ => 1.0) rows).toUInt64.toNat = rows.length := by
    show (sum (fun _ => 1.0) rows).toModel.unpack.toUInt64.toNat = _
    rw [hsum, toNat_toUInt64_sumOfOnes h]
  show Value.int ((sum (fun _ => 1.0) rows).toUInt64.toNat : Int) = _
  rw [hcount]

end TableSql
