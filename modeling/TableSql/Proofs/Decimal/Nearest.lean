import TableSql.Decimal.Reading
import TableSql.Proofs.Decimal.Binary64

/-!
# The floating-point number nearest to an integer

An integer of more than 53 binary digits is rounded when it becomes a floating-point number: the
digits behind the first 53 decide about the last of these and are lost. So two integers give equal
floating-point numbers exactly if they are rounded to the same integer, and integers of 53 digits at
most, which are not rounded at all, give equal ones only if they are equal.

## Main definitions

* `nearestNat`, `nearestInt` — an integer rounded to 53 binary digits.
* `Stands` — the floating-point numbers that stand for integers.

## Main results

* `nearestInt_of_lt` — small integers are not rounded.
* `Stands.beq_iff` — equal numbers stand for equal integers.
* `Decimal.stands_floatOfInt` — what an integer is rounded to.
* `Decimal.floatOfInt_beq_iff` — which integers give equal numbers.
-/

namespace TableSql

open Float.Model Float.Model.UnpackedFloat

/-! ### Integers of 53 digits -/

/-- The natural number rounded to 53 binary digits. -/
def nearestNat (n : Nat) : Nat :=
  roundHalfEven n (n.log2 - 52) * 2 ^ (n.log2 - 52)

/-- The integer rounded to 53 binary digits. -/
def nearestInt (i : Int) : Int :=
  i.sign * nearestNat i.natAbs

theorem nearestNat_of_lt {n : Nat} (hn : n < 2 ^ 53) : nearestNat n = n := by
  have hlog : n.log2 - 52 = 0 := Nat.sub_eq_zero_of_le (log2_le_of_lt hn)
  rw [nearestNat, hlog, roundHalfEven_zero, Nat.pow_zero, Nat.mul_one]

/-- A larger number is at least as large when it is rounded. -/
theorem le_nearestNat {n : Nat} (hn : 2 ^ 53 ≤ n) : 2 ^ 53 ≤ nearestNat n := by
  have hlog : 53 ≤ n.log2 := (Nat.le_log2 (by omega)).2 hn
  obtain ⟨k, hk⟩ : ∃ k, n.log2 = 52 + (k + 1) := ⟨n.log2 - 53, by omega⟩
  have hbounds := roundHalfEven_bounds (by omega) hk
  rw [nearestNat, hk, Nat.add_sub_cancel_left]
  calc 2 ^ 53 ≤ roundHalfEven n (k + 1) * 2 ^ 1 := by omega
    _ ≤ roundHalfEven n (k + 1) * 2 ^ (k + 1) :=
      Nat.mul_le_mul_left _ (Nat.pow_le_pow_right Nat.two_pos (by omega))

theorem nearestNat_pos {n : Nat} (hn : n ≠ 0) : 0 < nearestNat n := by
  by_cases hlt : n < 2 ^ 53
  · rw [nearestNat_of_lt hlt]
    omega
  · have hle := le_nearestNat (Nat.not_lt.1 hlt)
    omega

theorem nearestInt_natCast (n : Nat) : nearestInt n = nearestNat n := by
  cases n with
  | zero => rfl
  | succ n => exact Int.one_mul _

theorem nearestInt_negSucc (n : Nat) : nearestInt (.negSucc n) = -(nearestNat (n + 1) : Int) :=
  Int.neg_one_mul _

theorem natAbs_nearestInt (i : Int) : (nearestInt i).natAbs = nearestNat i.natAbs := by
  cases i with
  | ofNat n => rw [Int.ofNat_eq_natCast, nearestInt_natCast, Int.natAbs_natCast, Int.natAbs_natCast]
  | negSucc n => rw [nearestInt_negSucc, Int.natAbs_neg, Int.natAbs_natCast, Int.natAbs_negSucc]

/-- An integer of 53 digits at most is not rounded. -/
theorem nearestInt_of_lt {i : Int} (hi : i.natAbs < 2 ^ 53) : nearestInt i = i := by
  rw [nearestInt, nearestNat_of_lt hi, Int.sign_mul_natAbs]

/-- An integer of 53 digits at most is rounded to the same as another one only if they are equal. -/
theorem nearestInt_eq_iff_of_lt {i j : Int} (hi : i.natAbs < 2 ^ 53) :
    nearestInt i = nearestInt j ↔ i = j := by
  rw [nearestInt_of_lt hi]
  by_cases hj : j.natAbs < 2 ^ 53
  · rw [nearestInt_of_lt hj]
  · have hle := le_nearestNat (Nat.not_lt.1 hj)
    rw [← natAbs_nearestInt] at hle
    refine iff_of_false ?_ ?_
    · rintro rfl
      omega
    · rintro rfl
      exact hj hi

example : nearestInt (2 ^ 53 + 1) = 2 ^ 53 ∧ nearestInt (2 ^ 53 + 3) = 2 ^ 53 + 4 := by
  decide +kernel

/-! ### Numbers that stand for integers -/

/-- The floating-point number stands for the integer: zero without a sign, or a mantissa of 53
digits that has this value. As the first digit counts at least one, the exponent is at least `-52`,
and both sides of the value are taken `2 ^ 52` times to keep it whole. -/
inductive Stands : UnpackedFloat → Int → Prop
  | zero : Stands (.zero .positive) 0
  | finite (s : Sign) {m v : Nat} {e : Int} (hm : 0 < m) (hlog : m.log2 = 52) (hlow : -52 ≤ e)
      (hhigh : e ≤ 971) (hvalue : m * 2 ^ (e + 52).toNat = v * 2 ^ 52) :
      Stands (.finite s m e hm) (s.apply v)

namespace Stands

variable {u u' : UnpackedFloat} {v v' : Int}

theorem unpack_pack (h : Stands u v) : (Float.Model.pack u).unpack = u := by
  cases h with
  | zero => rfl
  | finite s hm hlog hlow hhigh => exact unpack_pack_of_log2 hm hlog (by omega) hhigh

theorem neg (h : Stands u v) (hv : v ≠ 0) : Stands u.neg (-v) := by
  cases h with
  | zero => exact absurd rfl hv
  | @finite s m v e hm hlog hlow hhigh hvalue =>
    have happly : -s.apply v = (-s).apply v := by
      cases s with
      | negative => exact Int.neg_neg _
      | positive => rfl
    rw [happly]
    exact .finite (-s) hm hlog hlow hhigh hvalue

theorem pos_of_value {m v : Nat} {e : Int} (hm : 0 < m)
    (hvalue : m * 2 ^ (e + 52).toNat = v * 2 ^ 52) : 0 < v := by
  have hpos : 0 < v * 2 ^ 52 := hvalue ▸ Nat.mul_pos hm (Nat.two_pow_pos _)
  exact Nat.pos_of_mul_pos_right hpos

theorem apply_eq_iff {s s' : Sign} {v v' : Nat} (hv : 0 < v) (hv' : 0 < v') :
    s.apply v = s'.apply v' ↔ s = s' ∧ v = v' := by
  cases s <;> cases s' <;>
    simp only [Sign.apply, eq_self, true_and, reduceCtorEq, false_and, iff_false] <;> omega

/-- A mantissa of 53 digits and its exponent are found from the value. -/
theorem eq_of_value_eq {m m' v : Nat} {e e' : Int} (hlog : m.log2 = 52) (hlog' : m'.log2 = 52)
    (hlow : -52 ≤ e) (hlow' : -52 ≤ e') (hvalue : m * 2 ^ (e + 52).toNat = v * 2 ^ 52)
    (hvalue' : m' * 2 ^ (e' + 52).toNat = v * 2 ^ 52) : m = m' ∧ e = e' := by
  have hne {m : Nat} (hlog : m.log2 = 52) : m ≠ 0 := by
    rintro rfl
    cases hlog
  have hsame := hvalue.trans hvalue'.symm
  have hexponent : (e + 52).toNat = (e' + 52).toNat := by
    have h := congrArg Nat.log2 hsame
    rw [log2_mul_two_pow (hne hlog), log2_mul_two_pow (hne hlog'), hlog, hlog'] at h
    omega
  rw [hexponent] at hsame
  exact ⟨Nat.eq_of_mul_eq_mul_right (Nat.two_pow_pos _) hsame, by omega⟩

/-- Equal numbers stand for equal integers, and the other way round. -/
theorem beq_iff (h : Stands u v) (h' : Stands u' v') : u.beq u' = true ↔ v = v' := by
  have hzero (s : Sign) {m : Nat} {e : Int} (hm : 0 < m) :
      (UnpackedFloat.zero .positive).beq (.finite s m e hm) = false ∧
        (UnpackedFloat.finite s m e hm).beq (.zero .positive) = false := by
    cases s <;> exact ⟨rfl, rfl⟩
  have happly (s : Sign) {v : Nat} (hv : 0 < v) : s.apply v ≠ 0 := by
    cases s <;> simp only [Sign.apply] <;> omega
  cases h with
  | zero =>
    cases h' with
    | zero => exact iff_of_true rfl rfl
    | finite s' hm' hlog' hlow' hhigh' hvalue' =>
      rw [(hzero s' hm').1]
      exact iff_of_false Bool.false_ne_true (happly s' (pos_of_value hm' hvalue')).symm
  | finite s hm hlog hlow hhigh hvalue =>
    cases h' with
    | zero =>
      rw [(hzero s hm).2]
      exact iff_of_false Bool.false_ne_true (happly s (pos_of_value hm hvalue))
    | finite s' hm' hlog' hlow' hhigh' hvalue' =>
      rw [beq_iff_ne_notANumber_and_eq,
        apply_eq_iff (pos_of_value hm hvalue) (pos_of_value hm' hvalue')]
      simp only [ne_eq, reduceCtorEq, not_false_eq_true, UnpackedFloat.finite.injEq, false_and,
        or_false, true_and]
      refine and_congr_right fun _ => ⟨?_, ?_⟩
      · rintro ⟨rfl, rfl⟩
        exact Nat.eq_of_mul_eq_mul_right (Nat.two_pow_pos 52) (hvalue.symm.trans hvalue')
      · rintro rfl
        exact eq_of_value_eq hlog hlog' hlow hlow' hvalue hvalue'

end Stands

/-! ### Integers as floating-point numbers -/

theorem round_of_lt {n : Nat} (hn : n ≠ 0) (hlt : n < 2 ^ 53) :
    UnpackedFloat.round Format.binary64 .positive n 0 =
      .finite .positive (n * 2 ^ (52 - n.log2)) (n.log2 - 52)
        (Nat.mul_pos (Nat.pos_of_ne_zero hn) (Nat.two_pow_pos _)) := by
  have hlog := log2_le_of_lt hlt
  have hexact := roundWithAccuracy_eq (e := -((52 - n.log2 : Nat) : Int))
    (Nat.mul_pos (Nat.pos_of_ne_zero hn) (Nat.two_pow_pos _)) (log2_mantissa hn hlog) 0 (by omega)
  rw [Nat.pow_zero, Nat.mul_one] at hexact
  rw [UnpackedFloat.round, targetExponent_eq (by omega),
    decreaseExponent_eq (k := 52 - n.log2) (by omega)]
  dsimp only
  rw [Int.zero_sub, hexact]
  simp only [UnpackedFloat.finite.injEq, true_and]
  omega

theorem stands_of_lt {n : Nat} (hn : n ≠ 0) (hlt : n < 2 ^ 53) :
    Stands (.finite .positive (n * 2 ^ (52 - n.log2)) (n.log2 - 52)
      (Nat.mul_pos (Nat.pos_of_ne_zero hn) (Nat.two_pow_pos _))) n := by
  have hlog := log2_le_of_lt hlt
  have hvalue : n * 2 ^ (52 - n.log2) * 2 ^ ((n.log2 : Int) - 52 + 52).toNat = n * 2 ^ 52 := by
    have hexponent : ((n.log2 : Int) - 52 + 52).toNat = n.log2 := by omega
    rw [hexponent, Nat.mul_assoc, Nat.pow_sub_mul_pow 2 hlog]
  exact .finite .positive _ (log2_mantissa hn hlog) (by omega) (by omega) hvalue

/-- An integer of more than 53 digits, moved as the reader of decimals moves it, is rounded to the
nearest one. -/
theorem stands_of_le {n : Nat} (hle : 2 ^ 53 ≤ n) (hlt : n < 2 ^ 64) :
    Stands (roundWithAccuracy Format.binary64 .positive (n * 2 ^ 53) (-53) .exact)
      (nearestNat n) := by
  have hn : n ≠ 0 := by omega
  have hlow : 53 ≤ n.log2 := (Nat.le_log2 hn).2 hle
  have hhigh : n.log2 < 64 := (Nat.log2_lt hn).2 hlt
  obtain ⟨k, hk⟩ : ∃ k, n.log2 = 52 + k := ⟨n.log2 - 52, by omega⟩
  have hshifted : (n * 2 ^ 53).log2 = 52 + (k + 53) := by
    rw [log2_mul_two_pow hn, hk, Nat.add_assoc]
  obtain ⟨m, c, hm, hround, hlog, hc, hvalue⟩ :=
    exists_roundWithAccuracy (e := -53) .positive (by omega) (k + 53) hshifted (by omega)
  rw [roundHalfEven_mul_two_pow] at hvalue
  rw [hround]
  refine .finite .positive hm hlog (by omega) (by omega) ?_
  have hexponent : (-53 + ((k + 53 : Nat) : Int) + c + 52).toNat = c + k + 52 := by omega
  have hnearest : nearestNat n = m * 2 ^ c * 2 ^ k := by
    rw [nearestNat, hk, Nat.add_sub_cancel_left, hvalue]
  rw [hexponent, hnearest, Nat.pow_add, Nat.pow_add, ← Nat.mul_assoc, ← Nat.mul_assoc]

theorem mul_one_finite {m : Nat} {e : Int} (hm : 0 < m) (hlog : m.log2 = 52) (he : -1074 ≤ e) :
    UnpackedFloat.mul Format.binary64 (.finite .positive m e hm)
      (.finite .positive (2 ^ 52) (-52) (by decide)) = .finite .positive m e hm := by
  show roundWithAccuracy Format.binary64 .positive (m * 2 ^ 52) (e + -52) .exact = _
  rw [roundWithAccuracy_eq hm hlog 52 (by omega)]
  simp only [UnpackedFloat.finite.injEq, true_and]
  omega

/-- A small natural number goes through 64 bits and is multiplied by one. -/
theorem unpack_ofNat_of_lt {n : Nat} (hlt : n < 2 ^ 53) :
    (Float.ofNat n).toModel.unpack =
      (Float.Model.pack (UnpackedFloat.mul Format.binary64
        (Float.Model.pack (UnpackedFloat.normalize Format.binary64 n 0 .positive)).unpack
        (.finite .positive (2 ^ 52) (-52) (by decide)))).unpack := by
  have hone : Float.exactlyRepresentablePowersOfTen[0].toModel.unpack =
      .finite .positive (2 ^ 52) (-52) (by decide) := rfl
  have hnat : n.toUInt64.toNat = n := by
    rw [Nat.toUInt64_eq, UInt64.toNat_ofNat']
    omega
  show (Float.ofScientific n false 0).toModel.unpack = _
  rw [Float.ofScientific, dif_pos ⟨hlt, by decide⟩]
  show (Float.Model.pack (UnpackedFloat.mul Format.binary64
    (Float.Model.pack (UnpackedFloat.normalize Format.binary64 n.toUInt64.toNat 0 .positive)).unpack
    Float.exactlyRepresentablePowersOfTen[0].toModel.unpack)).unpack = _
  rw [hone, hnat]

/-- A large one is read as a decimal without a fraction, with zeros behind its digits. -/
theorem ofScientific_zero {n : Nat} (hn : n ≠ 0) :
    UnpackedFloat.ofScientific Format.binary64 n 0 =
      roundWithAccuracy Format.binary64 .positive (n * 2 ^ 53) (-53) .exact := by
  have hrange : (2 : Int) ^ Format.binary64.exponentBits = 2048 := rfl
  have hbits : Format.binary64.mantissaBits = 53 := rfl
  have hmantissa : n <<< 53 * 10 ^ (0 : Int).toNat = n * 2 ^ 53 := by
    rw [Nat.shiftLeft_eq, Int.toNat_zero, Nat.pow_zero, Nat.mul_one]
  rw [UnpackedFloat.ofScientific, dif_neg hn, hrange, if_neg (by decide), if_neg (by omega),
    if_pos (le_refl 0), UnpackedFloat.mul, hbits, hmantissa]
  rfl

theorem unpack_ofNat_of_le {n : Nat} (hle : 2 ^ 53 ≤ n) :
    (Float.ofNat n).toModel.unpack =
      (Float.Model.pack
        (roundWithAccuracy Format.binary64 .positive (n * 2 ^ 53) (-53) .exact)).unpack := by
  rw [← ofScientific_zero (by omega)]
  show (Float.ofScientific n false 0).toModel.unpack = _
  rw [Float.ofScientific, dif_neg (by omega)]
  rfl

namespace Decimal

theorem stands_ofNat {n : Nat} (hlt : n < 2 ^ 64) :
    Stands (Float.ofNat n).toModel.unpack (nearestNat n) := by
  by_cases hsmall : n < 2 ^ 53
  · rw [nearestNat_of_lt hsmall]
    by_cases hn : n = 0
    · rw [hn]
      exact .zero
    · have hstands := stands_of_lt hn hsmall
      rw [unpack_ofNat_of_lt hsmall, normalize_natCast (Nat.pos_of_ne_zero hn),
        round_of_lt hn hsmall, hstands.unpack_pack,
        mul_one_finite _ (log2_mantissa hn (log2_le_of_lt hsmall)) (by omega),
        hstands.unpack_pack]
      exact hstands
  · have hle := Nat.not_lt.1 hsmall
    have hstands := stands_of_le hle hlt
    rw [unpack_ofNat_of_le hle, hstands.unpack_pack]
    exact hstands

/-- What an integer is rounded to when it becomes a floating-point number. -/
theorem stands_floatOfInt {i : Int} (hi : i.natAbs < 2 ^ 64) :
    Stands (floatOfInt i).toModel.unpack (nearestInt i) := by
  cases i with
  | ofNat n =>
    rw [Int.ofNat_eq_natCast, nearestInt_natCast]
    exact stands_ofNat hi
  | negSucc n =>
    have hpos : 0 < nearestNat (n + 1) := nearestNat_pos n.succ_ne_zero
    have hneg := (stands_ofNat (n := n + 1) hi).neg (by omega)
    show Stands (Float.Model.pack (Float.ofNat (n + 1)).toModel.unpack.neg).unpack _
    rw [hneg.unpack_pack, nearestInt_negSucc]
    exact hneg

/-- Two integers give equal floating-point numbers exactly if they are rounded to the same one. -/
theorem floatOfInt_beq_iff {i j : Int} (hi : i.natAbs < 2 ^ 64) (hj : j.natAbs < 2 ^ 64) :
    (floatOfInt i == floatOfInt j) = true ↔ nearestInt i = nearestInt j :=
  (stands_floatOfInt hi).beq_iff (stands_floatOfInt hj)

end Decimal

end TableSql
