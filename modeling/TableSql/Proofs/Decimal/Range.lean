import TableSql.Proofs.Decimal.Nearest
import TableSql.Proofs.Decimal.NotANumber

/-!
# Decimals beyond the range

A decimal is rounded to the nearest floating-point number, and one that is too large becomes an
infinity. The greatest number of 64 bits has the mantissa `2 ^ 53 - 1` and the exponent `971`; a
decimal is too large from half a unit above it on, where it would be rounded to `2 ^ 1024`.

## Main definitions

* `leastInfinite` — the least mantissa that is rounded to an infinity.
* `Decimal.Literal.Fits` — the decimals below that.
* `Decimal.NotFinite` — the texts that are read as an infinity or as no number.

## Main results

* `isFinite_roundWithAccuracy_iff` — which numbers are rounded to an infinity.
* `Decimal.isFinite_toFloat_iff` — which decimals become finite numbers.
* `Decimal.isFinite_eq_false_iff_of_float?` — which texts do not.
* `Decimal.not_notFinite_of_signed?` — no integer is among them.
-/

namespace TableSql

open Float.Model Float.Model.UnpackedFloat

/-! ### The greatest exponent -/

theorem isFinite_unpack_packComponents {s : Sign} {b : BitVec 11} {m : BitVec 52}
    (hb : b ≠ -1#11) :
    (UnpackedFloat.unpack Format.binary64 (packComponents Format.binary64 s b m)).isFinite =
      true := by
  rw [UnpackedFloat.unpack]
  simp only [unpackMantissa_packComponents, unpackExponent_packComponents, if_neg hb]
  split <;> try split
  all_goals rfl

theorem isFinite_pack_zero (s : Sign) : (Float.Model.pack (.zero s)).unpack.isFinite = true := by
  cases s <;> rfl

/-- A number that is rounded to 53 digits stays finite when it is packed if its exponent is at most
`971`. -/
theorem isFinite_pack_finite {s : Sign} {m : Nat} {e : Int} (hm : 0 < m) :
    (Float.Model.pack (.finite s m e hm)).unpack.isFinite = true ↔ e ≤ 971 := by
  show (UnpackedFloat.unpack Format.binary64 (UnpackedFloat.pack Format.binary64 _)).isFinite =
    true ↔ _
  have hbiased : 2 ^ 11 ≤ (e + (1023 : Nat) + (52 : Nat)).toNat + 1 ↔ ¬e ≤ 971 := by omega
  rw [UnpackedFloat.pack]
  dsimp only
  split
  · rename_i hlarge
    refine iff_of_false ?_ (hbiased.1 hlarge)
    cases s <;> exact Bool.false_ne_true
  · rename_i hsmall
    refine iff_of_true ?_ (not_not.1 fun h => hsmall (hbiased.2 h))
    split
    · refine isFinite_unpack_packComponents fun h => ?_
      have h := congrArg BitVec.toNat h
      simp only [BitVec.toNat_ofNat, BitVec.toNat_neg] at h
      omega
    · exact isFinite_unpack_packComponents (by decide)

/-- The exponent of a number that was unpacked is at most `971`. -/
theorem exponent_le_of_unpack {b : BitVec Format.binary64.numBits} {s : Sign} {m : Nat} {e : Int}
    {hm : 0 < m} (h : UnpackedFloat.unpack Format.binary64 b = .finite s m e hm) : e ≤ 971 := by
  have hbound := (@unpackExponent Format.binary64 b).isLt
  unfold UnpackedFloat.unpack at h
  dsimp only at h
  split at h
  · split at h <;> cases h
  · rename_i hexponent
    have hexponent : (@unpackExponent Format.binary64 b).toNat ≠ 2047 :=
      fun h => hexponent (BitVec.eq_of_toNat_eq h)
    have hbits : (2 : Nat) ^ Format.binary64.exponentBits = 2048 := rfl
    split at h
    · rename_i hzero
      split at h
      · cases h
      · obtain ⟨-, -, rfl⟩ := UnpackedFloat.finite.inj h
        rw [hzero]
        decide
    · obtain ⟨-, -, rfl⟩ := UnpackedFloat.finite.inj h
      show ((@unpackExponent Format.binary64 b).toNat : Int) -
        ((1023 : Nat) + (52 : Nat)) ≤ 971
      omega

/-! ### Rounding up to an infinity -/

theorem mantissa_shiftRight (x : ExtendedMantissa) (k : Nat) :
    (x >>> k).mantissa = x.mantissa / 2 ^ k := by
  induction k with
  | zero => exact (Nat.div_one _).symm
  | succ k ih =>
    show (x >>> k).mantissa / 2 = _
    rw [ih, Nat.div_div_eq_div_mul, Nat.pow_succ]

theorem roundBit_shiftRight (x : ExtendedMantissa) (k : Nat) :
    (x >>> (k + 1)).roundBit = (x.mantissa / 2 ^ k % 2 != 0) := by
  show ((x >>> k).mantissa % 2 != 0) = _
  rw [mantissa_shiftRight]

theorem mantissa_ofMantissaAndAccuracy (n : Nat) (a : Accuracy) :
    (ExtendedMantissa.ofMantissaAndAccuracy n a).mantissa = n := by
  rcases a with _ | _ | _ | _ <;> rfl

theorem roundedMantissa_bounds (x : ExtendedMantissa) :
    x.mantissa ≤ x.roundedMantissa ∧ x.roundedMantissa ≤ x.mantissa + 1 := by
  have hdigit := Nat.mod_two_eq_zero_or_one x.mantissa
  rcases x with ⟨m, _ | _, _ | _⟩ <;>
    simp only [ExtendedMantissa.roundedMantissa, ExtendedMantissa.accuracy,
      Accuracy.roundToNearestEven] at hdigit ⊢ <;> omega

/-- An odd mantissa is rounded up exactly if the first digit behind it is a one. -/
theorem roundedMantissa_of_odd {x : ExtendedMantissa} (h : x.mantissa % 2 = 1) :
    x.roundedMantissa = x.mantissa + x.roundBit.toNat := by
  rcases x with ⟨m, _ | _, _ | _⟩ <;>
    simp only [ExtendedMantissa.roundedMantissa, ExtendedMantissa.accuracy,
      Accuracy.roundToNearestEven, Bool.toNat_true, Bool.toNat_false] at h ⊢ <;> omega

/-- How many digits are shifted out of a mantissa for it to have 53, or for its exponent not to be
below the least one. -/
def excess (n : Nat) (e : Int) : Nat :=
  (max (n.log2 + e - 52) (-1074) - e).toNat

/-- The mantissa without its excess, rounded. -/
def roundedOf (n : Nat) (e : Int) (a : Accuracy) : Nat :=
  (ExtendedMantissa.ofMantissaAndAccuracy n a >>> excess n e).roundedMantissa

theorem shiftToTargetExponent_eq_excess (n : Nat) (e : Int) (a : Accuracy) :
    shiftToTargetExponent Format.binary64 n e a =
      (ExtendedMantissa.ofMantissaAndAccuracy n a >>> excess n e, e + excess n e) := by
  have htarget : Format.binary64.targetExponent (totalExponent n e) =
      max (n.log2 + e - 52) (-1074) := by
    simp only [Format.targetExponent, totalExponent, Format.mantissaBits, Format.minExponent]
    omega
  rw [shiftToTargetExponent, htarget]
  rfl

theorem roundedOf_bounds (n : Nat) (e : Int) (a : Accuracy) :
    n / 2 ^ excess n e ≤ roundedOf n e a ∧ roundedOf n e a ≤ n / 2 ^ excess n e + 1 := by
  have h := roundedMantissa_bounds (ExtendedMantissa.ofMantissaAndAccuracy n a >>> excess n e)
  rwa [mantissa_shiftRight, mantissa_ofMantissaAndAccuracy] at h

/-- The result is zero, or it has an exponent that may be too large. -/
theorem isFinite_roundWithAccuracy (s : Sign) (n : Nat) (e : Int) (a : Accuracy) :
    (Float.Model.pack (roundWithAccuracy Format.binary64 s n e a)).unpack.isFinite = true ↔
      roundedOf n e a / 2 ^ excess (roundedOf n e a) (e + excess n e) = 0 ∨
        e + excess n e + excess (roundedOf n e a) (e + excess n e) ≤ 971 := by
  simp only [roundWithAccuracy, shiftToTargetExponent_eq_excess, mantissa_shiftRight,
    mantissa_ofMantissaAndAccuracy]
  change (Float.Model.pack (if h : roundedOf n e a /
    2 ^ excess (roundedOf n e a) (e + excess n e) = 0 then _ else _)).unpack.isFinite = true ↔ _
  split
  · rename_i hzero
    exact iff_of_true (isFinite_pack_zero s) (Or.inl hzero)
  · rename_i hne
    rw [isFinite_pack_finite]
    exact (or_iff_right hne).symm

theorem isFinite_roundWithAccuracy_of_log2_lt (s : Sign) {n : Nat} {e : Int} (a : Accuracy)
    (he : e ≤ 970) (hlog : n.log2 + e < 1023) :
    (Float.Model.pack (roundWithAccuracy Format.binary64 s n e a)).unpack.isFinite = true := by
  have hexcess : n.log2 ≤ 52 + excess n e ∧ e + excess n e ≤ 970 ∧ -1074 ≤ e + excess n e := by
    unfold excess
    omega
  have hquotient : n / 2 ^ excess n e < 2 ^ 53 := by
    rw [Nat.div_lt_iff_lt_mul (Nat.two_pow_pos _), ← Nat.pow_add]
    exact Nat.lt_of_lt_of_le Nat.lt_log2_self (Nat.pow_le_pow_right Nat.two_pos (by omega))
  have hrounded := (roundedOf_bounds n e a).2
  have hlog' : (roundedOf n e a).log2 ≤ 53 := by
    by_cases hzero : roundedOf n e a = 0
    · rw [hzero]
      decide
    · exact Nat.lt_succ_iff.1 ((Nat.log2_lt hzero).2 (by omega))
  refine (isFinite_roundWithAccuracy s n e a).2 (Or.inr ?_)
  have hexcess' : excess (roundedOf n e a) (e + excess n e) ≤ 1 := by
    rw [excess]
    omega
  omega

/-- A number of at least `2 ^ 1023` has 53 digits when it is rounded, or it is rounded up to
`2 ^ 53`. -/
theorem isFinite_roundWithAccuracy_of_le_log2 (s : Sign) {n : Nat} {e : Int} (a : Accuracy)
    (hn : n ≠ 0) (he : e ≤ 970) (hlog : 1023 ≤ n.log2 + e) :
    (Float.Model.pack (roundWithAccuracy Format.binary64 s n e a)).unpack.isFinite = true ↔
      n.log2 + e = 1023 ∧ roundedOf n e a < 2 ^ 53 := by
  have hexcess : n.log2 = 52 + excess n e := by
    unfold excess
    omega
  obtain ⟨hlow, hhigh⟩ := (Nat.log2_eq_iff hn).1 hexcess
  have hquotient : 2 ^ 52 ≤ n / 2 ^ excess n e ∧ n / 2 ^ excess n e < 2 ^ 53 := by
    rw [Nat.le_div_iff_mul_le (Nat.two_pow_pos _), Nat.div_lt_iff_lt_mul (Nat.two_pow_pos _),
      ← Nat.pow_add, ← Nat.pow_add]
    exact ⟨hlow, Nat.lt_of_lt_of_eq hhigh (congrArg _ (by omega))⟩
  obtain ⟨hge, hle⟩ := roundedOf_bounds n e a
  rw [isFinite_roundWithAccuracy]
  by_cases hgrown : roundedOf n e a = 2 ^ 53
  · have hexcess' : excess (roundedOf n e a) (e + excess n e) = 1 := by
      rw [hgrown, excess, Nat.log2_two_pow]
      omega
    rw [hexcess', hgrown]
    omega
  · have hlog' : (roundedOf n e a).log2 = 52 :=
      (Nat.log2_eq_iff (by omega)).2 ⟨by omega, by omega⟩
    have hexcess' : excess (roundedOf n e a) (e + excess n e) = 0 := by
      rw [excess, hlog']
      omega
    rw [hexcess', Nat.pow_zero, Nat.div_one]
    omega

/-- Of the mantissas with one digit too much only the greatest one is rounded up to `2 ^ 53`. -/
theorem roundedOf_lt_iff {n : Nat} {e : Int} {k : Nat} (a : Accuracy) (hexcess : excess n e = k + 1)
    (hn : n / 2 ^ k < 2 ^ 54) : roundedOf n e a < 2 ^ 53 ↔ n / 2 ^ k < 2 ^ 54 - 1 := by
  have hquotient : n / 2 ^ (k + 1) = n / 2 ^ k / 2 := by rw [Nat.div_div_eq_div_mul, Nat.pow_succ]
  have hmantissa : (ExtendedMantissa.ofMantissaAndAccuracy n a >>> (k + 1)).mantissa =
      n / 2 ^ k / 2 := by
    rw [mantissa_shiftRight, mantissa_ofMantissaAndAccuracy, hquotient]
  by_cases hlast : n / 2 ^ k / 2 = 2 ^ 53 - 1
  · have hrounded : roundedOf n e a = n / 2 ^ k / 2 + (n / 2 ^ k % 2 != 0).toNat := by
      rw [roundedOf, hexcess, roundedMantissa_of_odd (by rw [hmantissa, hlast]; decide),
        roundBit_shiftRight, hmantissa, mantissa_ofMantissaAndAccuracy]
    rw [hrounded]
    rcases Nat.mod_two_eq_zero_or_one (n / 2 ^ k) with hdigit | hdigit <;> rw [hdigit]
    · show n / 2 ^ k / 2 + 0 < _ ↔ _
      omega
    · show n / 2 ^ k / 2 + 1 < _ ↔ _
      omega
  · have hbounds := roundedOf_bounds n e a
    rw [hexcess, hquotient] at hbounds
    omega

/-- The least mantissa that is rounded to an infinity, for an exponent. -/
def leastInfinite (e : Int) : Nat :=
  (2 ^ 54 - 1) * 2 ^ (970 - e).toNat

/-- A number is rounded to an infinity exactly if it is at least half a unit above the greatest one
that has 64 bits. -/
theorem isFinite_roundWithAccuracy_iff (s : Sign) (n : Nat) {e : Int} (a : Accuracy)
    (he : e ≤ 970) :
    (Float.Model.pack (roundWithAccuracy Format.binary64 s n e a)).unpack.isFinite = true ↔
      n < leastInfinite e := by
  obtain ⟨k, hk⟩ : ∃ k : Nat, e = 970 - k := ⟨(970 - e).toNat, by omega⟩
  have hexponent : (970 - e).toNat = k := by omega
  have hpow := Nat.two_pow_pos k
  rw [leastInfinite, hexponent]
  by_cases hlog : n.log2 + e < 1023
  · refine iff_of_true (isFinite_roundWithAccuracy_of_log2_lt s a he hlog) ?_
    calc n < 2 ^ (n.log2 + 1) := Nat.lt_log2_self
      _ ≤ 2 ^ (53 + k) := Nat.pow_le_pow_right Nat.two_pos (by omega)
      _ = 2 ^ 53 * 2 ^ k := Nat.pow_add ..
      _ ≤ (2 ^ 54 - 1) * 2 ^ k := Nat.mul_le_mul_right _ (by decide)
  · have hn : n ≠ 0 := by
      rintro rfl
      rw [Nat.log2_zero] at hlog
      omega
    rw [isFinite_roundWithAccuracy_of_le_log2 s a hn he (by omega)]
    obtain ⟨hlow, hhigh⟩ := (Nat.log2_eq_iff hn).1 rfl
    by_cases hgreat : n.log2 + e = 1023
    · rw [and_iff_right hgreat]
      have hexcess : excess n e = k + 1 := by
        unfold excess
        omega
      rw [← Nat.div_lt_iff_lt_mul hpow, roundedOf_lt_iff a hexcess]
      rw [Nat.div_lt_iff_lt_mul hpow, ← Nat.pow_add]
      exact Nat.lt_of_lt_of_eq hhigh (congrArg _ (by omega))
    · refine iff_of_false (fun h => hgreat h.1) (Nat.not_lt.2 ?_)
      calc (2 ^ 54 - 1) * 2 ^ k ≤ 2 ^ 54 * 2 ^ k := Nat.mul_le_mul_right _ (by decide)
        _ = 2 ^ (54 + k) := (Nat.pow_add ..).symm
        _ ≤ 2 ^ n.log2 := Nat.pow_le_pow_right Nat.two_pos (by omega)
        _ ≤ n := hlow

/-! ### Products and quotients -/

theorem leastInfinite_sub {e : Int} (he : e ≤ 970) (k : Nat) :
    leastInfinite (e - k) = leastInfinite e * 2 ^ k := by
  have hexponent : (970 - (e - k)).toNat = (970 - e).toNat + k := by omega
  rw [leastInfinite, leastInfinite, hexponent, Nat.pow_add, Nat.mul_assoc]

theorem isFinite_mul_iff (s s' : Sign) {m m' : Nat} {e e' : Int} (hm : 0 < m) (hm' : 0 < m')
    (he : e + e' ≤ 970) :
    (Float.Model.pack (UnpackedFloat.mul Format.binary64 (.finite s m e hm)
      (.finite s' m' e' hm'))).unpack.isFinite = true ↔ m * m' < leastInfinite (e + e') :=
  isFinite_roundWithAccuracy_iff (s * s') (m * m') .exact he

theorem isFinite_div_iff (s s' : Sign) {m m' : Nat} {e e' : Int} (hm : 0 < m) (hm' : 0 < m')
    (he : e - e' ≤ 970) :
    (Float.Model.pack (UnpackedFloat.div Format.binary64 (.finite s m e hm)
      (.finite s' m' e' hm'))).unpack.isFinite = true ↔ m < leastInfinite (e - e') * m' := by
  obtain ⟨k, hk⟩ : ∃ k : Nat, min (e - e') (Format.binary64.targetExponent
      (totalExponent m e - totalExponent m' e')) = e - e' - k :=
    ⟨(e - e' - min (e - e') (Format.binary64.targetExponent
      (totalExponent m e - totalExponent m' e'))).toNat, by omega⟩
  have hshift : (e - e' - (e - e' - k)).toNat = k := by omega
  show (Float.Model.pack (roundWithAccuracy Format.binary64 (s / s')
    (divCore Format.binary64 m e m' e').1 (divCore Format.binary64 m e m' e').2.1
    (divCore Format.binary64 m e m' e').2.2)).unpack.isFinite = true ↔ _
  rw [divCore, hk, hshift, Nat.shiftLeft_eq]
  dsimp only
  rw [isFinite_roundWithAccuracy_iff _ _ _ (by omega), Nat.div_lt_iff_lt_mul hm',
    leastInfinite_sub he, Nat.mul_right_comm, Nat.mul_lt_mul_right (Nat.two_pow_pos k)]

namespace Decimal

/-! ### Decimals -/

/-- Half a unit of the last place above the greatest floating-point number. -/
def overflow : Nat :=
  (2 ^ 54 - 1) * 2 ^ 970

/-- The decimal is smaller than what is rounded to an infinity. -/
def Literal.Fits (d : Literal) : Prop :=
  d.significand * 10 ^ d.exponent.toNat < overflow * 10 ^ (-d.exponent).toNat

instance (d : Literal) : Decidable d.Fits :=
  inferInstanceAs (Decidable (_ < _))

theorem leastInfinite_zero : leastInfinite 0 = overflow := by
  have hexponent : ((970 : Int) - 0).toNat = 970 := by decide
  rw [leastInfinite, hexponent, overflow]

theorem overflow_pos : 0 < overflow := by
  decide +kernel

theorem overflow_le {k : Nat} (h : 400 ≤ k) : overflow ≤ 10 ^ k :=
  Nat.le_trans (by decide +kernel) (Nat.pow_le_pow_right (by decide) h)

theorem Literal.fits_of_nonneg {m : Nat} {e : Int} (he : 0 ≤ e) :
    (Literal.mk m e).Fits ↔ m * 10 ^ e.toNat < overflow := by
  have hneg : (-e).toNat = 0 := by omega
  rw [Fits, hneg, Nat.pow_zero, Nat.mul_one]

theorem Literal.fits_of_nonpos {m : Nat} {e : Int} (he : e ≤ 0) :
    (Literal.mk m e).Fits ↔ m < overflow * 10 ^ (-e).toNat := by
  have hpos : e.toNat = 0 := by omega
  rw [Fits, hpos, Nat.pow_zero, Nat.mul_one]

theorem isFinite_unpacked_ofScientific (m : Nat) (e : Int) :
    (Float.Model.pack (UnpackedFloat.ofScientific Format.binary64 m e)).unpack.isFinite = true ↔
      (Literal.mk m e).Fits := by
  have hrange : (2 : Int) ^ Format.binary64.exponentBits = 2048 := rfl
  have hbits : Format.binary64.mantissaBits = 53 := rfl
  rw [UnpackedFloat.ofScientific, hrange]
  split
  · rename_i hm
    refine iff_of_true rfl ?_
    rw [Literal.Fits, hm, Nat.zero_mul]
    exact Nat.mul_pos overflow_pos (Nat.pow_pos (by decide))
  · rename_i hm
    have hm := Nat.pos_of_ne_zero hm
    split
    · rename_i hlarge
      rw [Literal.fits_of_nonneg (by omega)]
      refine iff_of_false Bool.false_ne_true (Nat.not_lt.2 ?_)
      calc overflow ≤ 10 ^ e.toNat := overflow_le (by omega)
        _ ≤ m * 10 ^ e.toNat := Nat.le_mul_of_pos_left _ hm
    · split
      · rename_i hsmall
        rw [Literal.fits_of_nonpos (by omega)]
        refine iff_of_true rfl ?_
        calc m < 2 ^ (m.log2 + 1) := Nat.lt_log2_self
          _ ≤ 10 ^ (m.log2 + 1) := Nat.pow_le_pow_left (by decide) _
          _ ≤ 10 ^ (-e).toNat := Nat.pow_le_pow_right (by decide) (by omega)
          _ ≤ overflow * 10 ^ (-e).toNat := Nat.le_mul_of_pos_left _ overflow_pos
      · split
        · rename_i hnonneg
          have hexponent : -((53 : Nat) : Int) + 0 = 0 - (53 : Nat) := by decide
          rw [Literal.fits_of_nonneg hnonneg, isFinite_mul_iff _ _ _ _ (by omega), hbits, hexponent,
            leastInfinite_sub (by decide), leastInfinite_zero, Nat.shiftLeft_eq,
            Nat.mul_right_comm, Nat.mul_lt_mul_right (Nat.two_pow_pos 53)]
        · rename_i hnegative
          rw [Literal.fits_of_nonpos (by omega), isFinite_div_iff _ _ _ _ (by decide), Int.sub_zero,
            leastInfinite_zero]

/-- The numbers that the short way to a decimal starts with: zero, or a mantissa of 53 digits with a
moderate exponent. -/
inductive Moderate : UnpackedFloat → Prop
  | zero : Moderate (.zero .positive)
  | finite {m : Nat} {e : Int} (hm : 0 < m) (hlt : m < 2 ^ 53) (hlow : -52 ≤ e) (hhigh : e ≤ 52) :
      Moderate (.finite .positive m e hm)

theorem lt_leastInfinite {n : Nat} {e : Int} (hn : n < 2 ^ 106) (he : e ≤ 104) :
    n < leastInfinite e :=
  calc n < 2 ^ 106 := hn
    _ ≤ 2 ^ (970 - e).toNat := Nat.pow_le_pow_right Nat.two_pos (by omega)
    _ ≤ leastInfinite e := Nat.le_mul_of_pos_left _ (by decide)

section Moderate

variable {u : UnpackedFloat} (hu : Moderate u) {m : Nat} {e : Int} (hm : 0 < m) (hlt : m < 2 ^ 53)
  (hlow : -52 ≤ e) (hhigh : e ≤ 52)

include hu hlt hhigh in
theorem Moderate.isFinite_mul :
    (Float.Model.pack (UnpackedFloat.mul Format.binary64 u
      (.finite .positive m e hm))).unpack.isFinite = true := by
  cases hu with
  | zero => exact isFinite_pack_zero _
  | finite hn hlt' hlow' hhigh' =>
    have hproduct := Nat.mul_lt_mul'' hlt' hlt
    rw [← Nat.pow_add] at hproduct
    exact (isFinite_mul_iff _ _ _ _ (by omega)).2 (lt_leastInfinite hproduct (by omega))

include hu hlow in
theorem Moderate.isFinite_div :
    (Float.Model.pack (UnpackedFloat.div Format.binary64 u
      (.finite .positive m e hm))).unpack.isFinite = true := by
  cases hu with
  | zero => exact isFinite_pack_zero _
  | finite hn hlt' hlow' hhigh' =>
    refine (isFinite_div_iff _ _ _ _ (by omega)).2 ?_
    exact Nat.lt_of_lt_of_le (lt_leastInfinite (by omega) (by omega)) (Nat.le_mul_of_pos_right _ hm)

end Moderate

theorem moderate_of_lt {m : Nat} (hlt : m < 2 ^ 53) :
    Moderate
      (Float.Model.pack (UnpackedFloat.normalize Format.binary64 m 0 .positive)).unpack := by
  by_cases hm : m = 0
  · rw [hm]
    exact .zero
  · have hlog := log2_le_of_lt hlt
    have hpos := Nat.pos_of_ne_zero hm
    rw [normalize_natCast hpos, round_of_lt hm hlt, (stands_of_lt hm hlt).unpack_pack]
    refine .finite _ ?_ (by omega) (by omega)
    have hmantissa := log2_mantissa hm hlog
    exact (Nat.log2_lt (Nat.ne_of_gt (Nat.mul_pos hpos (Nat.two_pow_pos _)))).1 (by omega)

/-- The short way to a decimal with few digits never leaves the range. -/
theorem isFinite_ofScientific_of_lt {m e : Nat} (hm : m < 2 ^ 53) (he : e ≤ 22) (s : Bool) :
    (Float.ofScientific m s e).isFinite = true := by
  have hsize : e < Float.exactlyRepresentablePowersOfTen.size := Nat.lt_succ_of_le he
  obtain ⟨n, k, hn, hpower, hlt, hlow, hhigh⟩ := exists_unpack_powersOfTen ⟨e, hsize⟩
  have hpower : Float.exactlyRepresentablePowersOfTen[e].toModel.unpack =
      .finite .positive n k hn := hpower
  have hnat : m.toUInt64.toNat = m := by
    rw [Nat.toUInt64_eq, UInt64.toNat_ofNat']
    omega
  have hfactor := moderate_of_lt hm
  rw [Float.ofScientific, dif_pos ⟨hm, he⟩]
  cases s with
  | false =>
    show (Float.Model.pack (UnpackedFloat.mul Format.binary64 (Float.Model.pack
      (UnpackedFloat.normalize Format.binary64 m.toUInt64.toNat 0 .positive)).unpack
      Float.exactlyRepresentablePowersOfTen[e].toModel.unpack)).unpack.isFinite = true
    rw [hnat, hpower]
    exact hfactor.isFinite_mul hn hlt hhigh
  | true =>
    show (Float.Model.pack (UnpackedFloat.div Format.binary64 (Float.Model.pack
      (UnpackedFloat.normalize Format.binary64 m.toUInt64.toNat 0 .positive)).unpack
      Float.exactlyRepresentablePowersOfTen[e].toModel.unpack)).unpack.isFinite = true
    rw [hnat, hpower]
    exact hfactor.isFinite_div hn hlow

theorem isFinite_ofScientific_iff {m : Nat} {e : Int} :
    (Float.ofScientific m (decide (e < 0)) e.natAbs).isFinite = true ↔ (Literal.mk m e).Fits := by
  by_cases hshort : m < 2 ^ 53 ∧ e.natAbs ≤ 22
  · refine iff_of_true (isFinite_ofScientific_of_lt hshort.1 hshort.2 _) ?_
    by_cases he : 0 ≤ e
    · rw [Literal.fits_of_nonneg he]
      calc m * 10 ^ e.toNat < 2 ^ 53 * 10 ^ e.toNat :=
            Nat.mul_lt_mul_of_pos_right hshort.1 (Nat.pow_pos (by decide))
        _ ≤ 2 ^ 53 * 10 ^ 22 := Nat.mul_le_mul_left _ (Nat.pow_le_pow_right (by decide) (by omega))
        _ ≤ overflow := by decide +kernel
    · rw [Literal.fits_of_nonpos (by omega)]
      calc m < 2 ^ 53 := hshort.1
        _ ≤ overflow := by decide +kernel
        _ ≤ overflow * 10 ^ (-e).toNat := Nat.le_mul_of_pos_right _ (Nat.pow_pos (by decide))
  · have hexponent : (if decide (e < 0) = true then Int.negOfNat e.natAbs else Int.ofNat e.natAbs) =
        e := by
      cases e with
      | ofNat k => rfl
      | negSucc k =>
        rw [if_pos (decide_eq_true (Int.negSucc_lt_zero k))]
        rfl
    rw [Float.ofScientific, dif_neg hshort, hexponent]
    exact isFinite_unpacked_ofScientific m e

/-! ### The leading digit -/

/-- A number is between the powers of ten that its number of digits gives. -/
theorem pow_length_digits_bounds {n : Nat} (hn : n ≠ 0) :
    10 ^ ((digits n).length - 1) ≤ n ∧ n < 10 ^ (digits n).length := by
  induction n using digits.induct with
  | case1 n hlt =>
    rw [digits, if_pos hlt]
    exact ⟨Nat.one_le_iff_ne_zero.2 hn, hlt⟩
  | case2 n hge ih =>
    obtain ⟨hlow, hhigh⟩ := ih (by omega)
    obtain ⟨k, hk⟩ : ∃ k, (digits (n / 10)).length = k + 1 :=
      Nat.exists_eq_succ_of_ne_zero fun h => digits_ne_nil _ (List.length_eq_zero_iff.1 h)
    have hlength : (digits n).length = k + 1 + 1 := by
      rw [digits, if_neg hge, List.length_append, hk, List.length_singleton]
    rw [hk] at hlow hhigh
    rw [hlength, Nat.add_sub_cancel, Nat.pow_succ 10 (k + 1)]
    rw [Nat.add_sub_cancel] at hlow
    rw [Nat.pow_succ]
    omega

theorem Literal.fits_of_leading_lt {m : Nat} {e : Int} (hm : m ≠ 0)
    (h : e + (digits m).length < -400) : (Literal.mk m e).Fits := by
  rw [fits_of_nonpos (by omega)]
  calc m < 10 ^ (digits m).length := (pow_length_digits_bounds hm).2
    _ ≤ 10 ^ (-e).toNat := Nat.pow_le_pow_right (by decide) (by omega)
    _ ≤ overflow * 10 ^ (-e).toNat := Nat.le_mul_of_pos_left _ overflow_pos

theorem Literal.not_fits_of_lt_leading {m : Nat} {e : Int} (hm : m ≠ 0)
    (h : 400 < e + (digits m).length) : ¬(Literal.mk m e).Fits := by
  have hlow := (pow_length_digits_bounds hm).1
  by_cases he : 0 ≤ e
  · rw [fits_of_nonneg he, Nat.not_lt]
    calc overflow ≤ 10 ^ ((digits m).length - 1 + e.toNat) := overflow_le (by omega)
      _ = 10 ^ ((digits m).length - 1) * 10 ^ e.toNat := Nat.pow_add ..
      _ ≤ m * 10 ^ e.toNat := Nat.mul_le_mul_right _ hlow
  · obtain ⟨k, hk⟩ : ∃ k, (digits m).length - 1 = k + (-e).toNat :=
      ⟨(digits m).length - 1 - (-e).toNat, by omega⟩
    rw [fits_of_nonpos (by omega), Nat.not_lt]
    calc overflow * 10 ^ (-e).toNat ≤ 10 ^ k * 10 ^ (-e).toNat :=
          Nat.mul_le_mul_right _ (overflow_le (by omega))
      _ = 10 ^ ((digits m).length - 1) := by rw [hk, Nat.pow_add]
      _ ≤ m := hlow

/-- A decimal becomes a finite number exactly if it is smaller than what is rounded to an
infinity. -/
theorem isFinite_toFloat_iff (d : Literal) : d.toFloat.isFinite = true ↔ d.Fits := by
  obtain ⟨m, e⟩ := d
  unfold Literal.toFloat
  dsimp only
  split
  · rename_i hsmall
    refine iff_of_true (by decide +kernel) ?_
    by_cases hm : m = 0
    · rw [Literal.Fits, hm, Nat.zero_mul]
      exact Nat.mul_pos overflow_pos (Nat.pow_pos (by decide))
    · exact Literal.fits_of_leading_lt hm (hsmall.resolve_left hm)
  · rename_i hsmall
    obtain ⟨hm, -⟩ := not_or.1 hsmall
    split
    · rename_i hlarge
      exact iff_of_false (by decide +kernel) (Literal.not_fits_of_lt_leading hm hlarge)
    · rw [← isFinite_ofScientific_iff]
      split
      · rename_i he
        rw [decide_eq_true he]
      · rename_i he
        rw [decide_eq_false he]

/-! ### Texts -/

/-- The text is read as a number that is not finite: an infinity or `nan` by its name, in any case
and behind a sign or not, or a decimal that is too large. -/
def NotFinite (cs : List Char) : Prop :=
  Text.lower (String.ofList (afterSign cs)) ∈ ["inf", "infinity", "nan"] ∨
    ∃ d, Literal.read? (afterSign cs) = some d ∧ ¬d.Fits

instance (cs : List Char) : Decidable (NotFinite cs) :=
  decidable_of_iff (Text.lower (String.ofList (afterSign cs)) ∈ ["inf", "infinity", "nan"] ∨
    ∃ d ∈ Literal.read? (afterSign cs), ¬d.Fits) (by rfl)

example : NotFinite "-Infinity".toList ∧ NotFinite "1e309".toList ∧ ¬NotFinite "1e308".toList := by
  decide +kernel

theorem isFinite_neg (x : Float) : x.neg.isFinite = x.isFinite := by
  show (Float.Model.pack x.toModel.unpack.neg).unpack.isFinite = x.toModel.unpack.isFinite
  cases hunpack : x.toModel.unpack with
  | notANumber => rfl
  | infinity s => cases s <;> rfl
  | zero s => exact isFinite_pack_zero _
  | finite s m e hm => exact (isFinite_pack_finite hm).2 (exponent_le_of_unpack hunpack)

/-- A magnitude is not finite exactly if its text names one that is not, or is a decimal that is too
large. -/
theorem isFinite_eq_false_iff_of_magnitude? {cs : List Char} {x : Float}
    (h : magnitude? cs = some x) :
    x.isFinite = false ↔ Text.lower (String.ofList cs) ∈ ["inf", "infinity", "nan"] ∨
      ∃ d, Literal.read? cs = some d ∧ ¬d.Fits := by
  unfold magnitude? at h
  dsimp only at h
  split at h
  · rename_i hname
    obtain rfl := Option.some.inj h
    refine iff_of_true (by decide +kernel) (Or.inl ?_)
    rcases hname with hname | hname <;> simp [hname]
  · rename_i hinfinity
    split at h
    · rename_i hname
      obtain rfl := Option.some.inj h
      exact iff_of_true (by decide +kernel) (Or.inl (by simp [hname]))
    · rename_i hnan
      obtain ⟨d, hread, rfl⟩ := Option.map_eq_some_iff.1 h
      have hname : Text.lower (String.ofList cs) ∉ ["inf", "infinity", "nan"] := by
        simpa [not_or, and_assoc] using And.intro hinfinity hnan
      rw [or_iff_right hname, hread, ← Bool.not_eq_true, isFinite_toFloat_iff]
      refine ⟨fun hfits => ⟨d, rfl, hfits⟩, ?_⟩
      rintro ⟨d', hread', hfits⟩
      rwa [Option.some.inj hread']

/-- A text that is read as a floating-point number is read as one that is not finite exactly if it
names one, or is a decimal that is too large. -/
theorem isFinite_eq_false_iff_of_float? {cs : List Char} {x : Float} (h : float? cs = some x) :
    x.isFinite = false ↔ NotFinite cs := by
  rcases float?_eq cs with hread | hread <;> rw [hread] at h
  · exact isFinite_eq_false_iff_of_magnitude? h
  · obtain ⟨y, hy, rfl⟩ := Option.map_eq_some_iff.1 h
    rw [isFinite_neg]
    exact isFinite_eq_false_iff_of_magnitude? hy

/-- Such a text is read as a floating-point number. -/
theorem NotFinite.exists_float? {cs : List Char} (h : NotFinite cs) :
    ∃ x, float? cs = some x ∧ x.isFinite = false := by
  have hread : (magnitude? (afterSign cs)).isSome = true := by
    unfold magnitude?
    dsimp only
    split
    · rfl
    · rename_i hinfinity
      split
      · rfl
      · rename_i hnan
        rcases h with hname | ⟨d, hread, -⟩
        · simp only [List.mem_cons, List.not_mem_nil, or_false] at hname
          exact absurd (or_assoc.2 hname) (not_or.2 ⟨hinfinity, hnan⟩)
        · simp [hread]
  have hsome : (float? cs).isSome = true := by
    rcases float?_eq cs with hread' | hread' <;> simp [hread', hread]
  obtain ⟨x, hx⟩ := Option.isSome_iff_exists.1 hsome
  exact ⟨x, hx, (isFinite_eq_false_iff_of_float? hx).2 h⟩

/-! ### Integers -/

theorem natural?_eq_some {ds : List Char} {n : Nat} (h : natural? ds = some n) :
    ds ≠ [] ∧ ∀ c ∈ ds, c.isDigit = true := by
  unfold natural? at h
  split at h
  · rename_i hdigits
    exact ⟨hdigits.1, List.all_eq_true.1 hdigits.2⟩
  · cases h

/-- A digit is none of the characters that are not digits. -/
theorem bne_of_isDigit {c c' : Char} (h : c.isDigit = true) (h' : c'.isDigit = false) :
    (c != c') = true := by
  rw [bne_iff_ne]
  rintro rfl
  rw [h] at h'
  cases h'

/-- Digits are a decimal without a fraction. -/
theorem read?_of_natural? {ds : List Char} {n : Nat} (h : natural? ds = some n) :
    Literal.read? ds = some ⟨n, 0⟩ := by
  have hdigits := (natural?_eq_some h).2
  have hmark : ∀ c ∈ ds, (!(c == 'e' || c == 'E')) = true := by
    intro c hc
    rw [Bool.not_or, ← bne, ← bne, bne_of_isDigit (hdigits c hc) (by decide),
      bne_of_isDigit (hdigits c hc) (by decide)]
    rfl
  have hpoint : ∀ c ∈ ds, (c != '.') = true :=
    fun c hc => bne_of_isDigit (hdigits c hc) (by decide)
  unfold Literal.read?
  dsimp only
  rw [List.takeWhile_eq_self_iff.2 hmark, List.dropWhile_eq_nil_iff.2 hmark,
    List.takeWhile_eq_self_iff.2 hpoint, List.dropWhile_eq_nil_iff.2 hpoint, List.drop_nil,
    List.append_nil, h]
  rfl

theorem toLower_of_isDigit {c : Char} (h : c.isDigit = true) : c.toLower = c := by
  have hdigit := (Char.isDigit_iff_toNat.1 h).2
  unfold Char.toLower
  rw [dif_neg]
  rintro ⟨hupper, -⟩
  have hupper : 65 ≤ c.toNat := hupper
  have hdigit : c.toNat ≤ 57 := hdigit
  omega

/-- No name is a text of digits. -/
theorem lower_notMem_of_natural? {ds : List Char} {n : Nat} (h : natural? ds = some n) :
    Text.lower (String.ofList ds) ∉ ["inf", "infinity", "nan"] := by
  obtain ⟨hne, hdigits⟩ := natural?_eq_some h
  have hlower : Text.lower (String.ofList ds) = String.ofList ds := by
    rw [Text.lower, String.toList_ofList,
      List.map_congr_left fun c hc => toLower_of_isDigit (hdigits c hc), List.map_id']
  rw [hlower]
  intro hname
  have hletters : ∀ name ∈ ["inf", "infinity", "nan"], name.toList.all Char.isDigit = false := by
    decide
  have hfalse := hletters _ hname
  rw [String.toList_ofList, List.all_eq_true.2 hdigits] at hfalse
  cases hfalse

theorem exists_natural?_of_signed? {cs : List Char} {i : Int} (h : signed? cs = some i) :
    ∃ n, natural? (afterSign cs) = some n ∧ n ≤ 2 ^ 63 := by
  unfold signed? at h
  obtain ⟨hread, hsigned⟩ := Option.filter_eq_some_iff.1 h
  simp only [isSigned, Bool.and_eq_true, decide_eq_true_eq] at hsigned
  unfold afterSign
  split at hread <;> obtain ⟨n, hn, rfl⟩ := Option.map_eq_some_iff.1 hread <;>
    rw [Int.ofNat_eq_natCast] at hsigned
  · exact ⟨n, hn, by omega⟩
  · exact ⟨n, hn, by omega⟩
  · exact ⟨n, by simp [*], by omega⟩

/-- An integer of 64 bits is finite. -/
theorem not_notFinite_of_signed? {cs : List Char} {i : Int} (h : signed? cs = some i) :
    ¬NotFinite cs := by
  obtain ⟨n, hn, hle⟩ := exists_natural?_of_signed? h
  rintro (hname | ⟨d, hread, hfits⟩)
  · exact lower_notMem_of_natural? hn hname
  · obtain rfl := Option.some.inj ((read?_of_natural? hn).symm.trans hread)
    refine hfits ((Literal.fits_of_nonneg (le_refl 0)).2 ?_)
    calc n * 10 ^ 0 ≤ 2 ^ 63 := by omega
      _ < overflow := by decide +kernel

end Decimal

end TableSql
