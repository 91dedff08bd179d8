import Mathlib

/-!
# Floating-point numbers of 64 bits

A floating-point number of 64 bits has a mantissa of 53 binary digits. Its operations are followed
here as the logic defines them: the mantissa of a result is shifted to 53 digits, what is shifted
out decides about the last of them, and sign, exponent and mantissa are packed into 64 bits and
unpacked again.

What is shifted out is kept as two bits only, the first digit and whether any other one is set. They
tell it from half a unit, so the mantissa is rounded to nearest, and to even in the middle.

Only operations on a number that is not a number itself, and sums, products and quotients of zeros
and infinities, give a result that is not a number. Of two numbers at most one is less than the
other.

## Main definitions

* `roundHalfEven` — a quotient by a power of two, rounded to nearest.
* `shortened` — a mantissa without its last digits.

## Main results

* `shiftRight_eq_shortened`, `roundedMantissa_shortened` — shifting and rounding a mantissa.
* `exists_roundWithAccuracy` — a number of at least 53 digits is rounded to nearest.
* `roundWithAccuracy_eq`, `round_eq` — a mantissa with nothing but zeros behind 53 digits is rounded
  to these digits.
* `unpack_pack_of_log2` — a mantissa of 53 digits is packed without loss.
* `isNaN_unpack_pack`, `isNaN_mul`, `isNaN_div` — results that are not numbers.
* `compare_swap`, `not_lt_of_lt` — the order of two numbers.
-/

namespace TableSql

open Float.Model Float.Model.UnpackedFloat

/-! ### Mantissas -/

theorem log2_mul_two_pow {n : Nat} (hn : n ≠ 0) (k : Nat) : (n * 2 ^ k).log2 = n.log2 + k := by
  have hpow := Nat.two_pow_pos k
  refine (Nat.log2_eq_iff (Nat.mul_ne_zero hn (Nat.ne_of_gt hpow))).2 ⟨?_, ?_⟩
  · rw [Nat.pow_add]
    exact Nat.mul_le_mul_right _ (Nat.log2_self_le hn)
  · rw [Nat.add_right_comm, Nat.pow_add]
    exact Nat.mul_lt_mul_of_pos_right Nat.lt_log2_self hpow

theorem log2_le_of_lt {n : Nat} (hn : n < 2 ^ 53) : n.log2 ≤ 52 := by
  by_cases h : n = 0
  · rw [h]
    decide
  · exact Nat.lt_succ_iff.1 ((Nat.log2_lt h).2 hn)

/-- The mantissa of a number below `2 ^ 53` has 53 digits. -/
theorem log2_mantissa {n : Nat} (hn : n ≠ 0) (h : n.log2 ≤ 52) :
    (n * 2 ^ (52 - n.log2)).log2 = 52 := by
  rw [log2_mul_two_pow hn, Nat.add_sub_cancel' h]

/-! ### Rounding to nearest -/

/-- The quotient `n / 2 ^ k`, rounded to the nearest natural number, and to the even one of two that
are equally near. -/
def roundHalfEven (n k : Nat) : Nat :=
  if 2 * (n % 2 ^ k) < 2 ^ k then n / 2 ^ k
  else if 2 * (n % 2 ^ k) = 2 ^ k then n / 2 ^ k + n / 2 ^ k % 2
  else n / 2 ^ k + 1

/-- A mantissa of 53 digits stays one when it is rounded, or grows to `2 ^ 53`. -/
theorem roundHalfEven_bounds {n k : Nat} (hn : n ≠ 0) (hlog : n.log2 = 52 + k) :
    2 ^ 52 ≤ roundHalfEven n k ∧ roundHalfEven n k ≤ 2 ^ 53 := by
  obtain ⟨hlow, hhigh⟩ := (Nat.log2_eq_iff hn).1 hlog
  have hpow := Nat.two_pow_pos k
  have hlow' : 2 ^ 52 ≤ n / 2 ^ k := by
    rw [Nat.le_div_iff_mul_le hpow, ← Nat.pow_add]
    exact hlow
  have hhigh' : n / 2 ^ k < 2 ^ 53 := by
    rw [Nat.div_lt_iff_lt_mul hpow, ← Nat.pow_add]
    exact Nat.lt_of_lt_of_eq hhigh (congrArg _ (by omega))
  unfold roundHalfEven
  split
  · omega
  · split <;> omega

/-- What is rounded off a multiple. -/
theorem roundHalfEven_mul_two_pow (n k a : Nat) :
    roundHalfEven (n * 2 ^ a) (k + a) = roundHalfEven n k := by
  have hpow := Nat.two_pow_pos a
  have hquotient : n * 2 ^ a / 2 ^ (k + a) = n / 2 ^ k := by
    rw [Nat.pow_add, Nat.mul_div_mul_right _ _ hpow]
  have hrest : 2 * (n * 2 ^ a % 2 ^ (k + a)) = 2 * (n % 2 ^ k) * 2 ^ a := by
    rw [Nat.pow_add, Nat.mul_mod_mul_right, Nat.mul_assoc]
  unfold roundHalfEven
  rw [hquotient, hrest, Nat.pow_add]
  simp only [Nat.mul_lt_mul_right hpow, Nat.mul_left_inj (Nat.ne_of_gt hpow)]

theorem roundHalfEven_zero (n : Nat) : roundHalfEven n 0 = n := by
  simp [roundHalfEven, Nat.mod_one]

/-! ### Rounding of mantissas -/

/-- A mantissa without its last `k` digits, and how these compare with half a unit. -/
def shortened (n k : Nat) : ExtendedMantissa :=
  ⟨n / 2 ^ k, decide (2 ^ k ≤ 2 * (n % 2 ^ k)), decide (2 * (n % 2 ^ k) % 2 ^ k ≠ 0)⟩

theorem shiftRightOne_shortened (n k : Nat) :
    (shortened n k).shiftRightOne = shortened n (k + 1) := by
  have hpow := Nat.two_pow_pos k
  have hmod := Nat.mod_pow_succ (x := n) (b := 2) (k := k)
  have hrest : n % 2 ^ k < 2 ^ k := Nat.mod_lt _ hpow
  have hdigit : n / 2 ^ k % 2 = 0 ∨ n / 2 ^ k % 2 = 1 := Nat.mod_two_eq_zero_or_one _
  have hsticky : 2 * (n % 2 ^ (k + 1)) % 2 ^ (k + 1) = 2 * (n % 2 ^ k) := by
    rw [Nat.pow_succ', Nat.mul_mod_mul_left, ← Nat.pow_succ', hmod, Nat.add_mul_mod_self_left,
      Nat.mod_mod]
  have hquotient : n / 2 ^ k / 2 = n / 2 ^ (k + 1) := by
    rw [Nat.div_div_eq_div_mul, Nat.pow_succ]
  simp only [shortened, ExtendedMantissa.shiftRightOne, ExtendedMantissa.mk.injEq]
  refine ⟨hquotient, ?_, ?_⟩
  · rw [Bool.eq_iff_iff, bne_iff_ne, decide_eq_true_iff, hmod]
    rcases hdigit with h | h <;> rw [h] <;> omega
  · rw [Bool.eq_iff_iff, Bool.or_eq_true, decide_eq_true_iff, decide_eq_true_iff,
      decide_eq_true_iff, hsticky]
    by_cases hhalf : 2 ^ k ≤ 2 * (n % 2 ^ k)
    · omega
    · rw [Nat.mod_eq_of_lt (Nat.not_le.1 hhalf)]
      omega

theorem shiftRight_eq_shortened (n k : Nat) :
    (⟨n, false, false⟩ : ExtendedMantissa) >>> k = shortened n k := by
  induction k with
  | zero => simp [HShiftRight.hShiftRight, Nat.repeat, shortened, Nat.mod_one]
  | succ k ih =>
    show ((⟨n, false, false⟩ : ExtendedMantissa) >>> k).shiftRightOne = _
    rw [ih, shiftRightOne_shortened]

theorem roundedMantissa_shortened (n k : Nat) :
    (shortened n k).roundedMantissa = roundHalfEven n k := by
  have hrest : n % 2 ^ k < 2 ^ k := Nat.mod_lt _ (Nat.two_pow_pos k)
  unfold roundHalfEven shortened
  by_cases hhalf : 2 * (n % 2 ^ k) < 2 ^ k
  · rw [if_pos hhalf, decide_eq_false (Nat.not_le.2 hhalf)]
    cases decide (2 * (n % 2 ^ k) % 2 ^ k ≠ 0) <;> rfl
  · have hsticky : 2 * (n % 2 ^ k) % 2 ^ k = 2 * (n % 2 ^ k) - 2 ^ k := by
      rw [Nat.mod_eq_sub_mod (Nat.not_lt.1 hhalf), Nat.mod_eq_of_lt (by omega)]
    rw [if_neg hhalf, decide_eq_true (Nat.not_lt.1 hhalf)]
    by_cases htie : 2 * (n % 2 ^ k) = 2 ^ k
    · rw [if_pos htie, decide_eq_false (by omega)]
      rfl
    · rw [if_neg htie, decide_eq_true (by omega)]
      rfl

/-- To shift zeros out of a mantissa loses nothing. -/
theorem shiftRight_mul_two_pow (m k : Nat) :
    (⟨m * 2 ^ k, false, false⟩ : ExtendedMantissa) >>> k = ⟨m, false, false⟩ := by
  rw [shiftRight_eq_shortened]
  simp [shortened]

theorem decreaseExponent_eq {m : Nat} {e target : Int} {k : Nat} (h : (e - target).toNat = k) :
    decreaseExponent m e target = (m * 2 ^ k, e - k) := by
  rw [decreaseExponent, h, Nat.shiftLeft_eq]

/-- The exponent that a number of usual size gets. -/
theorem targetExponent_eq {m : Nat} {e : Int} (he : -1022 ≤ m.log2 + e) :
    Format.binary64.targetExponent (totalExponent m e) = m.log2 + e - 52 := by
  simp only [Format.targetExponent, totalExponent, Format.mantissaBits, Format.minExponent]
  omega

theorem shiftToTargetExponent_eq {n : Nat} {e : Int} (k : Nat) (hlog : n.log2 = 52 + k)
    (he : -1074 ≤ e + k) :
    shiftToTargetExponent Format.binary64 n e .exact = (shortened n k, e + k) := by
  have hk : (((52 + k : Nat) : Int) + e - 52 - e).toNat = k := by omega
  rw [shiftToTargetExponent, targetExponent_eq (by omega), hlog]
  simp only [shiftToExponent, hk, ExtendedMantissa.ofMantissaAndAccuracy, shiftRight_eq_shortened]

/-- Rounding to 53 digits. -/
theorem exists_roundWithAccuracy {n : Nat} {e : Int} (s : Sign) (hn : n ≠ 0) (k : Nat)
    (hlog : n.log2 = 52 + k) (he : -1074 ≤ e + k) :
    ∃ m c : Nat, ∃ hm : 0 < m, roundWithAccuracy Format.binary64 s n e .exact =
        .finite s m (e + k + c) hm ∧
      m.log2 = 52 ∧ c ≤ 1 ∧ m * 2 ^ c = roundHalfEven n k := by
  obtain ⟨hlow, hhigh⟩ := roundHalfEven_bounds hn hlog
  have hfirst := shiftToTargetExponent_eq k hlog he
  -- Only a mantissa that has become `2 ^ 53` is shifted once more.
  obtain ⟨m, c, hc, hround, hlog'⟩ : ∃ m c : Nat, c ≤ 1 ∧ m * 2 ^ c = roundHalfEven n k ∧
      m.log2 = 52 := by
    by_cases hgrown : roundHalfEven n k = 2 ^ 53
    · exact ⟨2 ^ 52, 1, le_refl 1, hgrown.symm, by decide⟩
    · exact ⟨_, 0, Nat.zero_le 1, Nat.mul_one _,
        (Nat.log2_eq_iff (by omega)).2 ⟨hlow, by omega⟩⟩
  have hm : m ≠ 0 := by
    rintro rfl
    cases hlog'
  have hgrown : (roundHalfEven n k).log2 = 52 + c := by
    rw [← hround, log2_mul_two_pow hm, hlog']
  have hsecond := shiftToTargetExponent_eq (e := e + k) c hgrown (by omega)
  have hmantissa : (shortened (roundHalfEven n k) c).mantissa = m := by
    rw [← hround]
    exact Nat.mul_div_cancel _ (Nat.two_pow_pos c)
  refine ⟨m, c, Nat.pos_of_ne_zero hm, ?_, hlog', hc, hround⟩
  simp only [roundWithAccuracy, hfirst, roundedMantissa_shortened, hsecond, hmantissa]
  rw [dif_neg hm]

/-- A mantissa with nothing but zeros behind 53 digits is rounded to these digits. -/
theorem roundWithAccuracy_eq {m : Nat} {e : Int} (hm : 0 < m) (hlog : m.log2 = 52) (k : Nat)
    (he : -1074 ≤ e + k) :
    roundWithAccuracy Format.binary64 .positive (m * 2 ^ k) e .exact =
      .finite .positive m (e + k) hm := by
  have hne := Nat.ne_of_gt hm
  obtain ⟨m', c, hm', hround, hlog', -, hvalue⟩ := exists_roundWithAccuracy .positive
    (Nat.mul_ne_zero hne (Nat.ne_of_gt (Nat.two_pow_pos k))) k
    (by rw [log2_mul_two_pow hne, hlog]) he
  have hexact : roundHalfEven (m * 2 ^ k) k = m := by
    have h := roundHalfEven_mul_two_pow m 0 k
    rwa [Nat.zero_add, roundHalfEven_zero] at h
  obtain rfl : c = 0 := by
    have h := congrArg Nat.log2 (hvalue.trans hexact)
    rw [log2_mul_two_pow (Nat.ne_of_gt hm')] at h
    omega
  obtain rfl : m' = m := by omega
  rw [hround, Int.natCast_zero, Int.add_zero]

/-- The same where the exponent may be decreased first. -/
theorem round_eq {m : Nat} {e : Int} (hm : 0 < m) (hlog : m.log2 = 52) (k : Nat)
    (he : -1074 ≤ e) :
    UnpackedFloat.round Format.binary64 .positive (m * 2 ^ k) e =
      .finite .positive m (e + k) hm := by
  have hlog' : (m * 2 ^ k).log2 = 52 + k := by rw [log2_mul_two_pow (Nat.ne_of_gt hm), hlog]
  rw [UnpackedFloat.round, targetExponent_eq (by omega), hlog',
    decreaseExponent_eq (k := 0) (by omega), Nat.pow_zero, Nat.mul_one]
  dsimp only
  rw [Int.natCast_zero, Int.sub_zero, roundWithAccuracy_eq hm hlog k (by omega)]

theorem normalize_natCast {m : Nat} (hm : 0 < m) (e : Int) (s : Sign) :
    UnpackedFloat.normalize Format.binary64 m e s =
      UnpackedFloat.round Format.binary64 .positive m e := by
  have hgt : compare (m : Int) 0 = .gt := Int.compare_eq_gt.2 (by omega)
  rw [UnpackedFloat.normalize, hgt]
  rfl

/-! ### Packing -/

/-- The first of 53 digits is not kept, and is a one again when the mantissa is unpacked. -/
theorem toNat_one_append {m : Nat} (hm : m ≠ 0) (hlog : m.log2 = 52) :
    (1#1 ++ BitVec.ofNat 52 m).toNat = m := by
  obtain ⟨hlow, hhigh⟩ := (Nat.log2_eq_iff hm).1 hlog
  rw [BitVec.toNat_append, ← Nat.shiftLeft_add_eq_or_of_lt (BitVec.isLt _), Nat.shiftLeft_eq,
    BitVec.toNat_ofNat, BitVec.toNat_ofNat]
  omega

theorem pack_of_log2 {s : Sign} {m : Nat} {e : Int} {b : Nat} (hm : 0 < m) (hlog : m.log2 = 52)
    (he : e = b - 1075) (hb : b < 2047) :
    UnpackedFloat.pack Format.binary64 (.finite s m e hm) =
      packComponents Format.binary64 s (BitVec.ofNat 11 b) (BitVec.ofNat 52 m) := by
  have hbiased : (e + (1023 : Nat) + (52 : Nat)).toNat = b := by omega
  show (if 2 ^ 11 ≤ (e + (1023 : Nat) + (52 : Nat)).toNat + 1 then _
    else if m.log2 + 1 = 53 then packComponents Format.binary64 s
      (BitVec.ofNat 11 (e + (1023 : Nat) + (52 : Nat)).toNat) (BitVec.ofNat 52 m)
    else _) = _
  rw [hbiased, if_neg (by omega), if_pos (by omega)]

/-- A mantissa of 53 digits is packed without loss, with any exponent of a normal number. -/
theorem unpack_pack_of_log2 {s : Sign} {m : Nat} {e : Int} (hm : 0 < m) (hlog : m.log2 = 52)
    (he : -1074 ≤ e) (he' : e ≤ 971) :
    (Float.Model.pack (.finite s m e hm)).unpack = .finite s m e hm := by
  obtain ⟨b, hb⟩ : ∃ b : Nat, e = b - 1075 := ⟨(e + 1075).toNat, by omega⟩
  have hlow : BitVec.ofNat 11 b ≠ 0#11 := by
    intro h
    have h := congrArg BitVec.toNat h
    simp only [BitVec.toNat_ofNat] at h
    omega
  have hhigh : BitVec.ofNat 11 b ≠ -1#11 := by
    intro h
    have h := congrArg BitVec.toNat h
    simp only [BitVec.toNat_ofNat, BitVec.toNat_neg] at h
    omega
  show UnpackedFloat.unpack _ (UnpackedFloat.pack _ _) = _
  rw [pack_of_log2 hm hlog hb (by omega), UnpackedFloat.unpack]
  simp only [unpackMantissa_packComponents, unpackExponent_packComponents,
    unpackSign_packComponents]
  rw [if_neg hhigh, if_neg hlow]
  simp only [UnpackedFloat.finite.injEq]
  refine ⟨by cases s <;> rfl, toNat_one_append (Nat.ne_of_gt hm) hlog, ?_⟩
  rw [BitVec.toNat_ofNat]
  show ((b % 2 ^ 11 : Nat) : Int) - ((1023 : Nat) + (52 : Nat)) = _
  omega

/-! ### Numbers that are not numbers -/

/-- Packing makes no number of what is none, and the other way round. -/
theorem isNaN_unpack_pack (u : UnpackedFloat) :
    (Float.Model.pack u).unpack.isNaN = u.isNaN := by
  have hfinite {s : Sign} {b : BitVec 11} {m : BitVec 52} (hb : b ≠ -1#11) :
      (UnpackedFloat.unpack Format.binary64 (packComponents Format.binary64 s b m)).isNaN =
        false := by
    rw [UnpackedFloat.unpack]
    simp only [unpackMantissa_packComponents, unpackExponent_packComponents, if_neg hb]
    split <;> try split
    all_goals rfl
  cases u with
  | notANumber => rfl
  | infinity s => cases s <;> rfl
  | zero s => cases s <;> rfl
  | finite s m e hm =>
    show (UnpackedFloat.unpack Format.binary64 (UnpackedFloat.pack Format.binary64 _)).isNaN = false
    rw [UnpackedFloat.pack]
    dsimp only
    split
    · cases s <;> rfl
    · rename_i hsmall
      split
      · refine hfinite fun h => ?_
        have h := congrArg BitVec.toNat h
        simp only [BitVec.toNat_ofNat, BitVec.toNat_neg] at h
        omega
      · exact hfinite (by decide)

theorem isNaN_roundWithAccuracy (spec : Format) (s : Sign) (m : Nat) (e : Int) (a : Accuracy) :
    (roundWithAccuracy spec s m e a).isNaN = false := by
  rw [roundWithAccuracy]
  dsimp only
  split <;> rfl

/-- A number times a finite one that is not zero is a number. -/
theorem isNaN_mul (spec : Format) {u : UnpackedFloat} (hu : u.isNaN = false) (s : Sign) (m : Nat)
    (e : Int) (hm : 0 < m) : (UnpackedFloat.mul spec u (.finite s m e hm)).isNaN = false := by
  cases u with
  | notANumber => cases hu
  | finite => exact isNaN_roundWithAccuracy ..
  | _ => rfl

/-- A number divided by a finite one that is not zero is a number. -/
theorem isNaN_div (spec : Format) {u : UnpackedFloat} (hu : u.isNaN = false) (s : Sign) (m : Nat)
    (e : Int) (hm : 0 < m) : (UnpackedFloat.div spec u (.finite s m e hm)).isNaN = false := by
  cases u with
  | notANumber => cases hu
  | finite => exact isNaN_roundWithAccuracy ..
  | _ => rfl

/-! ### Comparing -/

/-- Two numbers compare the other way round if they change places. -/
theorem compare_swap (u v : UnpackedFloat) :
    UnpackedFloat.compare v u = (UnpackedFloat.compare u v).map Ordering.swap := by
  have hdigits (e e' : Int) (m m' : Nat) : (compare e' e).then (compare m' m) =
      ((compare e e').then (compare m m')).swap := by
    rw [Ordering.swap_then, ← Std.OrientedCmp.eq_swap, ← Std.OrientedCmp.eq_swap]
  cases u with
  | notANumber => cases v <;> rfl
  | infinity s => rcases v with (_ | _) | _ | (_ | _) | ⟨_ | _⟩ <;> cases s <;> rfl
  | zero s => rcases v with (_ | _) | _ | (_ | _) | ⟨_ | _⟩ <;> cases s <;> rfl
  | finite s m e hm =>
    cases v with
    | notANumber => rfl
    | infinity s' => cases s <;> cases s' <;> rfl
    | zero s' => cases s <;> rfl
    | finite s' m' e' hm' =>
      cases s <;> cases s'
      case negative.negative => exact congrArg (fun o => some o.swap) (hdigits e e' m m')
      case positive.positive => exact congrArg some (hdigits e e' m m')
      all_goals rfl

theorem not_lt_of_lt {x y : Float} (h : x < y) : ¬ y < x := by
  intro h'
  have hxy : (UnpackedFloat.compare x.toModel.unpack y.toModel.unpack == some .lt) = true :=
    of_decide_eq_true h
  have hyx : (UnpackedFloat.compare y.toModel.unpack x.toModel.unpack == some .lt) = true :=
    of_decide_eq_true h'
  rw [beq_iff_eq] at hxy hyx
  rw [compare_swap, hxy] at hyx
  cases hyx

end TableSql
