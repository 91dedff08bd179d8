import TableSql.Decimal.Reading
import TableSql.Proofs.Decimal.Binary64

/-!
# Texts that read as no number

The spellings of special numbers are read as numbers too, and one of them is `nan`. It gives the one
floating-point number that is not equal to itself. No decimal gives it, however large or small the
decimal is, and no integer does.

## Main definitions

* `Decimal.afterSign`, `Decimal.SpellsNaN` — a text that says that it is not a number.

## Main results

* `isNaN_ofScientific` — decimals as the floating-point operations make them.
* `Decimal.isNaN_toFloat`, `Decimal.isNaN_floatOfInt` — decimals and integers.
* `Decimal.isNaN_iff_of_float?`, `Decimal.exists_float?_of_spellsNaN` — which texts are read as no
  number.
-/

namespace TableSql

open Float.Model Float.Model.UnpackedFloat

/-! ### Decimals -/

/-- What is unpacked from a packed number is a number exactly if this was one. -/
theorem isNaN_ofModel_pack (u : UnpackedFloat) : (Float.ofModel (.pack u)).isNaN = u.isNaN :=
  isNaN_unpack_pack u

theorem isNaN_neg (x : Float) : x.neg.isNaN = x.isNaN := by
  have hneg (u : UnpackedFloat) : u.neg.isNaN = u.isNaN := by cases u <;> rfl
  exact (isNaN_ofModel_pack _).trans (hneg _)

theorem isNaN_normalize (spec : Format) (m e : Int) (s : Sign) :
    (UnpackedFloat.normalize spec m e s).isNaN = false := by
  unfold UnpackedFloat.normalize
  split
  · exact isNaN_roundWithAccuracy ..
  · rfl
  · exact isNaN_roundWithAccuracy ..

theorem isNaN_toFloat_uint64 (n : UInt64) : n.toFloat.isNaN = false :=
  (isNaN_ofModel_pack _).trans (isNaN_normalize ..)

/-- The powers of ten that are kept are finite, with mantissas of 53 digits and moderate
exponents. -/
theorem exists_unpack_powersOfTen (e : Fin Float.exactlyRepresentablePowersOfTen.size) :
    ∃ m k, ∃ hm : 0 < m, Float.exactlyRepresentablePowersOfTen[e].toModel.unpack =
      .finite .positive m k hm ∧ m < 2 ^ 53 ∧ -52 ≤ k ∧ k ≤ 52 := by
  have hfinite : ∀ e : Fin Float.exactlyRepresentablePowersOfTen.size,
      (match Float.exactlyRepresentablePowersOfTen[e].toModel.unpack with
        | .finite .positive m k _ => decide (m < 2 ^ 53 ∧ -52 ≤ k ∧ k ≤ 52)
        | _ => false) = true := by
    decide +kernel
  have h := hfinite e
  split at h
  · rename_i m k hm hunpack
    exact ⟨m, k, hm, hunpack, of_decide_eq_true h⟩
  · cases h

theorem isNaN_unpacked_ofScientific (spec : Format) (m : Nat) (e : Int) :
    (UnpackedFloat.ofScientific spec m e).isNaN = false := by
  unfold UnpackedFloat.ofScientific
  split
  · rfl
  · split
    · rfl
    · split
      · rfl
      · split
        · exact isNaN_mul spec rfl ..
        · exact isNaN_div spec rfl ..

/-- No decimal gives a result that is not a number. -/
theorem isNaN_ofScientific (m : Nat) (s : Bool) (e : Nat) :
    (Float.ofScientific m s e).isNaN = false := by
  have hexact (h : e < Float.exactlyRepresentablePowersOfTen.size) :
      (m.toUInt64.toFloat * Float.exactlyRepresentablePowersOfTen[e]).isNaN = false ∧
        (m.toUInt64.toFloat / Float.exactlyRepresentablePowersOfTen[e]).isNaN = false := by
    obtain ⟨m', k, hm, hpower, -⟩ := exists_unpack_powersOfTen ⟨e, h⟩
    have hpower : Float.exactlyRepresentablePowersOfTen[e].toModel.unpack =
        .finite .positive m' k hm :=
      hpower
    have hfactor := isNaN_toFloat_uint64 m.toUInt64
    constructor
    · refine (isNaN_ofModel_pack _).trans ?_
      rw [hpower]
      exact isNaN_mul _ hfactor ..
    · refine (isNaN_ofModel_pack _).trans ?_
      rw [hpower]
      exact isNaN_div _ hfactor ..
  unfold Float.ofScientific
  split
  · split
    · exact (hexact _).2
    · exact (hexact _).1
  · exact (isNaN_ofModel_pack _).trans (isNaN_unpacked_ofScientific ..)

namespace Decimal

theorem isNaN_toFloat (d : Literal) : d.toFloat.isNaN = false := by
  unfold Literal.toFloat
  dsimp only
  split
  · exact isNaN_ofScientific ..
  · split
    · decide +kernel
    · split <;> exact isNaN_ofScientific ..

theorem isNaN_floatOfInt (i : Int) : (floatOfInt i).isNaN = false := by
  cases i with
  | ofNat n => exact isNaN_ofScientific ..
  | negSucc n => exact (isNaN_neg _).trans (isNaN_ofScientific ..)

/-! ### Texts -/

/-- A text without the sign in front of it. -/
def afterSign : List Char → List Char
  | '+' :: cs => cs
  | '-' :: cs => cs
  | cs => cs

/-- The text says that it is not a number: `nan` in any case, behind a sign or not. -/
def SpellsNaN (cs : List Char) : Prop :=
  Text.lower (String.ofList (afterSign cs)) = "nan"

instance (cs : List Char) : Decidable (SpellsNaN cs) :=
  inferInstanceAs (Decidable (_ = _))

/-- A magnitude is no number exactly if its text is `nan`. -/
theorem isNaN_iff_of_magnitude? {cs : List Char} {x : Float} (h : magnitude? cs = some x) :
    x.isNaN = true ↔ Text.lower (String.ofList cs) = "nan" := by
  unfold magnitude? at h
  dsimp only at h
  split at h
  · rename_i hname
    obtain rfl := Option.some.inj h
    refine iff_of_false (by decide +kernel) fun hnan => ?_
    rw [hnan] at hname
    exact absurd hname (by decide)
  · split at h
    · rename_i hname
      obtain rfl := Option.some.inj h
      exact iff_of_true (by decide +kernel) hname
    · rename_i hname
      obtain ⟨d, -, rfl⟩ := Option.map_eq_some_iff.1 h
      exact iff_of_false (Bool.not_eq_true _ ▸ isNaN_toFloat d) hname

theorem float?_eq (cs : List Char) : float? cs = magnitude? (afterSign cs) ∨
    float? cs = (magnitude? (afterSign cs)).map Float.neg := by
  unfold float? afterSign
  split <;> simp

/-- A text that is read as a number is read as `nan` exactly if it says so. -/
theorem isNaN_iff_of_float? {cs : List Char} {x : Float} (h : float? cs = some x) :
    x.isNaN = true ↔ SpellsNaN cs := by
  rcases float?_eq cs with hread | hread <;> rw [hread] at h
  · exact isNaN_iff_of_magnitude? h
  · obtain ⟨y, hy, rfl⟩ := Option.map_eq_some_iff.1 h
    rw [isNaN_neg]
    exact isNaN_iff_of_magnitude? hy

/-- A text that says that it is not a number is read as one that is not. -/
theorem exists_float?_of_spellsNaN {cs : List Char} (h : SpellsNaN cs) :
    ∃ x, float? cs = some x ∧ x.isNaN = true := by
  have hread : magnitude? (afterSign cs) = some (0.0 / 0.0) := by
    have hname : Text.lower (String.ofList (afterSign cs)) = "nan" := h
    simp [magnitude?, hname]
  have hsome : (float? cs).isSome := by
    rcases float?_eq cs with hread' | hread' <;> simp [hread', hread]
  obtain ⟨x, hx⟩ := Option.isSome_iff_exists.1 hsome
  exact ⟨x, hx, (isNaN_iff_of_float? hx).2 h⟩

example : SpellsNaN "-NaN".toList ∧ ¬ SpellsNaN "-Infinity".toList := by
  decide

end Decimal

end TableSql
