import Mathlib
import ArmReach.Numeric.Binary64
/-!
# Where double arithmetic gives NaN

An operation on doubles unpacks its operands (`Float.Model.unpack`), computes on the unpacked
forms (`UnpackedFloat.add`, `mul`, `sub`), which keep NaN, the infinities, the zeros and the
finite values apart, and packs the result back. This module says when the result is NaN:

* packing keeps NaN and only NaN (`isNaN_unpack_pack`); it may turn a finite value that is too
  large into an infinity, but never a NaN or an infinity into a finite value
  (`isFinite_of_unpack_pack`);
* rounding a finite value gives a finite value (`isFinite_roundWithAccuracy`);
* so the product of two finite doubles is a number (`isNaN_mul_eq_false`), so is a finite
  double plus a number (`isNaN_add_eq_false`), and a finite difference has finite operands
  (`isFinite_of_isFinite_sub`);
* NaN on the right of a sum makes it NaN (`isNaN_add_of_isNaN`).
-/

namespace ArmReach

namespace Binary64

open Float.Model Float.Model.UnpackedFloat

/-! ### Packing -/

theorem isNaN_eq_false_of_isFinite {x : UnpackedFloat} (h : x.isFinite = true) :
    x.isNaN = false := by
  cases x <;> simp_all [UnpackedFloat.isFinite, UnpackedFloat.isNaN]

/-- A word whose exponent field is not all ones does not unpack to NaN. -/
theorem isNaN_unpack_of_ne {spec : Format} {b : BitVec spec.numBits}
    (h : unpackExponent b ≠ -1#_) : (UnpackedFloat.unpack spec b).isNaN = false := by
  unfold UnpackedFloat.unpack
  dsimp only
  rw [if_neg h]
  split
  · split <;> rfl
  · rfl

/-- The fields of a packed number whose exponent field is not all ones. -/
theorem isNaN_unpack_packComponents {s : Sign} {e : BitVec 11} {m : BitVec 52}
    (he : e.toNat < 2047) :
    (UnpackedFloat.unpack Format.binary64 (packComponents Format.binary64 s e m)).isNaN =
      false := by
  refine isNaN_unpack_of_ne ?_
  rw [unpackExponent_packComponents]
  intro h
  rw [h] at he
  exact absurd he (by decide)

/-- **Packing keeps NaN, and only NaN.** -/
@[simp] theorem isNaN_unpack_pack (x : UnpackedFloat) :
    (Float.Model.pack x).unpack.isNaN = x.isNaN := by
  show (UnpackedFloat.unpack Format.binary64 (UnpackedFloat.pack Format.binary64 x)).isNaN = _
  cases x with
  | notANumber => rfl
  | infinity s => cases s <;> rfl
  | zero s => cases s <;> rfl
  | finite s m e hm =>
    unfold UnpackedFloat.pack
    dsimp only
    split
    · cases s <;> rfl
    split
    · -- a normal number: its biased exponent is below the all-ones field
      rename_i hbig _
      refine isNaN_unpack_packComponents ?_
      rw [BitVec.toNat_ofNat]
      simp only [Format.exponentBias] at hbig ⊢
      omega
    · exact isNaN_unpack_packComponents (by decide)

/-- Packing may round a finite value up to an infinity, but never makes an infinity or NaN
finite. -/
theorem isFinite_of_unpack_pack {x : UnpackedFloat}
    (h : (Float.Model.pack x).unpack.isFinite = true) : x.isFinite = true := by
  cases x with
  | notANumber => exact absurd h (by decide)
  | infinity s => cases s <;> exact absurd h (by decide)
  | zero s => rfl
  | finite s m e hm => rfl

/-! ### Rounding and the operations -/

/-- Rounding a finite value gives a finite value. -/
theorem isFinite_roundWithAccuracy (spec : Format) (s : Sign) (m : Nat) (e : Int)
    (acc : Accuracy) : (roundWithAccuracy spec s m e acc).isFinite = true := by
  unfold roundWithAccuracy
  dsimp only
  split <;> rfl

theorem isFinite_normalize (spec : Format) (m e : Int) (s : Sign) :
    (UnpackedFloat.normalize spec m e s).isFinite = true := by
  unfold UnpackedFloat.normalize UnpackedFloat.round
  split <;> first | rfl | exact isFinite_roundWithAccuracy ..

/-- The product of two finite values is a number. -/
theorem isNaN_mul_of_isFinite (spec : Format) {x y : UnpackedFloat} (hx : x.isFinite = true)
    (hy : y.isFinite = true) : (UnpackedFloat.mul spec x y).isNaN = false := by
  cases x with
  | notANumber | infinity _ => cases hx
  | zero s₁ =>
    cases y with
    | notANumber | infinity _ => cases hy
    | zero _ | finite _ _ _ _ => rfl
  | finite s₁ m₁ e₁ _ =>
    cases y with
    | notANumber | infinity _ => cases hy
    | zero _ => rfl
    | finite s₂ m₂ e₂ _ =>
      -- two finite values: the rounded product is finite
      exact isNaN_eq_false_of_isFinite (isFinite_roundWithAccuracy ..)

/-- A finite value plus a number is a number. -/
theorem isNaN_add_of_isFinite (spec : Format) {x y : UnpackedFloat} (hx : x.isFinite = true)
    (hy : y.isNaN = false) : (UnpackedFloat.add spec x y).isNaN = false := by
  cases x with
  | notANumber | infinity _ => cases hx
  | zero s₁ =>
    cases y with
    | notANumber => cases hy
    | infinity _ | finite _ _ _ _ => rfl
    | zero s₂ => simp only [UnpackedFloat.add]; split <;> rfl
  | finite s₁ m₁ e₁ _ =>
    cases y with
    | notANumber => cases hy
    | infinity _ | zero _ => rfl
    | finite s₂ m₂ e₂ _ =>
      -- two finite values: the normalized sum is finite
      exact isNaN_eq_false_of_isFinite (isFinite_normalize ..)

/-- Anything plus NaN is NaN. -/
theorem isNaN_add_of_isNaN_right (spec : Format) (x : UnpackedFloat) {y : UnpackedFloat}
    (hy : y.isNaN = true) : (UnpackedFloat.add spec x y).isNaN = true := by
  cases y with
  | notANumber => cases x <;> rfl
  | _ => cases hy

/-- A finite difference has finite operands: an infinity or NaN on either side gives an
infinity or NaN. -/
theorem isFinite_of_sub (spec : Format) {x y : UnpackedFloat}
    (h : (UnpackedFloat.sub spec x y).isFinite = true) :
    x.isFinite = true ∧ y.isFinite = true := by
  cases x <;> cases y <;> simp only [UnpackedFloat.sub] at h <;> (try split at h) <;>
    simp_all [UnpackedFloat.isFinite]

/-- A finite sum has finite operands. -/
theorem isFinite_of_add (spec : Format) {x y : UnpackedFloat}
    (h : (UnpackedFloat.add spec x y).isFinite = true) :
    x.isFinite = true ∧ y.isFinite = true := by
  cases x <;> cases y <;> simp only [UnpackedFloat.add] at h <;> (try split at h) <;>
    simp_all [UnpackedFloat.isFinite]

/-- A finite product has finite operands: an infinity times anything is infinite or NaN. -/
theorem isFinite_of_mul (spec : Format) {x y : UnpackedFloat}
    (h : (UnpackedFloat.mul spec x y).isFinite = true) :
    x.isFinite = true ∧ y.isFinite = true := by
  cases x <;> cases y <;> simp only [UnpackedFloat.mul] at h <;> simp_all [UnpackedFloat.isFinite]

/-! ### Doubles -/

/-- **A finite double plus a number is a number.** -/
theorem isNaN_add_eq_false {x y : Float} (hx : x.isFinite = true) (hy : y.isNaN = false) :
    (x + y).isNaN = false := by
  show (Float.Model.pack (UnpackedFloat.add _ x.toModel.unpack y.toModel.unpack)).unpack.isNaN = _
  rw [isNaN_unpack_pack]
  exact isNaN_add_of_isFinite _ hx hy

/-- **The product of two finite doubles is a number.** -/
theorem isNaN_mul_eq_false {x y : Float} (hx : x.isFinite = true) (hy : y.isFinite = true) :
    (x * y).isNaN = false := by
  show (Float.Model.pack (UnpackedFloat.mul _ x.toModel.unpack y.toModel.unpack)).unpack.isNaN = _
  rw [isNaN_unpack_pack]
  exact isNaN_mul_of_isFinite _ hx hy

/-- **Anything plus a NaN double is NaN.** -/
theorem isNaN_add_of_isNaN (x : Float) {y : Float} (hy : y.isNaN = true) : (x + y).isNaN = true := by
  show (Float.Model.pack (UnpackedFloat.add _ x.toModel.unpack y.toModel.unpack)).unpack.isNaN = _
  rw [isNaN_unpack_pack]
  exact isNaN_add_of_isNaN_right _ _ hy

/-- A double that is not finite is NaN or infinite. -/
theorem isNaN_or_isInf_of_isFinite_eq_false {x : Float} (hx : x.isFinite = false) :
    x.isNaN = true ∨ x.isInf = true := by
  have hx' : x.toModel.unpack.isFinite = false := hx
  show x.toModel.unpack.isNaN = true ∨ x.toModel.unpack.isInf = true
  cases hu : x.toModel.unpack <;> rw [hu] at hx' <;> first | exact .inl rfl | exact .inr rfl | cases hx'

/-- A double that is neither infinite nor NaN is finite. -/
theorem isFinite_of_isInf_eq_false_of_isNaN_eq_false {x : Float} (hinf : x.isInf = false)
    (hnan : x.isNaN = false) : x.isFinite = true := by
  cases hx : x.isFinite
  · rcases isNaN_or_isInf_of_isFinite_eq_false hx with h | h
    · rw [h] at hnan; cases hnan
    · rw [h] at hinf; cases hinf
  · rfl

/-- **A finite difference of doubles has finite operands.** -/
theorem isFinite_of_isFinite_sub {x y : Float} (h : (x - y).isFinite = true) :
    x.isFinite = true ∧ y.isFinite = true :=
  isFinite_of_sub _ (isFinite_of_unpack_pack h)

/-- **A finite sum of doubles has finite operands.** -/
theorem isFinite_of_isFinite_add {x y : Float} (h : (x + y).isFinite = true) :
    x.isFinite = true ∧ y.isFinite = true :=
  isFinite_of_add _ (isFinite_of_unpack_pack h)

/-- **A finite product of doubles has finite operands.** -/
theorem isFinite_of_isFinite_mul {x y : Float} (h : (x * y).isFinite = true) :
    x.isFinite = true ∧ y.isFinite = true :=
  isFinite_of_mul _ (isFinite_of_unpack_pack h)

end Binary64

end ArmReach
