import Mathlib.Analysis.Real.Sqrt
import ArmReach.Proofs.Numeric.Unpacked
/-!
# Arithmetic on doubles is rounded real arithmetic

Every operation of Lean's model of doubles unpacks its operands, computes on the unpacked forms
and rounds the exact result. On canonical operands (every finite double unpacks to one,
`canonical_unpack`) the result is canonical and its value is `round` of the exact result:
`add_spec`, `sub_spec`, `mul_spec`, `div_spec` and `sqrt_spec`.

Packed back into a word, a canonical value stays itself below `2 ^ 1024` in magnitude and
becomes the infinity of its sign from there on. So on doubles: an operation of finite doubles
`RoundsTo` its exact real result (`add_roundsTo`, `sub_roundsTo`, `mul_roundsTo`,
`div_roundsTo`, `sqrt_roundsTo`), that is, it is the finite double `round v` when that is
below `2 ^ 1024` in magnitude, and an infinity otherwise. Finite doubles compare as their
values do (`lt_iff_toReal_lt`, `le_iff_toReal_le`, `beq_iff_toReal_eq`).
-/

namespace ArmReach

namespace Binary64

noncomputable section

open Float.Model
open Float.Model.UnpackedFloat (Sign Accuracy ExtendedMantissa roundWithAccuracy
  decreaseExponent accuracyOfFraction divCore sqrtCore)

/-! ### Signs -/

@[simp] theorem apply_cast (s : Sign) (n : ℤ) : ((s.apply n : ℤ) : ℝ) = signValue s * n := by
  cases s <;> simp [Sign.apply]

@[simp] theorem signValue_mul (s t : Sign) : signValue (s * t) = signValue s * signValue t := by
  cases s <;> cases t <;> norm_num <;> rfl

@[simp] theorem signValue_div (s t : Sign) : signValue (s / t) = signValue s * signValue t := by
  cases s <;> cases t <;> norm_num <;> rfl

@[simp] theorem signValue_neg (s : Sign) : signValue (-s) = -signValue s := by
  cases s <;> norm_num <;> rfl

/-- Rounding commutes with a sign. -/
theorem signValue_mul_round (s : Sign) (x : ℝ) : signValue s * round x = round (signValue s * x) := by
  cases s <;> simp

/-- A canonical value is fixed by rounding. -/
theorem Canonical.round_value {u : UnpackedFloat} (hu : Canonical u) :
    round (unpackedValue u) = unpackedValue u :=
  round_eq_self hu.representable

theorem canonical_finite_neg {s : Sign} {m : ℕ} {e : ℤ} {hm : 0 < m}
    (h : Canonical (.finite s m e hm)) : Canonical (.finite (-s) m e hm) := h

/-! ### Addition, subtraction and multiplication -/

/-- Lowering the exponent to `t ≤ e` widens the mantissa and keeps the signed value. -/
theorem decreaseExponent_value (s : Sign) (m : ℕ) {e t : ℤ} (ht : t ≤ e) :
    ((s.apply (decreaseExponent m e t).1 : ℤ) : ℝ) * 2 ^ t = signValue s * (m * 2 ^ e) := by
  have hk : (((e - t).toNat : ℕ) : ℤ) = e - t := Int.toNat_of_nonneg (by omega)
  simp only [decreaseExponent, Nat.shiftLeft_eq, apply_cast]
  push_cast
  rw [← zpow_natCast, hk, mul_assoc, mul_assoc, ← zpow_add₀ (by norm_num : (2 : ℝ) ≠ 0)]
  congr 3
  ring

/-- **Addition of canonical values rounds the exact sum.** -/
theorem add_spec {a b : UnpackedFloat} (ha : Canonical a) (hb : Canonical b) :
    Canonical (UnpackedFloat.add .binary64 a b) ∧
      unpackedValue (UnpackedFloat.add .binary64 a b) =
        round (unpackedValue a + unpackedValue b) := by
  cases a with
  | notANumber | infinity _ => exact ha.elim
  | zero s =>
    cases b with
    | notANumber | infinity _ => exact hb.elim
    | zero s' =>
      simp only [UnpackedFloat.add]
      split <;> simp [Canonical, unpackedValue]
    | finite s' m e hm =>
      simp only [UnpackedFloat.add]
      exact ⟨hb, by rw [show unpackedValue (.zero s) = 0 from rfl, zero_add, hb.round_value]⟩
  | finite s m e hm =>
    cases b with
    | notANumber | infinity _ => exact hb.elim
    | zero s' =>
      simp only [UnpackedFloat.add]
      exact ⟨ha, by rw [show unpackedValue (.zero s') = 0 from rfl, add_zero, ha.round_value]⟩
    | finite s' m' e' hm' =>
      simp only [UnpackedFloat.add]
      obtain ⟨hc, hv⟩ := normalize_spec (s.apply (decreaseExponent m e (min e e')).1 +
        s'.apply (decreaseExponent m' e' (min e e')).1) (min e e') .positive
      refine ⟨hc, ?_⟩
      rw [hv]
      congr 1
      push_cast
      rw [add_mul, decreaseExponent_value s m (min_le_left e e'),
        decreaseExponent_value s' m' (min_le_right e e')]
      rfl

/-- **Subtraction of canonical values rounds the exact difference.** -/
theorem sub_spec {a b : UnpackedFloat} (ha : Canonical a) (hb : Canonical b) :
    Canonical (UnpackedFloat.sub .binary64 a b) ∧
      unpackedValue (UnpackedFloat.sub .binary64 a b) =
        round (unpackedValue a - unpackedValue b) := by
  cases a with
  | notANumber | infinity _ => exact ha.elim
  | zero s =>
    cases b with
    | notANumber | infinity _ => exact hb.elim
    | zero s' =>
      simp only [UnpackedFloat.sub]
      split <;> simp [Canonical, unpackedValue]
    | finite s' m e hm =>
      simp only [UnpackedFloat.sub]
      refine ⟨canonical_finite_neg hb, ?_⟩
      rw [show unpackedValue (.zero s) = 0 from rfl, zero_sub, round_neg, hb.round_value]
      simp [unpackedValue]
  | finite s m e hm =>
    cases b with
    | notANumber | infinity _ => exact hb.elim
    | zero s' =>
      simp only [UnpackedFloat.sub]
      exact ⟨ha, by rw [show unpackedValue (.zero s') = 0 from rfl, sub_zero, ha.round_value]⟩
    | finite s' m' e' hm' =>
      simp only [UnpackedFloat.sub]
      obtain ⟨hc, hv⟩ := normalize_spec (s.apply (decreaseExponent m e (min e e')).1 -
        s'.apply (decreaseExponent m' e' (min e e')).1) (min e e') .positive
      refine ⟨hc, ?_⟩
      rw [hv]
      congr 1
      push_cast
      rw [sub_mul, decreaseExponent_value s m (min_le_left e e'),
        decreaseExponent_value s' m' (min_le_right e e')]
      rfl

/-- The exponent of an exact product of canonical significands is at most the target
exponent: a product below `2 ^ 52` has two subnormal factors. -/
theorem mul_exponent_le {s s' : Sign} {m m' : ℕ} {e e' : ℤ} {hm : 0 < m} {hm' : 0 < m'}
    (ha : Canonical (.finite s m e hm)) (hb : Canonical (.finite s' m' e' hm')) :
    e + e' ≤ Format.binary64.targetExponent (totalExponent (m * m') (e + e')) := by
  rw [targetExponent_eq]
  by_cases hn : 2 ^ 52 ≤ m * m'
  · have hl := (Nat.le_log2 (Nat.mul_pos hm hm').ne').mpr hn
    omega
  · -- both factors are below `2 ^ 52`, so both sit at the least exponent
    have hea : e = -1074 := ha.2.2.resolve_left fun h =>
      hn (le_trans h (Nat.le_mul_of_pos_right m hm'))
    have heb : e' = -1074 := hb.2.2.resolve_left fun h =>
      hn (le_trans h (Nat.le_mul_of_pos_left m' hm))
    omega

/-- **Multiplication of canonical values rounds the exact product.** -/
theorem mul_spec {a b : UnpackedFloat} (ha : Canonical a) (hb : Canonical b) :
    Canonical (UnpackedFloat.mul .binary64 a b) ∧
      unpackedValue (UnpackedFloat.mul .binary64 a b) =
        round (unpackedValue a * unpackedValue b) := by
  cases a with
  | notANumber | infinity _ => exact ha.elim
  | zero s =>
    cases b with
    | notANumber | infinity _ => exact hb.elim
    | zero s' => simp [UnpackedFloat.mul, Canonical, unpackedValue]
    | finite s' m e hm => simp [UnpackedFloat.mul, Canonical, unpackedValue]
  | finite s m e hm =>
    cases b with
    | notANumber | infinity _ => exact hb.elim
    | zero s' => simp [UnpackedFloat.mul, Canonical, unpackedValue]
    | finite s' m' e' hm' =>
      simp only [UnpackedFloat.mul]
      have hx : (0 : ℝ) < (m * m' : ℕ) * 2 ^ (e + e') :=
        mul_pos (by exact_mod_cast Nat.mul_pos hm hm') (two_zpow_pos _)
      have hd : Describes (.ofMantissaAndAccuracy (m * m') .exact)
          ((m * m' : ℕ) * 2 ^ (e + e') / 2 ^ (e + e')) := by
        rw [mul_div_assoc, div_self (two_zpow_pos _).ne', mul_one]
        exact describes_exact _
      obtain ⟨hc, hv⟩ := roundWithAccuracy_spec (s * s') hx hd (mul_exponent_le ha hb)
      refine ⟨hc, ?_⟩
      rw [hv, signValue_mul_round]
      congr 1
      simp only [unpackedValue, signValue_mul, zpow_add₀ (by norm_num : (2 : ℝ) ≠ 0)]
      push_cast
      ring

/-! ### Division and square root -/

/-- The quotient of two naturals, with the accuracy that the remainder gives, describes the
exact quotient. -/
theorem describes_fraction (n d : ℕ) (hd : 0 < d) :
    Describes (.ofMantissaAndAccuracy (n / d) (accuracyOfFraction (n % d) d)) ((n : ℝ) / d) := by
  have hdR : (0 : ℝ) < d := by exact_mod_cast hd
  obtain ⟨q, r, hr, rfl⟩ : ∃ q r, r < d ∧ n = d * q + r :=
    ⟨n / d, n % d, Nat.mod_lt _ hd, (Nat.div_add_mod n d).symm⟩
  have hq : (d * q + r) / d = q := by
    rw [Nat.add_comm, Nat.add_mul_div_left _ _ hd, Nat.div_eq_of_lt hr, zero_add]
  have hr' : (d * q + r) % d = r := by rw [Nat.mul_add_mod, Nat.mod_eq_of_lt hr]
  have hx : ((d * q + r : ℕ) : ℝ) / d = q + r / d := by
    push_cast
    field_simp
  rw [hq, hr', hx]
  unfold accuracyOfFraction
  by_cases h0 : r = 0
  · subst h0
    simp [Describes, ExtendedMantissa.ofMantissaAndAccuracy]
  rw [if_neg h0]
  have hpos : (0 : ℝ) < r / d := div_pos (by exact_mod_cast Nat.pos_of_ne_zero h0) hdR
  have hlt : (r : ℝ) / d < 1 := (div_lt_one hdR).mpr (by exact_mod_cast hr)
  -- the remainder against half the divisor places the quotient against the midpoint
  rcases h : compare (2 * r) d
  · have h2 : (2 * r : ℝ) < d := by exact_mod_cast Nat.compare_eq_lt.mp h
    have : (r : ℝ) / d < 1 / 2 := by rw [div_lt_iff₀ hdR]; linarith
    simp only [ExtendedMantissa.ofMantissaAndAccuracy, Describes]
    constructor <;> linarith
  · have h2 : (2 * r : ℝ) = d := by exact_mod_cast Nat.compare_eq_eq.mp h
    have : (r : ℝ) / d = 1 / 2 := by rw [div_eq_iff hdR.ne']; linarith
    simp only [ExtendedMantissa.ofMantissaAndAccuracy, Describes]
    rw [this]
  · have h2 : (d : ℝ) < 2 * r := by exact_mod_cast Nat.compare_eq_gt.mp h
    have : 1 / 2 < (r : ℝ) / d := by rw [lt_div_iff₀ hdR]; linarith
    simp only [ExtendedMantissa.ofMantissaAndAccuracy, Describes]
    constructor <;> linarith

/-- A quotient of a widened mantissa keeps all but at most one bit of the difference of the
leading bits. -/
theorem log2_div_ge {m m' : ℕ} (k : ℕ) (hm : 0 < m) (hm' : 0 < m') :
    (m.log2 : ℤ) + k - m'.log2 - 1 ≤ ((m <<< k) / m').log2 := by
  by_cases hj : (m.log2 : ℤ) + k - m'.log2 - 1 ≤ 0
  · omega
  obtain ⟨j, hj'⟩ : ∃ j : ℕ, (j : ℤ) = m.log2 + k - m'.log2 - 1 := ⟨_, Int.toNat_of_nonneg (by omega)⟩
  have hpow : 2 ^ j * m' ≤ m <<< k := by
    have h₁ : m' < 2 ^ (m'.log2 + 1) := Nat.lt_log2_self
    have h₂ : 2 ^ m.log2 ≤ m := Nat.log2_self_le hm.ne'
    calc 2 ^ j * m' ≤ 2 ^ j * 2 ^ (m'.log2 + 1) := Nat.mul_le_mul_left _ h₁.le
      _ = 2 ^ (m.log2 + k) := by rw [← Nat.pow_add]; congr 1; omega
      _ = 2 ^ m.log2 * 2 ^ k := Nat.pow_add _ _ _
      _ ≤ m <<< k := by rw [Nat.shiftLeft_eq]; exact Nat.mul_le_mul_right _ h₂
  have hq : 2 ^ j ≤ (m <<< k) / m' := (Nat.le_div_iff_mul_le hm').mpr hpow
  have hq0 : (m <<< k) / m' ≠ 0 := by
    have : 0 < 2 ^ j := Nat.two_pow_pos j
    omega
  have := (Nat.le_log2 hq0).mpr hq
  omega

/-- The exponent of the model's quotient is at most the target exponent of the quotient. -/
theorem divCore_exponent_le {m m' : ℕ} (e e' : ℤ) (hm : 0 < m) (hm' : 0 < m') :
    (divCore .binary64 m e m' e').2.1 ≤
      Format.binary64.targetExponent
        (totalExponent (divCore .binary64 m e m' e').1 (divCore .binary64 m e m' e').2.1) := by
  simp only [divCore]
  have hlog := log2_div_ge (e - e' - min (e - e')
    (Format.binary64.targetExponent (totalExponent m e - totalExponent m' e'))).toNat hm hm'
  simp only [Format.targetExponent, totalExponent, Format.mantissaBits, Format.minExponent]
    at hlog ⊢
  omega

/-- The model's quotient, with its accuracy, describes the exact quotient at its exponent. -/
theorem divCore_describes {m m' : ℕ} (e e' : ℤ) (hm' : 0 < m') :
    Describes (.ofMantissaAndAccuracy (divCore .binary64 m e m' e').1
        (divCore .binary64 m e m' e').2.2)
      ((m * 2 ^ e) / (m' * 2 ^ e') / 2 ^ (divCore .binary64 m e m' e').2.1) := by
  simp only [divCore]
  set t := min (e - e') (Format.binary64.targetExponent (totalExponent m e - totalExponent m' e'))
  have hk : (((e - e' - t).toNat : ℕ) : ℤ) = e - e' - t := Int.toNat_of_nonneg (by omega)
  -- the mantissa is widened by the `e - e' - t` places that the exponent drops
  have hval : (m * 2 ^ e : ℝ) / (m' * 2 ^ e') / 2 ^ t =
      ((m <<< (e - e' - t).toNat : ℕ) : ℝ) / m' := by
    rw [Nat.shiftLeft_eq]
    push_cast
    rw [← zpow_natCast, hk, zpow_sub₀ (by norm_num : (2 : ℝ) ≠ 0),
      zpow_sub₀ (by norm_num : (2 : ℝ) ≠ 0)]
    have : (m' : ℝ) ≠ 0 := by exact_mod_cast hm'.ne'
    field_simp
  rw [hval]
  exact describes_fraction _ _ hm'

/-- **Division of canonical values rounds the exact quotient.** -/
theorem div_spec {a b : UnpackedFloat} (ha : Canonical a) (hb : Canonical b)
    (hb0 : unpackedValue b ≠ 0) :
    Canonical (UnpackedFloat.div .binary64 a b) ∧
      unpackedValue (UnpackedFloat.div .binary64 a b) =
        round (unpackedValue a / unpackedValue b) := by
  cases b with
  | notANumber | infinity _ => exact hb.elim
  | zero s' => exact absurd rfl hb0
  | finite s' m' e' hm' =>
    cases a with
    | notANumber | infinity _ => exact ha.elim
    | zero s => simp [UnpackedFloat.div, Canonical, unpackedValue]
    | finite s m e hm =>
      simp only [UnpackedFloat.div]
      have hx : (0 : ℝ) < (m * 2 ^ e) / (m' * 2 ^ e') :=
        div_pos (mul_pos (by exact_mod_cast hm) (two_zpow_pos e))
          (mul_pos (by exact_mod_cast hm') (two_zpow_pos e'))
      obtain ⟨hc, hv⟩ := roundWithAccuracy_spec (s / s') hx (divCore_describes e e' hm')
        (divCore_exponent_le e e' hm hm')
      refine ⟨hc, ?_⟩
      rw [hv, signValue_mul_round]
      congr 1
      cases s <;> cases s' <;> simp [unpackedValue] <;> ring

/-- The integer square root, with the accuracy that its remainder gives, describes the exact
root. -/
theorem describes_sqrt (n : ℕ) :
    Describes (.ofMantissaAndAccuracy n.sqrt
        (if n - n.sqrt * n.sqrt = 0 then .exact
          else .inexact (if n - n.sqrt * n.sqrt ≤ n.sqrt then .lt else .gt)))
      (Real.sqrt n) := by
  have h₁ : n.sqrt * n.sqrt ≤ n := Nat.sqrt_le n
  have h₂ : n < (n.sqrt + 1) * (n.sqrt + 1) := Nat.lt_succ_sqrt n
  set r := n.sqrt
  have hr : (0 : ℝ) ≤ r := Nat.cast_nonneg r
  by_cases h0 : n - r * r = 0
  · -- a perfect square
    have hn : (n : ℝ) = r * r := by exact_mod_cast (by omega : n = r * r)
    rw [if_pos h0, hn, Real.sqrt_mul_self hr]
    rfl
  rw [if_neg h0]
  have hlow : (r : ℝ) < Real.sqrt n := by
    rw [Real.lt_sqrt hr]
    exact_mod_cast (by rw [sq]; omega : r ^ 2 < n)
  have hhigh : Real.sqrt n < r + 1 := by
    rw [Real.sqrt_lt' (by positivity)]
    exact_mod_cast (by rw [sq]; exact h₂ : n < (r + 1) ^ 2)
  -- the remainder against the root places the root against the midpoint `r + 1 / 2`
  by_cases hle : n - r * r ≤ r
  · rw [if_pos hle]
    have hn : (n : ℝ) ≤ r * r + r := by exact_mod_cast (by omega : n ≤ r * r + r)
    have hmid : Real.sqrt n < r + 1 / 2 := by
      rw [Real.sqrt_lt' (by positivity)]
      nlinarith
    exact ⟨hlow, hmid⟩
  · rw [if_neg hle]
    have hn : (r : ℝ) * r + r + 1 ≤ n := by exact_mod_cast (by omega : r * r + r + 1 ≤ n)
    have hmid : (r : ℝ) + 1 / 2 < Real.sqrt n := by
      rw [Real.lt_sqrt (by positivity)]
      nlinarith
    exact ⟨hmid, hhigh⟩

/-- The integer square root of a widened mantissa keeps half of its bits. -/
theorem log2_sqrt_ge {m : ℕ} (k : ℕ) (hm : 0 < m) :
    (m.log2 + k) / 2 ≤ (Nat.sqrt (m <<< k)).log2 := by
  set j := (m.log2 + k) / 2
  have hpow : 2 ^ j * 2 ^ j ≤ m <<< k := by
    calc 2 ^ j * 2 ^ j = 2 ^ (j + j) := (Nat.pow_add _ _ _).symm
      _ ≤ 2 ^ (m.log2 + k) := Nat.pow_le_pow_right (by norm_num) (by omega)
      _ = 2 ^ m.log2 * 2 ^ k := Nat.pow_add _ _ _
      _ ≤ m <<< k := by
        rw [Nat.shiftLeft_eq]
        exact Nat.mul_le_mul_right _ (Nat.log2_self_le hm.ne')
  have hroot : 2 ^ j ≤ Nat.sqrt (m <<< k) := Nat.le_sqrt.mpr hpow
  have hroot0 : Nat.sqrt (m <<< k) ≠ 0 := by
    have : 0 < 2 ^ j := Nat.two_pow_pos j
    omega
  exact (Nat.le_log2 hroot0).mpr hroot

/-- The exponent of the model's square root is at most the target exponent of the root. -/
theorem sqrtCore_exponent_le {m : ℕ} (e : ℤ) (hm : 0 < m) :
    (sqrtCore .binary64 m e).2.1 ≤
      Format.binary64.targetExponent
        (totalExponent (sqrtCore .binary64 m e).1 (sqrtCore .binary64 m e).2.1) := by
  simp only [sqrtCore]
  have hlog := log2_sqrt_ge (e - 2 * min (e.ediv 2)
    (Format.binary64.targetExponent ((totalExponent m e + 1).ediv 2))).toNat hm
  simp only [Format.targetExponent, totalExponent, Format.mantissaBits, Format.minExponent,
    ← Int.div_def] at hlog ⊢
  omega

/-- The model's square root, with its accuracy, describes the exact root at its exponent. -/
theorem sqrtCore_describes (m : ℕ) (e : ℤ) :
    Describes (.ofMantissaAndAccuracy (sqrtCore .binary64 m e).1 (sqrtCore .binary64 m e).2.2)
      (Real.sqrt (m * 2 ^ e) / 2 ^ (sqrtCore .binary64 m e).2.1) := by
  simp only [sqrtCore]
  set t := min (e.ediv 2) (Format.binary64.targetExponent ((totalExponent m e + 1).ediv 2))
  have h2t : 2 * t ≤ e := by
    have : t ≤ e.ediv 2 := min_le_left _ _
    rw [← Int.div_def] at this
    omega
  have hk : (((e - 2 * t).toNat : ℕ) : ℤ) = e - 2 * t := Int.toNat_of_nonneg (by omega)
  -- `m * 2 ^ e` is the widened mantissa times the square of `2 ^ t`
  have hsplit : (m : ℝ) * 2 ^ e = ((m <<< (e - 2 * t).toNat : ℕ) : ℝ) * (2 ^ t) ^ 2 := by
    rw [Nat.shiftLeft_eq]
    push_cast
    rw [← zpow_natCast, hk, sq, mul_assoc, ← zpow_add₀ (by norm_num : (2 : ℝ) ≠ 0),
      ← zpow_add₀ (by norm_num : (2 : ℝ) ≠ 0)]
    congr 2
    ring
  have hval : Real.sqrt (m * 2 ^ e) / 2 ^ t = Real.sqrt ((m <<< (e - 2 * t).toNat : ℕ) : ℝ) := by
    rw [hsplit, Real.sqrt_mul (Nat.cast_nonneg _), Real.sqrt_sq (two_zpow_pos t).le,
      mul_div_assoc, div_self (two_zpow_pos t).ne', mul_one]
  rw [hval]
  exact describes_sqrt _

/-- **The square root of a canonical value that is not below zero rounds the exact root.** -/
theorem sqrt_spec {a : UnpackedFloat} (ha : Canonical a) (h0 : 0 ≤ unpackedValue a) :
    Canonical (UnpackedFloat.sqrt .binary64 a) ∧
      unpackedValue (UnpackedFloat.sqrt .binary64 a) = round (Real.sqrt (unpackedValue a)) := by
  cases a with
  | notANumber | infinity _ => exact ha.elim
  | zero s => simp [UnpackedFloat.sqrt, Canonical, unpackedValue]
  | finite s m e hm =>
    have hx : (0 : ℝ) < m * 2 ^ e := mul_pos (by exact_mod_cast hm) (two_zpow_pos e)
    cases s with
    | negative =>
      simp only [unpackedValue, signValue_negative] at h0
      linarith
    | positive =>
      simp only [UnpackedFloat.sqrt]
      obtain ⟨hc, hv⟩ := roundWithAccuracy_spec .positive (Real.sqrt_pos.mpr hx)
        (sqrtCore_describes m e) (sqrtCore_exponent_le e hm)
      refine ⟨hc, ?_⟩
      rw [hv]
      simp [unpackedValue]

/-! ### Packing -/

/-- A canonical value is neither NaN nor infinite. -/
theorem Canonical.isFinite {u : UnpackedFloat} (hu : Canonical u) : u.isFinite = true := by
  cases u with
  | notANumber | infinity _ => exact hu.elim
  | zero _ => rfl
  | finite _ _ _ _ => rfl

/-- A canonical nonzero value lies below `2 ^ 1024` in magnitude exactly when its exponent
fits the format. -/
theorem abs_value_lt_iff {s : Sign} {m : ℕ} {e : ℤ} {hm : 0 < m}
    (hc : Canonical (.finite s m e hm)) :
    |unpackedValue (.finite s m e hm)| < 2 ^ 1024 ↔ e ≤ 971 := by
  obtain ⟨hm53, hel, hlo⟩ := hc
  have habs : |unpackedValue (.finite s m e hm)| = m * 2 ^ e := by
    cases s <;> simp [unpackedValue, abs_of_pos (two_zpow_pos e)]
  rw [habs]
  constructor
  · -- from `972` on, the leading bit is at `2 ^ 52` and the value at least `2 ^ 1024`
    intro h
    by_contra he
    have hm52 : (2 : ℝ) ^ 52 ≤ m := by exact_mod_cast hlo.resolve_right (by omega)
    have hpow : (2 : ℝ) ^ (972 : ℤ) ≤ 2 ^ e := zpow_le_zpow_right₀ (by norm_num) (by omega)
    have : (2 : ℝ) ^ 1024 ≤ m * 2 ^ e := by
      calc (2 : ℝ) ^ 1024 = 2 ^ 52 * 2 ^ (972 : ℤ) := by rw [zpow_ofNat, ← pow_add]
        _ ≤ (m : ℝ) * 2 ^ e := mul_le_mul hm52 hpow (two_zpow_pos _).le (Nat.cast_nonneg m)
    exact absurd h (not_lt.mpr this)
  · intro he
    have hm53' : (m : ℝ) < 2 ^ 53 := by exact_mod_cast hm53
    have hpow : (2 : ℝ) ^ e ≤ 2 ^ (971 : ℤ) := zpow_le_zpow_right₀ (by norm_num) he
    calc (m : ℝ) * 2 ^ e < 2 ^ 53 * 2 ^ (971 : ℤ) :=
          mul_lt_mul hm53' hpow (two_zpow_pos e) (by positivity)
      _ = 2 ^ 1024 := by rw [zpow_ofNat, ← pow_add]

/-- **Below `2 ^ 1024` in magnitude, a canonical value packs and unpacks to itself.** -/
theorem unpack_pack_of_abs_lt {u : UnpackedFloat} (hu : Canonical u)
    (h : |unpackedValue u| < 2 ^ 1024) : (Float.Model.pack u).unpack = u := by
  show UnpackedFloat.unpack .binary64 (UnpackedFloat.pack .binary64 u) = u
  cases u with
  | notANumber | infinity _ => exact hu.elim
  | zero s => exact unpack_pack_zero s
  | finite s m e hm => exact unpack_pack_of_canonical hu ((abs_value_lt_iff hu).mp h)

/-- **From `2 ^ 1024` in magnitude on, a canonical value packs to the infinity of its sign.** -/
theorem unpack_pack_of_le_abs {u : UnpackedFloat} (hu : Canonical u)
    (h : 2 ^ 1024 ≤ |unpackedValue u|) :
    (Float.Model.pack u).unpack =
      .infinity (if 0 < unpackedValue u then .positive else .negative) := by
  show UnpackedFloat.unpack .binary64 (UnpackedFloat.pack .binary64 u) = _
  cases u with
  | notANumber | infinity _ => exact hu.elim
  | zero s =>
    rw [show unpackedValue (.zero s) = 0 from rfl, abs_zero] at h
    exact absurd h (not_le.mpr (by positivity))
  | finite s m e hm =>
    have he : 972 ≤ e := by
      by_contra he
      exact absurd ((abs_value_lt_iff hu).mpr (by omega)) (not_lt.mpr h)
    have hx : (0 : ℝ) < m * 2 ^ e := mul_pos (by exact_mod_cast hm) (two_zpow_pos e)
    rw [unpack_pack_of_overflow he]
    cases s
    · rw [if_neg (by simp [unpackedValue]; linarith)]
    · rw [if_pos (by simp [unpackedValue]; linarith)]

/-! ### Doubles as rounded reals -/

/-- A finite double unpacks to a canonical value. -/
theorem canonical_of_isFinite {x : Float} (hx : x.isFinite = true) :
    Canonical x.toModel.unpack :=
  canonical_unpack _ hx

/-- A finite double is a double of the value theory. -/
theorem representable_toReal {x : Float} (hx : x.isFinite = true) : Representable (toReal x) :=
  (canonical_of_isFinite hx).representable

/-- A large rounded value has the sign of the value it rounds. -/
theorem pos_round_iff {v : ℝ} (h : round v ≠ 0) : 0 < round v ↔ 0 < v := by
  constructor
  · intro hr
    by_contra hv
    exact absurd (round_nonpos (not_lt.mp hv)) (not_le.mpr hr)
  · intro hv
    exact lt_of_le_of_ne (round_nonneg hv.le) (Ne.symm h)

/-- Packing a canonical value of `round v` gives the double that `v` rounds to. -/
theorem roundsTo_pack {u : UnpackedFloat} {v : ℝ} (hu : Canonical u)
    (hv : unpackedValue u = round v) : RoundsTo v (Float.ofModel (Float.Model.pack u)) := by
  unfold RoundsTo
  by_cases h : |round v| < 2 ^ 1024
  · rw [if_pos h]
    rw [← hv] at h
    have hpack := unpack_pack_of_abs_lt hu h
    refine ⟨?_, ?_⟩
    · show (Float.Model.pack u).unpack.isFinite = true
      rw [hpack]
      exact hu.isFinite
    · show unpackedValue (Float.Model.pack u).unpack = round v
      rw [hpack, hv]
  · rw [if_neg h]
    have h' : 2 ^ 1024 ≤ |unpackedValue u| := by rw [hv]; exact not_lt.mp h
    have hne : round v ≠ 0 := by
      intro h0
      rw [h0, abs_zero] at h
      exact h (by norm_num)
    show (Float.Model.pack u).unpack = _
    rw [unpack_pack_of_le_abs hu h', hv, if_congr (pos_round_iff hne) rfl rfl]

theorem RoundsTo.isFinite_iff {v : ℝ} {z : Float} (h : RoundsTo v z) :
    z.isFinite = true ↔ |round v| < 2 ^ 1024 := by
  unfold RoundsTo at h
  by_cases hv : |round v| < 2 ^ 1024
  · rw [if_pos hv] at h
    exact ⟨fun _ => hv, fun _ => h.1⟩
  · rw [if_neg hv] at h
    refine ⟨fun hz => ?_, fun hz => absurd hz hv⟩
    have : z.toModel.unpack.isFinite = true := hz
    rw [h] at this
    cases this

theorem RoundsTo.toReal_eq {v : ℝ} {z : Float} (h : RoundsTo v z) (hz : z.isFinite = true) :
    toReal z = round v := by
  have hv := h.isFinite_iff.mp hz
  unfold RoundsTo at h
  rw [if_pos hv] at h
  exact h.2

/-- **The sum of finite doubles is their exact sum rounded.** -/
theorem add_roundsTo {x y : Float} (hx : x.isFinite = true) (hy : y.isFinite = true) :
    RoundsTo (toReal x + toReal y) (x + y) :=
  let ⟨hc, hv⟩ := add_spec (canonical_of_isFinite hx) (canonical_of_isFinite hy)
  roundsTo_pack hc hv

/-- **The difference of finite doubles is their exact difference rounded.** -/
theorem sub_roundsTo {x y : Float} (hx : x.isFinite = true) (hy : y.isFinite = true) :
    RoundsTo (toReal x - toReal y) (x - y) :=
  let ⟨hc, hv⟩ := sub_spec (canonical_of_isFinite hx) (canonical_of_isFinite hy)
  roundsTo_pack hc hv

/-- **The product of finite doubles is their exact product rounded.** -/
theorem mul_roundsTo {x y : Float} (hx : x.isFinite = true) (hy : y.isFinite = true) :
    RoundsTo (toReal x * toReal y) (x * y) :=
  let ⟨hc, hv⟩ := mul_spec (canonical_of_isFinite hx) (canonical_of_isFinite hy)
  roundsTo_pack hc hv

/-- **The quotient of finite doubles by a nonzero one is their exact quotient rounded.** -/
theorem div_roundsTo {x y : Float} (hx : x.isFinite = true) (hy : y.isFinite = true)
    (hy0 : toReal y ≠ 0) : RoundsTo (toReal x / toReal y) (x / y) :=
  let ⟨hc, hv⟩ := div_spec (canonical_of_isFinite hx) (canonical_of_isFinite hy) hy0
  roundsTo_pack hc hv

/-- **The square root of a finite double not below zero is its exact root rounded.** -/
theorem sqrt_roundsTo {x : Float} (hx : x.isFinite = true) (h0 : 0 ≤ toReal x) :
    RoundsTo (Real.sqrt (toReal x)) x.sqrt :=
  let ⟨hc, hv⟩ := sqrt_spec (canonical_of_isFinite hx) h0
  roundsTo_pack hc hv

/-! ### Comparisons -/

/-- Reals compare the other way round once both are negated. -/
theorem compare_neg_neg (a b : ℝ) : compare (-a) (-b) = (compare a b).swap := by
  rcases lt_trichotomy a b with h | rfl | h
  · rw [compare_lt_iff_lt.mpr h, compare_gt_iff_gt.mpr (neg_lt_neg h)]
    rfl
  · rw [compare_eq_iff_eq.mpr rfl, compare_eq_iff_eq.mpr rfl]
    rfl
  · rw [compare_gt_iff_gt.mpr h, compare_lt_iff_lt.mpr (neg_lt_neg h)]
    rfl

/-- Of two canonical magnitudes, the one with the lower exponent is the smaller. -/
theorem magnitude_lt_of_exponent_lt {m₁ m₂ : ℕ} {e₁ e₂ : ℤ} (hm₁ : m₁ < 2 ^ 53)
    (hm₂ : 2 ^ 52 ≤ m₂) (he : e₁ < e₂) : (m₁ : ℝ) * 2 ^ e₁ < m₂ * 2 ^ e₂ := by
  have h₁ : (m₁ : ℝ) < 2 ^ 53 := by exact_mod_cast hm₁
  have h₂ : (2 : ℝ) ^ 52 ≤ m₂ := by exact_mod_cast hm₂
  have hpow : (2 : ℝ) ^ (e₁ + 1) ≤ 2 ^ e₂ := zpow_le_zpow_right₀ (by norm_num) (by omega)
  calc (m₁ : ℝ) * 2 ^ e₁ < 2 ^ 53 * 2 ^ e₁ := mul_lt_mul_of_pos_right h₁ (two_zpow_pos e₁)
    _ = 2 ^ 52 * 2 ^ (e₁ + 1) := by rw [zpow_add_one₀ (by norm_num)]; ring
    _ ≤ m₂ * 2 ^ e₂ := mul_le_mul h₂ hpow (two_zpow_pos _).le (Nat.cast_nonneg m₂)

/-- Canonical magnitudes compare by exponent, then by significand. -/
theorem compare_magnitude {s₁ s₂ : Sign} {m₁ m₂ : ℕ} {e₁ e₂ : ℤ} {h₁ : 0 < m₁} {h₂ : 0 < m₂}
    (hc₁ : Canonical (.finite s₁ m₁ e₁ h₁)) (hc₂ : Canonical (.finite s₂ m₂ e₂ h₂)) :
    (compare e₁ e₂).then (compare m₁ m₂) = compare ((m₁ : ℝ) * 2 ^ e₁) (m₂ * 2 ^ e₂) := by
  obtain ⟨hm₁, he₁, hlo₁⟩ := hc₁
  obtain ⟨hm₂, he₂, hlo₂⟩ := hc₂
  rcases lt_trichotomy e₁ e₂ with he | rfl | he
  · -- the larger exponent is not the least one, so its significand has its leading bit
    rw [Int.compare_eq_lt.mpr he]
    exact (compare_lt_iff_lt.mpr
      (magnitude_lt_of_exponent_lt hm₁ (hlo₂.resolve_right (by omega)) he)).symm
  · rw [Int.compare_eq_eq.mpr rfl]
    show compare m₁ m₂ = _
    have hpos := two_zpow_pos e₁
    rcases lt_trichotomy m₁ m₂ with hm | rfl | hm
    · rw [Nat.compare_eq_lt.mpr hm, compare_lt_iff_lt.mpr
        (mul_lt_mul_of_pos_right (by exact_mod_cast hm) hpos)]
    · rw [Nat.compare_eq_eq.mpr rfl, compare_eq_iff_eq.mpr rfl]
    · rw [Nat.compare_eq_gt.mpr hm, compare_gt_iff_gt.mpr
        (mul_lt_mul_of_pos_right (by exact_mod_cast hm) hpos)]
  · rw [Int.compare_eq_gt.mpr he]
    exact (compare_gt_iff_gt.mpr
      (magnitude_lt_of_exponent_lt hm₂ (hlo₁.resolve_right (by omega)) he)).symm

theorem magnitude_pos (m : ℕ) (e : ℤ) (hm : 0 < m) : (0 : ℝ) < m * 2 ^ e :=
  mul_pos (by exact_mod_cast hm) (two_zpow_pos e)

/-- **Canonical values compare as their real values do.** -/
theorem compare_spec {a b : UnpackedFloat} (ha : Canonical a) (hb : Canonical b) :
    a.compare b = some (compare (unpackedValue a) (unpackedValue b)) := by
  rcases a with _ | _ | s₁ | ⟨s₁, m₁, e₁, h₁⟩
  · exact ha.elim
  · exact ha.elim
  · rcases b with _ | _ | s₂ | ⟨_ | _, m₂, e₂, h₂⟩
    · exact hb.elim
    · exact hb.elim
    · simp [UnpackedFloat.compare, unpackedValue]
    · simp only [UnpackedFloat.compare, unpackedValue, signValue_negative]
      rw [compare_gt_iff_gt.mpr (by linarith [magnitude_pos m₂ e₂ h₂])]
    · simp only [UnpackedFloat.compare, unpackedValue, signValue_positive]
      rw [compare_lt_iff_lt.mpr (by linarith [magnitude_pos m₂ e₂ h₂])]
  · rcases b with _ | _ | s₂ | ⟨s₂, m₂, e₂, h₂⟩
    · exact hb.elim
    · exact hb.elim
    · cases s₁
      · simp only [UnpackedFloat.compare, unpackedValue, signValue_negative]
        rw [compare_lt_iff_lt.mpr (by linarith [magnitude_pos m₁ e₁ h₁])]
      · simp only [UnpackedFloat.compare, unpackedValue, signValue_positive]
        rw [compare_gt_iff_gt.mpr (by linarith [magnitude_pos m₁ e₁ h₁])]
    · have hmag := compare_magnitude ha hb
      cases s₁ <;> cases s₂
      · -- two negative values compare as their magnitudes the other way round
        simp only [UnpackedFloat.compare, unpackedValue, signValue_negative, neg_one_mul,
          compare_neg_neg, hmag]
      · simp only [UnpackedFloat.compare, unpackedValue, signValue_negative,
          signValue_positive]
        rw [compare_lt_iff_lt.mpr (by linarith [magnitude_pos m₁ e₁ h₁, magnitude_pos m₂ e₂ h₂])]
      · simp only [UnpackedFloat.compare, unpackedValue, signValue_negative,
          signValue_positive]
        rw [compare_gt_iff_gt.mpr (by linarith [magnitude_pos m₁ e₁ h₁, magnitude_pos m₂ e₂ h₂])]
      · simp only [UnpackedFloat.compare, unpackedValue, signValue_positive, one_mul, hmag]

/-- **Finite doubles are ordered as their values.** -/
theorem lt_iff_toReal_lt {x y : Float} (hx : x.isFinite = true) (hy : y.isFinite = true) :
    x < y ↔ toReal x < toReal y := by
  have hc := compare_spec (canonical_of_isFinite hx) (canonical_of_isFinite hy)
  show Float.lt x y = true ↔ _
  unfold Float.lt
  simp only [decide_eq_true_eq]
  show (x.toModel.unpack.compare y.toModel.unpack == some .lt) = true ↔ _
  rw [hc]
  simp [toReal, compare_lt_iff_lt]

theorem le_iff_toReal_le {x y : Float} (hx : x.isFinite = true) (hy : y.isFinite = true) :
    x ≤ y ↔ toReal x ≤ toReal y := by
  have hc := compare_spec (canonical_of_isFinite hx) (canonical_of_isFinite hy)
  show Float.le x y = true ↔ _
  unfold Float.le
  simp only [decide_eq_true_eq]
  show (x.toModel.unpack.compare y.toModel.unpack).any (·.isLE) = true ↔ _
  rw [hc]
  simp only [Option.any_some, toReal]
  rcases lt_trichotomy (unpackedValue x.toModel.unpack) (unpackedValue y.toModel.unpack)
    with h | h | h
  · rw [compare_lt_iff_lt.mpr h]
    exact ⟨fun _ => h.le, fun _ => rfl⟩
  · rw [compare_eq_iff_eq.mpr h]
    exact ⟨fun _ => h.le, fun _ => rfl⟩
  · rw [compare_gt_iff_gt.mpr h]
    exact ⟨fun h' => absurd h' (by decide), fun h' => absurd h' (not_le.mpr h)⟩

theorem beq_iff_toReal_eq {x y : Float} (hx : x.isFinite = true) (hy : y.isFinite = true) :
    (x == y) = true ↔ toReal x = toReal y := by
  have hc := compare_spec (canonical_of_isFinite hx) (canonical_of_isFinite hy)
  show (x.toModel.unpack.compare y.toModel.unpack == some .eq) = true ↔ _
  rw [hc]
  simp [toReal]

/-- A double that rounds a value with a double of its own, below `2 ^ 1024`, is that value. -/
theorem RoundsTo.of_representable {v : ℝ} {z : Float} (h : RoundsTo v z) (hv : Representable v)
    (hlt : |v| < 2 ^ 1024) : z.isFinite = true ∧ toReal z = v := by
  rw [← round_eq_self hv] at hlt
  have hz := h.isFinite_iff.mpr hlt
  exact ⟨hz, by rw [h.toReal_eq hz, round_eq_self hv]⟩

/-- A natural number below `2 ^ 53` is a double. -/
theorem representable_natCast {n : ℕ} (hn : n < 2 ^ 53) : Representable n :=
  ⟨n, 0, by rw [abs_of_nonneg (by positivity)]; exact_mod_cast hn, by norm_num, by simp⟩

/-! ### Negation -/

/-- Negating a double negates its unpacked form: the word of the negation unpacks again to it. -/
theorem unpack_neg (x : Float) : (-x).toModel.unpack = x.toModel.unpack.neg := by
  show UnpackedFloat.unpack .binary64 (UnpackedFloat.pack .binary64 x.toModel.unpack.neg) = _
  cases hu : x.toModel.unpack with
  | notANumber => rfl
  | infinity s => cases s <;> rfl
  | zero s => exact unpack_pack_zero (-s)
  | finite s m e hm =>
    obtain ⟨hc, he⟩ := unpack_finite_shape hu
    exact unpack_pack_of_canonical (canonical_finite_neg hc) he

@[simp] theorem toReal_neg (x : Float) : toReal (-x) = -toReal x := by
  unfold toReal
  rw [unpack_neg]
  cases x.toModel.unpack <;> simp [unpackedValue, UnpackedFloat.neg]

@[simp] theorem isFinite_neg (x : Float) : (-x).isFinite = x.isFinite := by
  show (-x).toModel.unpack.isFinite = x.toModel.unpack.isFinite
  rw [unpack_neg]
  cases x.toModel.unpack <;> rfl

end

end Binary64

end ArmReach
