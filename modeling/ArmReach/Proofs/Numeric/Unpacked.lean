import ArmReach.Proofs.Numeric.Rounding
import ArmReach.Proofs.Numeric.NotANumber
/-!
# Unpacked doubles and their values

Lean's model of a double computes every operation on an unpacked form (`UnpackedFloat`: NaN,
a signed infinity, a signed zero, or `±m * 2 ^ e`), rounds the exact result at the last place of
the format and packs it back into the 64-bit word. With the real values of the unpacked forms
(`unpackedValue`, beside `round`), this module shows that the model's rounding is
`Binary64.round`:

* Shifting an extended mantissa right by `k` divides it by `2 ^ k` (`mantissa_shiftRight`);
  for binary64 the shift to the target exponent keeps 53 significant bits, or stops at the
  least exponent `-1074` (`shiftToTargetExponent_binary64`).
* `Describes em x`: an extended mantissa (a mantissa with a round and a sticky bit) tells where
  a real `x` lies against its integer part and the midpoint above it. Shifting right keeps it
  describing `x / 2` (`Describes.shiftRightOne`), and its rounded mantissa is the integer
  nearest to `x` (`Describes.roundedMantissa_eq`).
* `roundWithAccuracy_spec`, `round_spec`, `normalize_spec`: the rounding steps of the model
  give a canonical unpacked double whose value is `round` of the exact value.
* `unpack_pack_of_canonical`, `unpack_pack_of_overflow`: packing a canonical value and unpacking
  it again gives it back while its exponent fits, and the infinity of its sign once it does not;
  `canonical_unpack`: every finite word unpacks to a canonical value.
-/

namespace ArmReach

namespace Binary64

noncomputable section

open Float.Model
open Float.Model.UnpackedFloat (Sign Accuracy ExtendedMantissa roundWithAccuracy
  shiftToTargetExponent shiftToExponent decreaseExponent)

/-! ### Canonical forms -/

/-- The unpacked forms of the finite doubles: a zero, or a significand below `2 ^ 53` with its
leading bit at `2 ^ 52`, or below it at the least exponent `-1074`. -/
def Canonical : UnpackedFloat → Prop
  | .zero _ => True
  | .finite _ m e _ => m < 2 ^ 53 ∧ -1074 ≤ e ∧ (2 ^ 52 ≤ m ∨ e = -1074)
  | _ => False

/-- The target exponent of binary64 for `m * 2 ^ e`: 52 places below the leading bit of `m`,
held at `-1074`. -/
theorem targetExponent_eq (m : ℕ) (e : ℤ) :
    Format.binary64.targetExponent (totalExponent m e) = max (m.log2 + e - 52) (-1074) := by
  simp only [Format.targetExponent, totalExponent, Format.mantissaBits, Format.minExponent]
  omega

/-- A canonical value is a double. -/
theorem Canonical.representable {u : UnpackedFloat} (hu : Canonical u) :
    Representable (unpackedValue u) := by
  cases u with
  | notANumber | infinity _ => exact hu.elim
  | zero s => exact ⟨0, 0, by norm_num, by norm_num, by simp [unpackedValue]⟩
  | finite s m e hm =>
    obtain ⟨hm53, he, -⟩ := hu
    have habs : |(m : ℤ)| < 2 ^ 53 := by
      rw [abs_of_nonneg (by positivity)]
      exact_mod_cast hm53
    cases s with
    | positive => exact ⟨m, e, habs, he, by simp [unpackedValue]⟩
    | negative => exact ⟨-m, e, by rwa [abs_neg], he, by simp [unpackedValue]⟩

/-! ### Extended mantissas -/

section Shift

-- The model's shifts are stated with core's `Nat.pow`, also where Mathlib's monoid power is in
-- scope.
attribute [local instance (high)] instPowNat

open Float.Model.UnpackedFloat

theorem mantissa_shiftRight (k : Nat) (em : ExtendedMantissa) :
    (em >>> k).mantissa = em.mantissa / 2 ^ k := by
  induction k with
  | zero => simp [HShiftRight.hShiftRight, Nat.repeat]
  | succ k ih =>
    show (ExtendedMantissa.shiftRightOne (em >>> k)).mantissa = _
    rw [ExtendedMantissa.shiftRightOne, ih, Nat.div_div_eq_div_mul, Nat.pow_succ]

theorem mantissa_ofMantissaAndAccuracy (m : Nat) (acc : Accuracy) :
    (ExtendedMantissa.ofMantissaAndAccuracy m acc).mantissa = m := by
  cases acc with
  | exact => rfl
  | inexact o => cases o <;> rfl

/-- The shift to the target exponent of binary64: the exponent becomes the largest of the old
one, the one that leaves 53 significant bits, and the least exponent `-1074`; the mantissa
loses the bits in between. -/
theorem shiftToTargetExponent_binary64 (m : Nat) (e : Int) (acc : Accuracy) :
    (shiftToTargetExponent Format.binary64 m e acc).2 =
        max e (max ((m.log2 : Int) + e - 52) (-1074)) ∧
      (shiftToTargetExponent Format.binary64 m e acc).1.mantissa =
        m / 2 ^ (max ((m.log2 : Int) + e - 52) (-1074) - e).toNat := by
  simp only [shiftToTargetExponent, shiftToExponent, Format.targetExponent, totalExponent,
    mantissa_shiftRight, mantissa_ofMantissaAndAccuracy]
  constructor
  · simp only [Format.mantissaBits, Format.minExponent]
    omega
  · congr 3
    simp only [Format.mantissaBits, Format.minExponent]
    omega

/-- A mantissa below `2 ^ P` has fewer than `P` bits after its leading one. -/
theorem log2_lt_of_lt_two_pow {m P : Nat} (hP : 0 < P) (hm : m < 2 ^ P) : m.log2 < P := by
  rcases Nat.eq_zero_or_pos m with rfl | hpos
  · simpa using hP
  · exact (Nat.log2_lt (Nat.ne_of_gt hpos)).2 hm

end Shift

theorem describes_exact (m : ℕ) :
    Describes (ExtendedMantissa.ofMantissaAndAccuracy m .exact) m := rfl

theorem Describes.bounds {em : ExtendedMantissa} {x : ℝ} (h : Describes em x) :
    (em.mantissa : ℝ) ≤ x ∧ x < em.mantissa + 1 := by
  obtain ⟨m, r, s⟩ := em
  cases r <;> cases s <;> simp only [Describes] at h
  · rw [h]; constructor <;> linarith
  · constructor <;> linarith [h.1, h.2]
  · rw [h]; constructor <;> linarith
  · constructor <;> linarith [h.1, h.2]

theorem Describes.floor_eq {em : ExtendedMantissa} {x : ℝ} (h : Describes em x) :
    ⌊x⌋ = em.mantissa := by
  rw [Int.floor_eq_iff]
  push_cast
  exact h.bounds

/-- The rounded mantissa is the integer nearest to the described value. -/
theorem Describes.roundedMantissa_eq {em : ExtendedMantissa} {x : ℝ} (h : Describes em x) :
    (em.roundedMantissa : ℤ) = roundEven x := by
  obtain ⟨m, r, s⟩ := em
  have hf : ⌊x⌋ = m := h.floor_eq
  unfold roundEven
  rw [hf, Int.cast_natCast]
  cases r <;> cases s <;> simp only [Describes] at h <;>
    simp only [ExtendedMantissa.roundedMantissa, ExtendedMantissa.accuracy,
      Accuracy.roundToNearestEven]
  · rw [if_pos (by rw [h]; norm_num)]
  · rw [if_pos (by linarith [h.2])]
  · -- on the midpoint: ties go to the even neighbour
    rw [if_neg (by rw [h]; norm_num), if_neg (by rw [h]; norm_num)]
    push_cast
    omega
  · rw [if_neg (by linarith [h.1]), if_pos (by linarith [h.1])]
    push_cast
    rfl

/-- Shifting one bit out halves the described value: the bit shifted out becomes the round
bit, and the old round and sticky bits the sticky bit. -/
theorem Describes.shiftRightOne {em : ExtendedMantissa} {x : ℝ} (h : Describes em x) :
    Describes em.shiftRightOne (x / 2) := by
  obtain ⟨m, r, s⟩ := em
  obtain ⟨q, b, hb, rfl⟩ : ∃ q b, b < 2 ∧ m = 2 * q + b :=
    ⟨m / 2, m % 2, Nat.mod_lt _ (by norm_num), (Nat.div_add_mod m 2).symm⟩
  have hq : (2 * q + b) / 2 = q := by omega
  have hr : (2 * q + b) % 2 = b := by omega
  rcases (by omega : b = 0 ∨ b = 1) with rfl | rfl <;> cases r <;> cases s <;>
    simp only [Describes, ExtendedMantissa.shiftRightOne, hq, hr] at h ⊢ <;>
    push_cast at h ⊢ <;> norm_num at h ⊢
  -- an even mantissa: the halved value stays below the midpoint
  · rw [h]; ring
  · constructor <;> linarith [h.1, h.2]
  · rw [h]; constructor <;> linarith
  · constructor <;> linarith [h.1, h.2]
  -- an odd mantissa: the halved value reaches the midpoint
  · rw [h]; ring
  · constructor <;> linarith [h.1, h.2]
  · rw [h]; constructor <;> linarith
  · constructor <;> linarith [h.1, h.2]

/-- Shifting `n` bits out divides the described value by `2 ^ n`. -/
theorem Describes.shiftRight {em : ExtendedMantissa} {x : ℝ} (h : Describes em x) (n : ℕ) :
    Describes (em >>> n) (x / 2 ^ n) := by
  induction n with
  | zero => simpa [HShiftRight.hShiftRight, Nat.repeat] using h
  | succ n ih =>
    show Describes (ExtendedMantissa.shiftRightOne (em >>> n)) _
    have := ih.shiftRightOne
    rwa [div_div, ← pow_succ] at this

/-! ### Rounding -/

/-- A positive `x` whose scaled form `x / 2 ^ e` has integer part `m` has its last place at the
target exponent of `m * 2 ^ e`, once `e` is at most that target. -/
theorem quantumExp_eq_target {m : ℕ} {e : ℤ} {x : ℝ} (hx : 0 < x)
    (hb : (m : ℝ) ≤ x / 2 ^ e ∧ x / 2 ^ e < m + 1)
    (he : e ≤ Format.binary64.targetExponent (totalExponent m e)) :
    quantumExp x = Format.binary64.targetExponent (totalExponent m e) := by
  rw [targetExponent_eq] at he ⊢
  have hxe : x = x / 2 ^ e * 2 ^ e := (div_mul_zpow x e).symm
  rcases Nat.eq_zero_or_pos m with rfl | hm
  · -- below one unit at an exponent of at most `-1074`: the subnormal range
    simp only [Nat.log2_zero, Nat.cast_zero, zero_add] at he ⊢
    have hlt : |x| < 2 ^ e := by
      rw [abs_of_pos hx, hxe]
      have h1 : x / 2 ^ e < 1 := by simpa using hb.2
      calc x / 2 ^ e * 2 ^ e < 1 * 2 ^ e := mul_lt_mul_of_pos_right h1 (two_zpow_pos e)
        _ = 2 ^ e := one_mul _
    have := log_lt_of_abs_lt hx.ne' hlt
    unfold quantumExp
    omega
  · -- the leading bit of `x` is that of `m`, moved by `e`
    have hlo : (2 : ℝ) ^ ((m.log2 : ℤ) + e) ≤ |x| := by
      have hm₁ : (2 : ℝ) ^ m.log2 ≤ m := by exact_mod_cast Nat.log2_self_le hm.ne'
      rw [abs_of_pos hx, hxe, zpow_add₀ (by norm_num : (2 : ℝ) ≠ 0), zpow_natCast]
      exact mul_le_mul_of_nonneg_right (le_trans hm₁ hb.1) (two_zpow_pos e).le
    have hhi : |x| < (2 : ℝ) ^ ((m.log2 : ℤ) + 1 + e) := by
      have hm₂ : (m : ℝ) + 1 ≤ 2 ^ (m.log2 + 1) := by exact_mod_cast Nat.lt_log2_self
      rw [abs_of_pos hx, hxe, zpow_add₀ (by norm_num : (2 : ℝ) ≠ 0)]
      refine mul_lt_mul_of_pos_right (lt_of_lt_of_le hb.2 ?_) (two_zpow_pos e)
      rw [← zpow_natCast] at hm₂
      push_cast at hm₂
      exact hm₂
    have h₁ := (Int.zpow_le_iff_le_log (b := 2) (by norm_num) (abs_pos.mpr hx.ne')).mp
      (by exact_mod_cast hlo)
    have h₂ := log_lt_of_abs_lt hx.ne' hhi
    unfold quantumExp
    omega

/-- The first shift of the model's rounding takes a described value to its target exponent. -/
theorem shiftToTargetExponent_describes {m : ℕ} {e : ℤ} {acc : Accuracy} {x : ℝ}
    (hd : Describes (.ofMantissaAndAccuracy m acc) (x / 2 ^ e))
    (he : e ≤ Format.binary64.targetExponent (totalExponent m e)) :
    (shiftToTargetExponent .binary64 m e acc).2 =
        Format.binary64.targetExponent (totalExponent m e) ∧
      Describes (shiftToTargetExponent .binary64 m e acc).1
        (x / 2 ^ Format.binary64.targetExponent (totalExponent m e)) := by
  set t := Format.binary64.targetExponent (totalExponent m e)
  have hk : (((t - e).toNat : ℕ) : ℤ) = t - e := Int.toNat_of_nonneg (by omega)
  refine ⟨?_, ?_⟩
  · show e + ((t - e).toNat : ℤ) = t
    omega
  · show Describes (ExtendedMantissa.ofMantissaAndAccuracy m acc >>> (t - e).toNat) _
    have hshift := hd.shiftRight (t - e).toNat
    have hscale : x / 2 ^ e / 2 ^ (t - e).toNat = x / 2 ^ t := by
      rw [div_div, ← zpow_natCast, hk, ← zpow_add₀ (by norm_num : (2 : ℝ) ≠ 0)]
      congr 2
      ring
    rwa [hscale] at hshift

/-- The second shift of the model's rounding: a rounded mantissa of `2 ^ 53` carries into the
exponent, a smaller one stays. Either way the value is kept and the result is canonical. -/
theorem carry_spec {R : ℕ} {t : ℤ} (hR : R ≤ 2 ^ 53) (ht : -1074 ≤ t)
    (hlow : 2 ^ 52 ≤ R ∨ t = -1074) :
    ((shiftToTargetExponent .binary64 R t .exact).1.mantissa : ℝ) *
        2 ^ (shiftToTargetExponent .binary64 R t .exact).2 = R * 2 ^ t ∧
      ((shiftToTargetExponent .binary64 R t .exact).1.mantissa = 0 ↔ R = 0) ∧
      (shiftToTargetExponent .binary64 R t .exact).1.mantissa < 2 ^ 53 ∧
      -1074 ≤ (shiftToTargetExponent .binary64 R t .exact).2 ∧
      (2 ^ 52 ≤ (shiftToTargetExponent .binary64 R t .exact).1.mantissa ∨
        (shiftToTargetExponent .binary64 R t .exact).2 = -1074) := by
  obtain ⟨hE, hM⟩ := shiftToTargetExponent_binary64 R t .exact
  rcases hR.lt_or_eq with hlt | rfl
  · -- no carry: the shift is by zero places
    have hlog : R.log2 ≤ 52 := by
      rcases Nat.eq_zero_or_pos R with rfl | hpos
      · simp
      · have := log2_lt_of_lt_two_pow (by norm_num) hlt
        omega
    have hk : (max ((R.log2 : ℤ) + t - 52) (-1074) - t).toNat = 0 := by omega
    rw [hk, pow_zero, Nat.div_one] at hM
    have hE' : (shiftToTargetExponent .binary64 R t .exact).2 = t := by omega
    rw [hM, hE']
    exact ⟨rfl, Iff.rfl, hlt, ht, hlow⟩
  · -- a carry: `2 ^ 53` becomes `2 ^ 52` one place up
    have hk : (max (((2 ^ 53 : ℕ).log2 : ℤ) + t - 52) (-1074) - t).toNat = 1 := by
      rw [Nat.log2_two_pow]
      omega
    rw [hk, pow_one] at hM
    have hE' : (shiftToTargetExponent .binary64 (2 ^ 53) t .exact).2 = t + 1 := by
      rw [hE, Nat.log2_two_pow]
      omega
    rw [hM, hE']
    refine ⟨?_, by norm_num, by norm_num, by omega, Or.inl (by norm_num)⟩
    rw [zpow_add₀ (by norm_num : (2 : ℝ) ≠ 0)]
    norm_num
    ring

/-- **The model's rounding of a described positive value is `round`**, with the sign applied,
and gives a canonical result. -/
theorem roundWithAccuracy_spec (s : Sign) {m : ℕ} {e : ℤ} {acc : Accuracy} {x : ℝ}
    (hx : 0 < x) (hd : Describes (.ofMantissaAndAccuracy m acc) (x / 2 ^ e))
    (he : e ≤ Format.binary64.targetExponent (totalExponent m e)) :
    Canonical (roundWithAccuracy .binary64 s m e acc) ∧
      unpackedValue (roundWithAccuracy .binary64 s m e acc) = signValue s * round x := by
  have hmant : (ExtendedMantissa.ofMantissaAndAccuracy m acc).mantissa = m :=
    mantissa_ofMantissaAndAccuracy m acc
  have hq := quantumExp_eq_target hx (hmant ▸ hd.bounds) he
  obtain ⟨hexp, hdesc⟩ := shiftToTargetExponent_describes hd he
  rw [← hq] at hexp hdesc
  -- the rounded mantissa is the nearest integer to `x` at its last place
  generalize hfirst : shiftToTargetExponent .binary64 m e acc = first at hexp hdesc
  obtain ⟨em, e₁⟩ := first
  simp only at hexp hdesc
  subst hexp
  have hR : (em.roundedMantissa : ℤ) = roundEven (x / 2 ^ quantumExp x) :=
    hdesc.roundedMantissa_eq
  have hR53 : em.roundedMantissa ≤ 2 ^ 53 := by
    have := roundEven_div_quantum_le hx
    omega
  have hlow : 2 ^ 52 ≤ em.roundedMantissa ∨ quantumExp x = -1074 := by
    by_cases h1074 : quantumExp x = -1074
    · exact Or.inr h1074
    · have := two_pow_le_roundEven_div_quantum hx h1074
      left
      omega
  have hround : (em.roundedMantissa : ℝ) * 2 ^ quantumExp x = round x := by
    unfold round
    rw [← hR]
    push_cast
    rfl
  obtain ⟨hval, hzero, hc⟩ := carry_spec hR53 (by unfold quantumExp; omega) hlow
  unfold roundWithAccuracy
  rw [hfirst]
  dsimp only
  split_ifs with h0
  · -- the rounded value is zero
    refine ⟨trivial, ?_⟩
    rw [← hround, hzero.mp h0]
    simp [unpackedValue]
  · refine ⟨hc, ?_⟩
    simp only [unpackedValue]
    rw [hval, hround]

theorem log2_shiftLeft {m : ℕ} (hm : 0 < m) (k : ℕ) : (m <<< k).log2 = m.log2 + k := by
  rw [Nat.log2_eq_iff (by rw [Nat.shiftLeft_eq]; positivity), Nat.shiftLeft_eq]
  constructor
  · rw [Nat.pow_add]
    exact Nat.mul_le_mul_right _ (Nat.log2_self_le hm.ne')
  · rw [show m.log2 + k + 1 = (m.log2 + 1) + k by omega, Nat.pow_add]
    exact Nat.mul_lt_mul_of_pos_right Nat.lt_log2_self (Nat.two_pow_pos k)

/-- **The model's rounding of `±m * 2 ^ e` is `round`**, for every positive `m`. -/
theorem round_spec (s : Sign) {m : ℕ} (hm : 0 < m) (e : ℤ) :
    Canonical (UnpackedFloat.round .binary64 s m e) ∧
      unpackedValue (UnpackedFloat.round .binary64 s m e) = signValue s * round (m * 2 ^ e) := by
  set t := Format.binary64.targetExponent (totalExponent m e) with ht
  set k := (e - t).toNat with hk
  have hk' : (k : ℤ) = e - min e t := by rw [hk]; omega
  -- widening the mantissa by `k` bits lowers the exponent to the target, keeping the value
  have hvalue : (m * 2 ^ e : ℝ) / 2 ^ (e - k) = ((m <<< k : ℕ) : ℝ) := by
    rw [Nat.shiftLeft_eq, div_eq_iff (two_zpow_pos _).ne']
    push_cast
    rw [mul_assoc, ← zpow_natCast, ← zpow_add₀ (by norm_num : (2 : ℝ) ≠ 0)]
    congr 2
    ring
  have htotal : totalExponent (m <<< k) (e - k) = totalExponent m e := by
    simp only [totalExponent, log2_shiftLeft hm]
    push_cast
    ring
  have hx : (0 : ℝ) < m * 2 ^ e := mul_pos (by exact_mod_cast hm) (two_zpow_pos e)
  have hd : Describes (.ofMantissaAndAccuracy (m <<< k) .exact) (m * 2 ^ e / 2 ^ (e - k)) := by
    rw [hvalue]
    exact describes_exact _
  have he : e - k ≤ Format.binary64.targetExponent (totalExponent (m <<< k) (e - k)) := by
    rw [htotal, ← ht]
    omega
  exact roundWithAccuracy_spec s hx hd he

/-- **The model's normalization of an integer significand `n * 2 ^ e` is `round`.** -/
theorem normalize_spec (n e : ℤ) (zs : Sign) :
    Canonical (UnpackedFloat.normalize .binary64 n e zs) ∧
      unpackedValue (UnpackedFloat.normalize .binary64 n e zs) = round (n * 2 ^ e) := by
  unfold UnpackedFloat.normalize
  rcases lt_trichotomy n 0 with hn | rfl | hn
  · rw [Int.compare_eq_lt.mpr hn]
    obtain ⟨hc, hv⟩ := round_spec .negative (m := (-n).toNat) (by omega) e
    refine ⟨hc, ?_⟩
    have hcast : (((-n).toNat : ℕ) : ℝ) = -(n : ℝ) := by
      rw [show (((-n).toNat : ℕ) : ℝ) = (((-n).toNat : ℤ) : ℝ) by norm_cast,
        Int.toNat_of_nonneg (by omega)]
      push_cast
      ring
    rw [hv, hcast, neg_mul, round_neg]
    simp
  · exact ⟨trivial, by simp [unpackedValue]⟩
  · rw [Int.compare_eq_gt.mpr hn]
    obtain ⟨hc, hv⟩ := round_spec .positive (m := n.toNat) (by omega) e
    refine ⟨hc, ?_⟩
    have hcast : ((n.toNat : ℕ) : ℝ) = (n : ℝ) := by
      rw [show ((n.toNat : ℕ) : ℝ) = ((n.toNat : ℤ) : ℝ) by norm_cast,
        Int.toNat_of_nonneg hn.le]
    rw [hv, hcast]
    simp

/-! ### Packing -/

@[simp] theorem ofBitVec_toBitVec (s : Sign) : Sign.ofBitVec s.toBitVec = s := by
  cases s <;> rfl

/-- The sign is the top bit, above the 11 exponent and 52 fraction bits. -/
theorem getLsbD_append_top (x : BitVec 1) (e : BitVec 11) (m : BitVec 52) :
    (x ++ e ++ m).getLsbD 63 = x.getLsbD 0 := by
  rw [BitVec.getLsbD_append, if_neg (by omega), BitVec.getLsbD_append, if_neg (by omega)]

@[simp] theorem unpackSign_packComponents (s : Sign) (e : BitVec 11) (m : BitVec 52) :
    UnpackedFloat.unpackSign (UnpackedFloat.packComponents .binary64 s e m) = s.toBitVec := by
  apply BitVec.eq_of_getLsbD_eq
  intro i hi
  obtain rfl : i = 0 := by omega
  simp only [UnpackedFloat.unpackSign, UnpackedFloat.packComponents, BitVec.getLsbD_cast,
    BitVec.getLsbD_extractLsb]
  exact getLsbD_append_top _ e m

/-- The implicit leading bit sits just above the 52 stored fraction bits. -/
theorem toNat_one_append (y : BitVec 52) : (1#1 ++ y).toNat = 2 ^ 52 + y.toNat := by
  rw [BitVec.toNat_append, ← Nat.shiftLeft_add_eq_or_of_lt y.isLt]
  simp [Nat.shiftLeft_eq]

/-- A word unpacks to a canonical value with an exponent of at most 971, when it is finite. -/
theorem unpack_finite_shape {b : BitVec Format.binary64.numBits} {s : Sign} {m : ℕ} {e : ℤ}
    {hm : 0 < m} (h : UnpackedFloat.unpack .binary64 b = .finite s m e hm) :
    Canonical (.finite s m e hm) ∧ e ≤ 971 := by
  have hmv := (@UnpackedFloat.unpackMantissa Format.binary64 b).isLt
  have hev := (@UnpackedFloat.unpackExponent Format.binary64 b).isLt
  unfold UnpackedFloat.unpack at h
  dsimp only at h
  split at h
  · split at h <;> cases h
  · rename_i hnotmax
    split at h
    · -- a subnormal word: 52 bits at the least exponent
      rename_i hzero
      split at h
      · cases h
      · injection h with _ hm' he'
        subst hm' he'
        rw [hzero]
        simp only [Format.exponentBias, BitVec.toNat_zero] at hmv ⊢
        refine ⟨⟨by omega, by omega, Or.inr (by omega)⟩, by omega⟩
    · -- a normal word: the implicit bit on top of 52 stored bits
      rename_i hnzero
      injection h with _ hm' he'
      subst hm' he'
      have hev0 : (@UnpackedFloat.unpackExponent Format.binary64 b).toNat ≠ 0 := by
        intro h0
        exact hnzero (BitVec.eq_of_toNat_eq h0)
      have hevmax : (@UnpackedFloat.unpackExponent Format.binary64 b).toNat ≠ 2047 := by
        intro hmax
        exact hnotmax (BitVec.eq_of_toNat_eq (by rw [hmax]; rfl))
      have happ := toNat_one_append (@UnpackedFloat.unpackMantissa Format.binary64 b)
      simp only [happ, Format.exponentBias] at hmv hev ⊢
      change _ < 2 ^ 52 at hmv
      change _ < 2 ^ 11 at hev
      refine ⟨⟨by omega, by omega, Or.inl (by omega)⟩, by omega⟩

theorem canonical_unpack (b : BitVec Format.binary64.numBits)
    (h : (UnpackedFloat.unpack .binary64 b).isFinite = true) :
    Canonical (UnpackedFloat.unpack .binary64 b) := by
  cases hu : UnpackedFloat.unpack .binary64 b with
  | notANumber | infinity _ => rw [hu] at h; cases h
  | zero _ => trivial
  | finite s m e hm => exact (unpack_finite_shape hu).1

/-- Zeros pack and unpack to themselves. -/
theorem unpack_pack_zero (s : Sign) :
    UnpackedFloat.unpack .binary64 (UnpackedFloat.pack .binary64 (.zero s)) = .zero s := by
  cases s <;> rfl

/-- **A canonical value whose exponent fits packs and unpacks to itself.** -/
theorem unpack_pack_of_canonical {s : Sign} {m : ℕ} {e : ℤ} {hm : 0 < m}
    (hc : Canonical (.finite s m e hm)) (he : e ≤ 971) :
    UnpackedFloat.unpack .binary64 (UnpackedFloat.pack .binary64 (.finite s m e hm)) =
      .finite s m e hm := by
  obtain ⟨hm53, hel, hlo⟩ := hc
  unfold UnpackedFloat.pack
  dsimp only
  split
  · rename_i hbig
    simp only [Format.exponentBias] at hbig
    omega
  split
  · -- normal: the stored fraction drops the leading bit, the exponent field is `e + 1075`
    rename_i _ hlog
    have hn : 2 ^ 52 ≤ m := by
      have hlog' : m.log2 = 52 := by simp only [Format.mantissaBits] at hlog; omega
      have := Nat.log2_self_le hm.ne'
      rwa [hlog'] at this
    have hfield : (BitVec.ofNat 11 (e + ↑Format.binary64.exponentBias + ((52 : ℕ) : ℤ)).toNat).toNat =
        (e + 1075).toNat := by
      simp only [Format.exponentBias]
      rw [BitVec.toNat_ofNat]
      omega
    unfold UnpackedFloat.unpack
    simp only [UnpackedFloat.unpackExponent_packComponents,
      UnpackedFloat.unpackMantissa_packComponents, unpackSign_packComponents, ofBitVec_toBitVec]
    -- the field is neither all ones (`e ≤ 971`) nor zero (`-1074 ≤ e`)
    split
    · rename_i h
      have := congrArg BitVec.toNat h
      rw [hfield] at this
      simp at this
      omega
    split
    · rename_i h
      have := congrArg BitVec.toNat h
      rw [hfield] at this
      simp at this
      omega
    simp only [UnpackedFloat.finite.injEq, true_and, toNat_one_append, hfield]
    simp only [Format.exponentBias, BitVec.toNat_ofNat]
    omega
  · -- subnormal: the exponent field is zero and the value sits at `-1074`
    rename_i _ hlog
    have hsub : m < 2 ^ 52 := by
      by_contra hn
      apply hlog
      have := (Nat.log2_eq_iff hm.ne').mpr ⟨by omega, hm53⟩
      simp [Format.mantissaBits, this]
    have he' : e = -1074 := hlo.resolve_left (by omega)
    subst he'
    have hnz : BitVec.ofNat 52 m ≠ 0#52 := by
      intro h
      have := congrArg BitVec.toNat h
      simp at this
      omega
    unfold UnpackedFloat.unpack
    simp only [UnpackedFloat.unpackExponent_packComponents,
      UnpackedFloat.unpackMantissa_packComponents, unpackSign_packComponents, ofBitVec_toBitVec]
    rw [if_neg (by decide), if_true, dif_neg hnz]
    simp only [UnpackedFloat.finite.injEq, true_and, BitVec.toNat_ofNat]
    simp only [Format.exponentBias]
    omega

/-- **A canonical value whose exponent does not fit packs to the infinity of its sign.** -/
theorem unpack_pack_of_overflow {s : Sign} {m : ℕ} {e : ℤ} {hm : 0 < m} (he : 972 ≤ e) :
    UnpackedFloat.unpack .binary64 (UnpackedFloat.pack .binary64 (.finite s m e hm)) =
      .infinity s := by
  unfold UnpackedFloat.pack
  dsimp only
  split
  · cases s <;> rfl
  · rename_i hsmall
    simp only [Format.exponentBias] at hsmall
    omega

end

end Binary64

end ArmReach
