import ArmReach.Proofs.Numeric.Remainder
import ArmReach.Elementary.Arc
/-!
# The range of the inverse tangent

`atan` of a double not below zero, or of `+∞`, is a finite double in `[0, π/2]`, where `π/2`
is the double nearest it (`atan_range`); so is `atan2 y x` for a point with finite `y > 0` and
`x ≥ 0` (`atan2_range`). The angle of such a point is what the axis-angle form of a rotation
takes its angle from.

The bound rests on the rational kernel: on `[-3/4, 3/4]` its value lies between `0` and its
argument (`atanKernel_between`). Its numerator and denominator are Horner polynomials in
`z = x²`, and each Horner step keeps its value in an integer interval
(`Within.horner`): integers are doubles, so rounding cannot leave the interval. The
numerator stays in `[-282, 0]` and the denominator in `[194, 1306]`, so the correction
`z P / Q` lies in `[-1, 0]` and `x + x (z P / Q)` between `0` and `x`. The three ranges of the
argument reduction then add at most `π/2`: the reciprocal branch subtracts the kernel of
`1 / x ≤ 1/2` from `π/2` and adds back a tail that rounds away, and the middle branch adds the
kernel of `(x - 1) / (x + 1)`, at most `5/8` in size, to `π/4`.
-/

namespace ArmReach

namespace Binary64

open Float.Model
open Float.Model.UnpackedFloat (Sign)

/-! ### Integer intervals -/

/-- Rounding keeps a value between `0` and a finite double between them. -/
theorem RoundsTo.between_zero {v : ℝ} {z a : Float} (h : RoundsTo v z) (ha : a.isFinite = true)
    (h1 : min (toReal a) 0 ≤ v) (h2 : v ≤ max (toReal a) 0) :
    z.isFinite = true ∧ min (toReal a) 0 ≤ toReal z ∧ toReal z ≤ max (toReal a) 0 := by
  have hrep := representable_toReal ha
  have hlt := abs_toReal_lt ha
  have h0 : Representable 0 := ⟨0, 0, by norm_num, by norm_num, by simp⟩
  rcases le_total 0 (toReal a) with hpos | hneg
  · rw [min_eq_right hpos] at h1 ⊢
    rw [max_eq_left hpos] at h2 ⊢
    exact h.between h0 hrep (by simp) hlt h1 h2
  · rw [min_eq_left hneg] at h1 ⊢
    rw [max_eq_right hneg] at h2 ⊢
    exact h.between hrep h0 hlt (by simp) h1 h2

/-- A multiple of `a` by a factor in `[0, 1]` lies between `0` and `a`. -/
theorem mul_unit_mem {a t : ℝ} (ht0 : 0 ≤ t) (ht1 : t ≤ 1) : min a 0 ≤ a * t ∧ a * t ≤ max a 0 := by
  rcases le_total 0 a with ha | ha
  · rw [min_eq_right ha, max_eq_left ha]
    exact ⟨mul_nonneg ha ht0, mul_le_of_le_one_right ha ht1⟩
  · rw [min_eq_left ha, max_eq_right ha]
    have := mul_nonneg (neg_nonneg.mpr ha) (sub_nonneg.mpr ht1)
    exact ⟨by linarith, mul_nonpos_of_nonpos_of_nonneg ha ht0⟩

/-- `x` is a finite double between the integers `lo` and `hi`. -/
structure Within (x : Float) (lo hi : ℤ) : Prop where
  isFinite : x.isFinite = true
  lo_le : (lo : ℝ) ≤ toReal x
  le_hi : toReal x ≤ hi

/-- An integer below `2 ^ 53` in size is a double. -/
theorem representable_intCast {n : ℤ} (hn : n.natAbs < 2 ^ 53) : Representable n :=
  ⟨n, 0, by rw [Int.abs_eq_natAbs]; exact_mod_cast hn, by norm_num, by simp⟩

theorem abs_intCast_lt {n : ℤ} (hn : n.natAbs < 2 ^ 53) : |(n : ℝ)| < 2 ^ 1024 := by
  rw [← Int.cast_abs, Int.abs_eq_natAbs, Int.cast_natCast]
  calc (n.natAbs : ℝ) < 2 ^ 53 := by exact_mod_cast hn
    _ ≤ 2 ^ 1024 := pow_le_pow_right₀ (by norm_num) (by norm_num)

/-- **Rounding keeps integer bounds**: a value between two integers below `2 ^ 53` in size
rounds to a finite double between them. -/
theorem Within.of_roundsTo {v : ℝ} {z : Float} {lo hi : ℤ} (h : RoundsTo v z)
    (hlo : lo.natAbs < 2 ^ 53) (hhi : hi.natAbs < 2 ^ 53) (h1 : (lo : ℝ) ≤ v) (h2 : v ≤ hi) :
    Within z lo hi :=
  let ⟨hz, h1', h2'⟩ := h.between (representable_intCast hlo) (representable_intCast hhi)
    (abs_intCast_lt hlo) (abs_intCast_lt hhi) h1 h2
  ⟨hz, h1', h2'⟩

/-- An integer below `2 ^ 53` in size converts to a double exactly. -/
theorem toReal_ofInt {n : ℤ} (hn : n.natAbs < 2 ^ 53) :
    (Float.ofInt n).isFinite = true ∧ toReal (Float.ofInt n) = n := by
  cases n with
  | ofNat m =>
    obtain ⟨hf, hv⟩ := toReal_ofNat (show m < 2 ^ 53 from hn)
    exact ⟨hf, by rw [Int.ofNat_eq_natCast, Int.cast_natCast]; exact hv⟩
  | negSucc m =>
    obtain ⟨hf, hv⟩ := toReal_ofNat (show m + 1 < 2 ^ 53 from hn)
    show (-Float.ofNat (m + 1)).isFinite = true ∧ toReal (-Float.ofNat (m + 1)) = _
    rw [isFinite_neg, toReal_neg, hv, Int.cast_negSucc]
    exact ⟨hf, by push_cast; ring⟩

/-- A finite double compared with two integers below `2 ^ 53`, as doubles, lies between them. -/
theorem Within.of_le {x : Float} (lo hi : ℤ) (hlo : lo.natAbs < 2 ^ 53) (hhi : hi.natAbs < 2 ^ 53)
    (hx : x.isFinite = true) (h1 : Float.ofInt lo ≤ x) (h2 : x ≤ Float.ofInt hi) :
    Within x lo hi := by
  obtain ⟨hlf, hlv⟩ := toReal_ofInt hlo
  obtain ⟨hhf, hhv⟩ := toReal_ofInt hhi
  rw [le_iff_toReal_le hlf hx, hlv] at h1
  rw [le_iff_toReal_le hx hhf, hhv] at h2
  exact ⟨hx, h1, h2⟩

/-- The rounded sum of doubles in integer intervals lies in the sum of the intervals. -/
theorem Within.add {x y : Float} {a b c d lo hi : ℤ} (hx : Within x a b) (hy : Within y c d)
    (hlo : lo ≤ a + c) (hhi : b + d ≤ hi) (hlo' : lo.natAbs < 2 ^ 53)
    (hhi' : hi.natAbs < 2 ^ 53) : Within (x + y) lo hi := by
  have hlo_r : (lo : ℝ) ≤ a + c := by exact_mod_cast hlo
  have hhi_r : (b : ℝ) + d ≤ hi := by exact_mod_cast hhi
  refine .of_roundsTo (add_roundsTo hx.isFinite hy.isFinite) hlo' hhi' ?_ ?_
  · linarith [hx.lo_le, hy.lo_le]
  · linarith [hx.le_hi, hy.le_hi]

/-- **One step of Horner's rule**: for `z` in `[0, 1]`, the rounded `h * z + b` lies in the
interval of `h` widened to `0`, shifted by the interval of `b`. -/
theorem Within.horner {h z b : Float} {lo hi bl bu lo' hi' : ℤ} (hh : Within h lo hi)
    (hz : Within z 0 1) (hb : Within b bl bu) (hlo : lo' ≤ min lo 0 + bl)
    (hhi : max hi 0 + bu ≤ hi') (hlo' : lo'.natAbs < 2 ^ 53) (hhi' : hi'.natAbs < 2 ^ 53) :
    Within (h * z + b) lo' hi' := by
  have ht0 : (0 : ℝ) ≤ toReal z := by exact_mod_cast hz.lo_le
  have ht1 : toReal z ≤ 1 := by exact_mod_cast hz.le_hi
  -- `h * z` lies between `0` and `h`, and so in `[min lo 0, max hi 0]`
  obtain ⟨hm1, hm2⟩ := @mul_unit_mem (toReal h) _ ht0 ht1
  obtain ⟨hm, hml, hmu⟩ := (mul_roundsTo hh.isFinite hz.isFinite).between_zero hh.isFinite hm1 hm2
  have hmin : min (lo : ℝ) 0 ≤ min (toReal h) 0 := min_le_min_right 0 hh.lo_le
  have hmax : max (toReal h) 0 ≤ max (hi : ℝ) 0 := max_le_max_right 0 hh.le_hi
  have hlo_r : (lo' : ℝ) ≤ min (lo : ℝ) 0 + bl := by exact_mod_cast hlo
  have hhi_r : max (hi : ℝ) 0 + bu ≤ hi' := by exact_mod_cast hhi
  refine .of_roundsTo (add_roundsTo hm hb.isFinite) hlo' hhi' ?_ ?_
  · linarith [hb.lo_le]
  · linarith [hb.le_hi]

/-! ### Doubles against `+∞` -/

/-- A finite double divided by `+∞` is a zero. -/
theorem div_of_unpack_eq_posInf {x y : Float} (hx : x.isFinite = true)
    (hy : y.toModel.unpack = .infinity .positive) :
    (x / y).isFinite = true ∧ toReal (x / y) = 0 := by
  have hc := canonical_of_isFinite hx
  have hq : ∃ s, (x / y).toModel.unpack = .zero s := by
    show ∃ s, (Float.Model.pack (UnpackedFloat.div .binary64 x.toModel.unpack
      y.toModel.unpack)).unpack = _
    rw [hy]
    cases hu : x.toModel.unpack with
    | notANumber | infinity _ => rw [hu] at hc; exact hc.elim
    | zero s =>
      rw [show UnpackedFloat.div .binary64 (.zero s) (.infinity .positive) = .zero (s / .positive)
        from rfl]
      exact ⟨_, unpack_pack_zero _⟩
    | finite s m e hm =>
      rw [show UnpackedFloat.div .binary64 (.finite s m e hm) (.infinity .positive) =
        .zero (s / .positive) from rfl]
      exact ⟨_, unpack_pack_zero _⟩
  obtain ⟨s, hs⟩ := hq
  refine ⟨by show (x / y).toModel.unpack.isFinite = true; rw [hs]; rfl, ?_⟩
  unfold toReal
  rw [hs]
  rfl

/-- `+∞` is above every finite double. -/
theorem not_le_of_unpack_eq_posInf {x y : Float} (hx : x.isFinite = true)
    (hy : y.toModel.unpack = .infinity .positive) : ¬ y ≤ x := by
  show ¬ Float.le y x = true
  unfold Float.le
  simp only [decide_eq_true_eq]
  show ¬ (y.toModel.unpack.compare x.toModel.unpack).any (·.isLE) = true
  have hx' : x.toModel.unpack.isFinite = true := hx
  rw [hy]
  cases hu : x.toModel.unpack with
  | notANumber | infinity _ => rw [hu] at hx'; cases hx'
  | zero s => cases s <;> exact Bool.false_ne_true
  | finite s m e hm => cases s <;> exact Bool.false_ne_true

/-- `+∞` tests unequal to every finite double. -/
theorem beq_eq_false_of_unpack_eq_posInf {x y : Float} (hx : x.isFinite = true)
    (hy : y.toModel.unpack = .infinity .positive) : (y == x) = false := by
  show (y.toModel.unpack.compare x.toModel.unpack == some .eq) = false
  have hx' : x.toModel.unpack.isFinite = true := hx
  rw [hy]
  cases hu : x.toModel.unpack with
  | notANumber | infinity _ => rw [hu] at hx'; cases hx'
  | zero s => cases s <;> rfl
  | finite s m e hm => cases s <;> rfl

end Binary64

open Binary64 Float.Model

/-! ### π and its fractions as doubles -/

theorem unpack_pi :
    Elementary.pi.toModel.unpack = .finite .positive 7074237752028440 (-51) (by decide) := rfl

/-- `π` as a double: `7074237752028440 * 2 ^ -51`, a little below `π`. -/
theorem toReal_pi :
    Elementary.pi.isFinite = true ∧ toReal Elementary.pi = 7074237752028440 * 2 ^ (-51 : ℤ) := by
  obtain ⟨hf, hv⟩ := toReal_of_unpack unpack_pi
  exact ⟨hf, by rw [hv]; simp⟩

/-- Doubling `π` is exact. -/
theorem toReal_two_mul_pi :
    (2 * Elementary.pi).isFinite = true ∧ toReal (2 * Elementary.pi) = 2 * toReal Elementary.pi := by
  have hu : (2 * Elementary.pi).toModel.unpack =
      .finite .positive 7074237752028440 (-50) (by decide) := rfl
  obtain ⟨hf, hv⟩ := toReal_of_unpack hu
  refine ⟨hf, ?_⟩
  rw [hv, toReal_pi.2, signValue_positive, one_mul,
    show (-50 : ℤ) = -51 + 1 by norm_num, zpow_add_one₀ two_ne_zero]
  ring

/-- Halving `π` is exact. -/
theorem toReal_half_pi :
    (Elementary.pi / 2).isFinite = true ∧ toReal (Elementary.pi / 2) = toReal Elementary.pi / 2 := by
  have hu : (Elementary.pi / 2).toModel.unpack =
      .finite .positive 7074237752028440 (-52) (by decide) := rfl
  obtain ⟨hf, hv⟩ := toReal_of_unpack hu
  refine ⟨hf, ?_⟩
  rw [hv, toReal_pi.2, signValue_positive, one_mul,
    show (-51 : ℤ) = -52 + 1 by norm_num, zpow_add_one₀ two_ne_zero]
  ring

/-- Quartering `π` is exact. -/
theorem toReal_quarter_pi :
    (Elementary.pi / 4).isFinite = true ∧ toReal (Elementary.pi / 4) = toReal Elementary.pi / 4 := by
  have hu : (Elementary.pi / 4).toModel.unpack =
      .finite .positive 7074237752028440 (-53) (by decide) := rfl
  obtain ⟨hf, hv⟩ := toReal_of_unpack hu
  refine ⟨hf, ?_⟩
  rw [hv, toReal_pi.2, signValue_positive, one_mul,
    show (-51 : ℤ) = -53 + 2 by norm_num, zpow_add₀ two_ne_zero]
  norm_num

theorem toReal_pi_bounds : 157 / 50 < toReal Elementary.pi ∧ toReal Elementary.pi < 63 / 20 := by
  rw [toReal_pi.2, zpow_neg, zpow_ofNat]
  constructor <;> norm_num

namespace Elementary

/-! ### The rational kernel -/

/-- **The rational kernel lies between `0` and its argument** on `[-3/4, 3/4]`, for
coefficients of the signs and sizes of the library's: the numerator's polynomial stays in
`[-282, 0]` and the denominator's in `[194, 1306]`, so the correction `z P / Q` lies in
`[-1, 0]`. -/
theorem rational_between {x p0 p1 p2 p3 p4 q0 q1 q2 q3 q4 : Float} (hx : x.isFinite = true)
    (hx1 : |toReal x| ≤ 3 / 4) (hp0 : Within p0 (-1) 0) (hp1 : Within p1 (-17) 0)
    (hp2 : Within p2 (-76) 0) (hp3 : Within p3 (-123) 0) (hp4 : Within p4 (-65) 0)
    (hq0 : Within q0 24 25) (hq1 : Within q1 165 166) (hq2 : Within q2 432 433)
    (hq3 : Within q3 485 486) (hq4 : Within q4 194 195) :
    let z := x * x
    let r := z * ((((p0 * z + p1) * z + p2) * z + p3) * z + p4) /
      (((((z + q0) * z + q1) * z + q2) * z + q3) * z + q4)
    (x * r + x).isFinite = true ∧ min (toReal x) 0 ≤ toReal (x * r + x) ∧
      toReal (x * r + x) ≤ max (toReal x) 0 := by
  intro z
  dsimp only
  -- `z = x²` lies in `[0, 9/16]`
  have hsq : toReal x * toReal x ≤ 9 / 16 := by
    rw [← abs_mul_abs_self]
    nlinarith [abs_nonneg (toReal x)]
  obtain ⟨hz, hz0, hz1⟩ := (mul_roundsTo hx hx).between ⟨0, 0, by norm_num, by norm_num, by simp⟩
    ⟨9, -4, by norm_num, by norm_num, by norm_num⟩ (by simp)
    (by rw [abs_of_nonneg (by norm_num)]; exact lt_two_pow_1024 (by norm_num))
    (mul_self_nonneg _) hsq
  have hzw : Within z 0 1 := ⟨hz, by simpa using hz0, by push_cast; linarith⟩
  -- the numerator's polynomial, one Horner step per coefficient
  have hP1 : Within (p0 * z + p1) (-18) 0 := hp0.horner hzw hp1 (by decide) (by decide)
    (by decide) (by decide)
  have hP2 : Within ((p0 * z + p1) * z + p2) (-94) 0 := hP1.horner hzw hp2 (by decide)
    (by decide) (by decide) (by decide)
  have hP3 : Within (((p0 * z + p1) * z + p2) * z + p3) (-217) 0 := hP2.horner hzw hp3
    (by decide) (by decide) (by decide) (by decide)
  have hP : Within ((((p0 * z + p1) * z + p2) * z + p3) * z + p4) (-282) 0 := hP3.horner hzw hp4
    (by decide) (by decide) (by decide) (by decide)
  -- the denominator's, bounded below by its last coefficient
  have hQ1 : Within (z + q0) 24 26 := hzw.add hq0 (by decide) (by decide) (by decide) (by decide)
  have hQ2 : Within ((z + q0) * z + q1) 165 192 := hQ1.horner hzw hq1 (by decide) (by decide)
    (by decide) (by decide)
  have hQ3 : Within (((z + q0) * z + q1) * z + q2) 432 625 := hQ2.horner hzw hq2 (by decide)
    (by decide) (by decide) (by decide)
  have hQ4 : Within ((((z + q0) * z + q1) * z + q2) * z + q3) 485 1111 := hQ3.horner hzw hq3
    (by decide) (by decide) (by decide) (by decide)
  have hQ : Within (((((z + q0) * z + q1) * z + q2) * z + q3) * z + q4) 194 1306 :=
    hQ4.horner hzw hq4 (by decide) (by decide) (by decide) (by decide)
  generalize ((((p0 * z + p1) * z + p2) * z + p3) * z + p4) = P at hP ⊢
  generalize (((((z + q0) * z + q1) * z + q2) * z + q3) * z + q4) = Q at hQ ⊢
  -- `z P` lies in `[-159, 0]`, and `z P / Q` in `[-1, 0]`
  have hPl : (-282 : ℝ) ≤ toReal P := by exact_mod_cast hP.lo_le
  have hPu : toReal P ≤ 0 := by exact_mod_cast hP.le_hi
  have hQl : (194 : ℝ) ≤ toReal Q := by exact_mod_cast hQ.lo_le
  have hzP := mul_le_mul_of_nonneg_left hPl hz0
  have hw : Within (z * P) (-159) 0 := .of_roundsTo (mul_roundsTo hz hP.isFinite) (by decide)
    (by decide) (by push_cast; linarith) (by simpa using mul_nonpos_of_nonneg_of_nonpos hz0 hPu)
  have hwl : (-159 : ℝ) ≤ toReal (z * P) := by exact_mod_cast hw.lo_le
  have hwu : toReal (z * P) ≤ 0 := by exact_mod_cast hw.le_hi
  have hQpos : 0 < toReal Q := by linarith
  have hr : Within (z * P / Q) (-1) 0 := .of_roundsTo
    (div_roundsTo hw.isFinite hQ.isFinite hQpos.ne') (by decide) (by decide)
    (by rw [Int.cast_neg, Int.cast_one, le_div_iff₀ hQpos]; linarith)
    (by rw [Int.cast_zero, div_le_iff₀ hQpos]; linarith)
  -- `x r` lies between `0` and `-x`, as `-r` lies in `[0, 1]`; adding `x` puts it between `0`
  -- and `x`
  have hr0 : 0 ≤ -toReal (z * P / Q) := by
    have : toReal (z * P / Q) ≤ 0 := by exact_mod_cast hr.le_hi
    linarith
  have hr1 : -toReal (z * P / Q) ≤ 1 := by
    have : (-1 : ℝ) ≤ toReal (z * P / Q) := by exact_mod_cast hr.lo_le
    linarith
  obtain ⟨hm1, hm2⟩ := @mul_unit_mem (-toReal x) _ hr0 hr1
  rw [neg_mul_neg, ← toReal_neg] at hm1 hm2
  obtain ⟨hs, hs1, hs2⟩ := (mul_roundsTo hx hr.isFinite).between_zero (by rwa [isFinite_neg]) hm1 hm2
  rw [toReal_neg] at hs1 hs2
  refine (add_roundsTo hs hx).between_zero hx ?_ ?_
  · rcases le_total 0 (toReal x) with h | h
    · rw [min_eq_left (neg_nonpos.mpr h)] at hs1
      rw [min_eq_right h]
      linarith
    · rw [min_eq_right (neg_nonneg.mpr h)] at hs1
      rw [min_eq_left h]
      linarith
  · rcases le_total 0 (toReal x) with h | h
    · rw [max_eq_right (neg_nonpos.mpr h)] at hs2
      rw [max_eq_left h]
      linarith
    · rw [max_eq_left (neg_nonneg.mpr h)] at hs2
      rw [max_eq_right h]
      linarith

/-- **The kernel of `atan` lies between `0` and its argument** on `[-3/4, 3/4]`. -/
theorem atanKernel_between {x : Float} (hx : x.isFinite = true) (hx1 : |toReal x| ≤ 3 / 4) :
    (atanKernel x).isFinite = true ∧ min (toReal x) 0 ≤ toReal (atanKernel x) ∧
      toReal (atanKernel x) ≤ max (toReal x) 0 :=
  rational_between hx hx1
    (.of_le (-1) 0 (by decide) (by decide) (by decide +kernel) (by decide +kernel)
      (by decide +kernel))
    (.of_le (-17) 0 (by decide) (by decide) (by decide +kernel) (by decide +kernel)
      (by decide +kernel))
    (.of_le (-76) 0 (by decide) (by decide) (by decide +kernel) (by decide +kernel)
      (by decide +kernel))
    (.of_le (-123) 0 (by decide) (by decide) (by decide +kernel) (by decide +kernel)
      (by decide +kernel))
    (.of_le (-65) 0 (by decide) (by decide) (by decide +kernel) (by decide +kernel)
      (by decide +kernel))
    (.of_le 24 25 (by decide) (by decide) (by decide +kernel) (by decide +kernel)
      (by decide +kernel))
    (.of_le 165 166 (by decide) (by decide) (by decide +kernel) (by decide +kernel)
      (by decide +kernel))
    (.of_le 432 433 (by decide) (by decide) (by decide +kernel) (by decide +kernel)
      (by decide +kernel))
    (.of_le 485 486 (by decide) (by decide) (by decide +kernel) (by decide +kernel)
      (by decide +kernel))
    (.of_le 194 195 (by decide) (by decide) (by decide +kernel) (by decide +kernel)
      (by decide +kernel))

/-! ### The constants of the reduction -/

theorem toReal_half : (0.5 : Float).isFinite = true ∧ toReal 0.5 = 1 / 2 := by
  have hu : (0.5 : Float).toModel.unpack = .finite .positive (2 ^ 52) (-53) (by decide) := rfl
  obtain ⟨hf, hv⟩ := toReal_of_unpack hu
  exact ⟨hf, by rw [hv]; norm_num⟩

theorem toReal_three_quarters : (0.75 : Float).isFinite = true ∧ toReal 0.75 = 3 / 4 := by
  have hu : (0.75 : Float).toModel.unpack = .finite .positive (3 * 2 ^ 51) (-53) (by decide) := rfl
  obtain ⟨hf, hv⟩ := toReal_of_unpack hu
  exact ⟨hf, by rw [hv]; norm_num⟩

theorem toReal_eighth : (0.125 : Float).isFinite = true ∧ toReal 0.125 = 1 / 8 := by
  have hu : (0.125 : Float).toModel.unpack = .finite .positive (2 ^ 52) (-55) (by decide) := rfl
  obtain ⟨hf, hv⟩ := toReal_of_unpack hu
  exact ⟨hf, by rw [hv]; norm_num⟩

/-- The kernel's range ends at `0.66`, between `1/2` and `3/4`. -/
theorem toReal_point66 :
    (0.66 : Float).isFinite = true ∧ 1 / 2 ≤ toReal 0.66 ∧ toReal 0.66 ≤ 3 / 4 := by
  have hf : (0.66 : Float).isFinite = true := by decide +kernel
  obtain ⟨hhf, hhv⟩ := toReal_half
  obtain ⟨hqf, hqv⟩ := toReal_three_quarters
  have h1 : (0.5 : Float) ≤ 0.66 := by decide +kernel
  have h2 : (0.66 : Float) ≤ 0.75 := by decide +kernel
  rw [le_iff_toReal_le hhf hf, hhv] at h1
  rw [le_iff_toReal_le hf hqf, hqv] at h2
  exact ⟨hf, h1, h2⟩

/-- `tan (3π/8)` as a double lies in `[2, 3]`. -/
theorem within_tan3PiOver8 : Within tan3PiOver8 2 3 :=
  .of_le 2 3 (by decide) (by decide) (by decide +kernel) (by decide +kernel) (by decide +kernel)

/-- The tail of `π/2` is a double not below zero that rounds away against `π/2`; half of it
is at most `1/8`. -/
theorem piOver2Tail_bounds :
    piOver2Tail.isFinite = true ∧ 0 ≤ toReal piOver2Tail ∧ pi / 2 + piOver2Tail = pi / 2 ∧
      (0.5 * piOver2Tail).isFinite = true ∧ 0 ≤ toReal (0.5 * piOver2Tail) ∧
      toReal (0.5 * piOver2Tail) ≤ 1 / 8 := by
  have hf : piOver2Tail.isFinite = true := by decide +kernel
  have hhf : (0.5 * piOver2Tail).isFinite = true := by decide +kernel
  obtain ⟨hef, hev⟩ := toReal_eighth
  have h0 : (0 : Float) ≤ piOver2Tail := by decide +kernel
  have hh0 : (0 : Float) ≤ 0.5 * piOver2Tail := by decide +kernel
  have hh1 : 0.5 * piOver2Tail ≤ (0.125 : Float) := by decide +kernel
  rw [le_iff_toReal_le toReal_zero.1 hf, toReal_zero.2] at h0
  rw [le_iff_toReal_le toReal_zero.1 hhf, toReal_zero.2] at hh0
  rw [le_iff_toReal_le hhf hef, hev] at hh1
  exact ⟨hf, h0, by decide +kernel, hhf, hh0, hh1⟩

/-! ### The three ranges of the reduction -/

/-- **The reciprocal branch** `π/2 - atan v + tail`, for `v` in `[0, 1/2]`, lies in
`[1, π/2]`: the kernel is at most `1/2`, and the tail rounds away against `π/2`. -/
theorem reciprocal_branch_range {v : Float} (hv : v.isFinite = true) (hv0 : 0 ≤ toReal v)
    (hv1 : toReal v ≤ 1 / 2) :
    (pi / 2 - atanKernel v + piOver2Tail).isFinite = true ∧
      1 ≤ toReal (pi / 2 - atanKernel v + piOver2Tail) ∧
      toReal (pi / 2 - atanKernel v + piOver2Tail) ≤ toReal (pi / 2) := by
  obtain ⟨hk, hk0, hk1⟩ := atanKernel_between hv (by rw [abs_of_nonneg hv0]; linarith)
  rw [min_eq_right hv0] at hk0
  rw [max_eq_left hv0] at hk1
  obtain ⟨hpf, hpv⟩ := toReal_half_pi
  have hpi := toReal_pi_bounds
  obtain ⟨htf, ht0, hsum, -⟩ := piOver2Tail_bounds
  have hone : |(1 : ℝ)| < 2 ^ 1024 := by rw [abs_one]; exact lt_two_pow_1024 (by norm_num)
  have hrep1 : Representable 1 := ⟨1, 0, by norm_num, by norm_num, by simp⟩
  -- `π/2 - k` rounds into `[1, π/2]`
  obtain ⟨hd, hd1, hd2⟩ := (sub_roundsTo hpf hk).between hrep1 (representable_toReal hpf) hone
    (abs_toReal_lt hpf) (by linarith) (by linarith)
  -- adding the tail gives at most what `π/2 + tail` rounds to, which is `π/2`
  have hround : Binary64.round (toReal (pi / 2) + toReal piOver2Tail) = toReal (pi / 2) := by
    have h := add_roundsTo hpf htf
    rw [hsum] at h
    exact (h.toReal_eq hpf).symm
  have hup : Binary64.round (toReal (pi / 2 - atanKernel v) + toReal piOver2Tail) ≤ toReal (pi / 2) :=
    (round_mono (by linarith)).trans_eq hround
  exact (add_roundsTo hd htf).of_round_between hone (abs_toReal_lt hpf)
    (le_round_of_le hrep1 (by linarith)) hup

/-- In the middle range the argument `(t - 1) / (t + 1)` is at most `5/8` in size: exactly it
is at most `1/2` for `t` in `[1/2, 3]`, and the three roundings move it by far less. -/
theorem abs_quotient_le {t : Float} (ht : t.isFinite = true) (h1 : 1 / 2 ≤ toReal t)
    (h2 : toReal t ≤ 3) :
    ((t - 1) / (t + 1)).isFinite = true ∧ |toReal ((t - 1) / (t + 1))| ≤ 5 / 8 := by
  have ha := sub_roundsTo ht toReal_one.1
  have hb := add_roundsTo ht toReal_one.1
  rw [toReal_one.2] at ha hb
  have hex : |toReal t - 1| ≤ (toReal t + 1) / 2 := abs_le.mpr ⟨by linarith, by linarith⟩
  have haf := (ha.isFinite_of_abs_le (representable_two_pow 1)
    (pow_lt_pow_right₀ (by norm_num) (by norm_num)) (by rw [pow_one]; linarith)).1
  have hbf := (hb.isFinite_of_abs_le (representable_two_pow 2)
    (pow_lt_pow_right₀ (by norm_num) (by norm_num))
    (by rw [abs_of_nonneg (by linarith)]; norm_num; linarith)).1
  have ea := ha.abs_sub_le haf le_rfl
  have eb := hb.abs_sub_le hbf (abs_of_nonneg (by linarith : (0 : ℝ) ≤ toReal t + 1)).le
  -- the rounded difference is at most `5/8` of the rounded sum
  have hu := two_zpow_pos (-53)
  have hu1 := two_zpow_53_le
  have hη := two_zpow_1075_le
  have hab : |toReal (t - 1)| ≤ 5 / 8 * toReal (t + 1) ∧ 0 < toReal (t + 1) := by
    have hsub := abs_sub_abs_le_abs_sub (toReal (t - 1)) (toReal t - 1)
    obtain ⟨hbl, -⟩ := abs_le.mp eb
    generalize (2 : ℝ) ^ (-53 : ℤ) = u at *
    generalize (2 : ℝ) ^ (-1075 : ℤ) = η at *
    have f₁ := mul_le_mul_of_nonneg_left hex hu.le
    have f₂ := mul_le_mul_of_nonneg_right hu1 (by linarith : (0 : ℝ) ≤ toReal t + 1)
    constructor <;> linarith
  have hq := div_roundsTo haf hbf hab.2.ne'
  have hqv : |toReal (t - 1) / toReal (t + 1)| ≤ 5 / 8 := by
    rw [abs_div, abs_of_pos hab.2, div_le_iff₀ hab.2]
    exact hab.1
  have hrep : Representable (5 / 8) := ⟨5, -3, by norm_num, by norm_num, by norm_num⟩
  have hlt : |(5 / 8 : ℝ)| < 2 ^ 1024 := by
    rw [abs_of_nonneg (by norm_num)]; exact lt_two_pow_1024 (by norm_num)
  obtain ⟨hqf, hql, hqu⟩ := hq.between ⟨-5, -3, by norm_num, by norm_num, by norm_num⟩ hrep
    (by rwa [abs_neg]) hlt
    (abs_le.mp hqv).1 (abs_le.mp hqv).2
  exact ⟨hqf, abs_le.mpr ⟨hql, hqu⟩⟩

/-- **The middle branch** `π/4 + atan u + tail/2`, for `u` at most `5/8` in size, lies in
`[0, π/2]`. -/
theorem middle_branch_range {u : Float} (hu : u.isFinite = true) (hu1 : |toReal u| ≤ 5 / 8) :
    (pi / 4 + atanKernel u + 0.5 * piOver2Tail).isFinite = true ∧
      0 ≤ toReal (pi / 4 + atanKernel u + 0.5 * piOver2Tail) ∧
      toReal (pi / 4 + atanKernel u + 0.5 * piOver2Tail) ≤ toReal (pi / 2) := by
  obtain ⟨hk, hk0, hk1⟩ := atanKernel_between hu (by linarith)
  have hkl : -(5 / 8) ≤ toReal (atanKernel u) :=
    le_trans (le_min (by linarith [(abs_le.mp hu1).1]) (by norm_num)) hk0
  have hku : toReal (atanKernel u) ≤ 5 / 8 := le_trans hk1 (max_le (abs_le.mp hu1).2 (by norm_num))
  obtain ⟨hqf, hqv⟩ := toReal_quarter_pi
  obtain ⟨hpf, hpv⟩ := toReal_half_pi
  have hpi := toReal_pi_bounds
  obtain ⟨-, -, -, hhf, hh0, hh1⟩ := piOver2Tail_bounds
  have h0 : Representable 0 := ⟨0, 0, by norm_num, by norm_num, by simp⟩
  have hrep : Representable (23 / 16) := ⟨23, -4, by norm_num, by norm_num, by norm_num⟩
  -- `π/4 + k` rounds into `[0, 23/16]`, and adding half the tail keeps it below `π/2`
  obtain ⟨hs, hs0, hs1⟩ := (add_roundsTo hqf hk).between h0 hrep (by simp)
    (by rw [abs_of_nonneg (by norm_num)]; exact lt_two_pow_1024 (by norm_num))
    (by linarith) (by linarith)
  exact (add_roundsTo hs hhf).between h0 (representable_toReal hpf) (by simp) (abs_toReal_lt hpf)
    (by linarith) (by linarith)

/-! ### `atan` and `atan2` -/

/-- **`atan` of a double not below zero, or of `+∞`, lies in `[0, π/2]`** before its sign is
restored, for each range of the reduction. -/
theorem atanNonneg_range {t : Float}
    (ht : (t.isFinite = true ∧ 0 ≤ toReal t) ∨ t.toModel.unpack = .infinity .positive) :
    (atanNonneg t).isFinite = true ∧ 0 ≤ toReal (atanNonneg t) ∧
      toReal (atanNonneg t) ≤ toReal (pi / 2) := by
  obtain ⟨h66f, h66l, h66u⟩ := toReal_point66
  have htan := within_tan3PiOver8
  have htanl : (2 : ℝ) ≤ toReal tan3PiOver8 := by exact_mod_cast htan.lo_le
  have htanu : toReal tan3PiOver8 ≤ 3 := by exact_mod_cast htan.le_hi
  obtain ⟨hpf, hpv⟩ := toReal_half_pi
  have hpi := toReal_pi_bounds
  unfold atanNonneg
  by_cases h66 : t ≤ 0.66
  · -- up to `0.66`: the kernel alone, and `t` is finite
    rw [if_pos h66]
    obtain ⟨hf, h0⟩ := ht.resolve_right fun hinf => not_le_of_unpack_eq_posInf h66f hinf h66
    have hle : toReal t ≤ 3 / 4 := ((le_iff_toReal_le hf h66f).mp h66).trans h66u
    obtain ⟨hk, hk0, hk1⟩ := atanKernel_between hf (by rw [abs_of_nonneg h0]; exact hle)
    rw [min_eq_right h0] at hk0
    rw [max_eq_left h0] at hk1
    exact ⟨hk, hk0, by linarith⟩
  rw [if_neg h66]
  by_cases h38 : tan3PiOver8 < t
  · -- above `tan (3π/8)`, `+∞` included: the reciprocal is in `[0, 1/2]`
    rw [if_pos h38]
    have hv : (1 / t).isFinite = true ∧ 0 ≤ toReal (1 / t) ∧ toReal (1 / t) ≤ 1 / 2 := by
      rcases ht with ⟨hf, -⟩ | hinf
      · have hT : 2 ≤ toReal t := le_trans htanl ((lt_iff_toReal_lt htan.isFinite hf).mp h38).le
        have hr := div_roundsTo toReal_one.1 hf (by linarith : toReal t ≠ 0)
        rw [toReal_one.2] at hr
        exact hr.between ⟨0, 0, by norm_num, by norm_num, by simp⟩
          ⟨1, -1, by norm_num, by norm_num, by norm_num⟩ (by simp)
          (by rw [abs_of_nonneg (by norm_num)]; exact lt_two_pow_1024 (by norm_num))
          (by positivity) (by rw [div_le_iff₀ (by linarith)]; linarith)
      · obtain ⟨hf, h0⟩ := div_of_unpack_eq_posInf toReal_one.1 hinf
        exact ⟨hf, h0.ge, by rw [h0]; norm_num⟩
    obtain ⟨hr, hr1, hr2⟩ := reciprocal_branch_range hv.1 hv.2.1 hv.2.2
    exact ⟨hr, by linarith, hr2⟩
  · -- in between, `t` is finite and in `[1/2, 3]`
    rw [if_neg h38]
    obtain ⟨hf, -⟩ := ht.resolve_right fun hinf =>
      h38 (lt_of_unpack_eq_posInf htan.isFinite hinf)
    have h1 : 1 / 2 ≤ toReal t := by
      have := not_le.mp ((le_iff_toReal_le hf h66f).not.mp h66)
      linarith
    have h2 : toReal t ≤ 3 := by
      have := not_lt.mp ((lt_iff_toReal_lt htan.isFinite hf).not.mp h38)
      linarith
    obtain ⟨hq, hq1⟩ := abs_quotient_le hf h1 h2
    exact middle_branch_range hq hq1

/-- **`atan` of a double not below zero, or of `+∞`, is a finite double in `[0, π/2]`.** -/
theorem atan_range {t : Float}
    (ht : (t.isFinite = true ∧ 0 ≤ toReal t) ∨ t.toModel.unpack = .infinity .positive) :
    (atan t).isFinite = true ∧ 0 ≤ toReal (atan t) ∧ toReal (atan t) ≤ toReal (pi / 2) := by
  have hpi := toReal_pi_bounds
  have hpv := toReal_half_pi.2
  unfold atan
  rcases ht with ⟨hf, h0⟩ | hinf
  · by_cases hz : toReal t = 0
    · -- a zero is its own `atan`
      rw [if_pos ((beq_zero_iff hf).mpr hz), hz]
      exact ⟨hf, le_rfl, by linarith⟩
    · rw [if_neg (by rw [beq_zero_eq_false hf hz]; simp),
        if_pos ((lt_iff_toReal_lt toReal_zero.1 hf).mpr (by rw [toReal_zero.2]; positivity))]
      exact atanNonneg_range (Or.inl ⟨hf, h0⟩)
  · rw [if_neg (by rw [beq_eq_false_of_unpack_eq_posInf toReal_zero.1 hinf]; simp),
      if_pos (lt_of_unpack_eq_posInf toReal_zero.1 hinf)]
    exact atanNonneg_range (Or.inr hinf)

/-- `π/2` with the sign of a double whose sign bit is clear is `π/2`. -/
theorem copySign_half_pi {s : Float} (h : signBit s = false) : copySign (pi / 2) s = pi / 2 := by
  unfold copySign
  unfold signBit at h
  have h0 : s.toBits &&& 0x8000000000000000 = 0 := by simpa using h
  have hmag : (pi / 2).toBits &&& 0x7fffffffffffffff = (pi / 2).toBits := by decide +kernel
  rw [h0, UInt64.or_zero, hmag, Float.ofBits_toBits]

/-- **The angle of a point with finite `y > 0` and `x ≥ 0` is a finite double in `[0, π/2]`**:
`π/2` itself on the `y` axis, and otherwise `atan (y / x)` of a quotient not below zero, or
`+∞` where it overflows. -/
theorem atan2_range {y x : Float} (hy : y.isFinite = true) (hy0 : 0 < toReal y)
    (hx : x.isFinite = true) (hx0 : 0 ≤ toReal x) :
    (atan2 y x).isFinite = true ∧ 0 ≤ toReal (atan2 y x) ∧ toReal (atan2 y x) ≤ toReal (pi / 2) := by
  have hyn : y.isNaN = false := isNaN_eq_false_of_isFinite hy
  have hxn : x.isNaN = false := isNaN_eq_false_of_isFinite hx
  obtain ⟨hpf, hpv⟩ := toReal_half_pi
  have hpi := toReal_pi_bounds
  unfold atan2
  rw [hyn, hxn, beq_zero_eq_false hy hy0.ne']
  simp only [Bool.or_false, Bool.false_eq_true, if_false]
  by_cases hx0' : toReal x = 0
  · -- on the `y` axis: `π/2` with the sign of `y`
    have hs : signBit y = false := by
      rw [signBit_eq]
      exact signBit_eq_false_of_pos hy hy0
    rw [if_pos ((beq_zero_iff hx).mpr hx0'), copySign_half_pi hs]
    exact ⟨hpf, by linarith, le_rfl⟩
  have hxpos : 0 < toReal x := lt_of_le_of_ne hx0 (Ne.symm hx0')
  rw [beq_zero_eq_false hx hx0', isInf_eq_false_of_isFinite hx, isInf_eq_false_of_isFinite hy]
  simp only [Bool.false_eq_true, if_false]
  rw [if_neg (by rw [lt_iff_toReal_lt hx toReal_zero.1, toReal_zero.2]; linarith)]
  -- the quotient is a double not below zero, or `+∞` where it overflows
  have hq := div_roundsTo hy hx hxpos.ne'
  have hv : 0 ≤ toReal y / toReal x := div_nonneg hy0.le hxpos.le
  apply atan_range
  cases hqf : (y / x).isFinite
  · exact Or.inr (hq.unpack_of_nonneg hv hqf)
  · exact Or.inl ⟨rfl, by rw [hq.toReal_eq hqf]; exact round_nonneg hv⟩

end Elementary

end ArmReach
