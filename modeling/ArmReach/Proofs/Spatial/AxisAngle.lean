import ArmReach.Proofs.Spatial.Normalize
import ArmReach.Proofs.Elementary.Arc
/-!
# The axis-angle form of a quaternion

`Quaternion.toAxisAngle` normalizes a quaternion, negates it if its real part is below zero,
and reads the rotation off it: the computed length `s` of the vector part is the sine of half
the angle, the angle is `2 · atan2 s re`, and the axis is the vector part divided by `s`. When
`s` is below `1e-12` it returns the default rotation, the angle `0` about the `z` axis.

* `isRotation_toAxisAngle`: when the normalized quaternion has finite components and norm `1`
  up to rounding (`NearUnit`), the axis-angle form is a rotation (`IsRotation`): a finite
  angle in `[0, π]` about an axis of finite components whose squared length is within `2⁻⁴⁴`
  of `1`. The angle comes from the range of `atan2` in the closed first quadrant; the axis is
  a vector of normal squared length divided by its computed length.
* `normalize_of_isFinite`: every quaternion of finite components that is zero, or whose norm
  and its reciprocal are finite doubles, normalizes to such a quaternion, converts to such a
  rotation, and is stored so by `Pose.make`.

The conditions are needed: a quaternion whose norm is below `2⁻¹⁰²⁴` has an infinite
reciprocal and normalizes to infinite and NaN components, and one whose norm overflows has the
reciprocal `0` and normalizes to zero (`normalize_breaks_at_extreme_norms`).
-/

namespace ArmReach

open Binary64

namespace Quaternion

/-- A quaternion of norm `1` up to rounding: its components are finite doubles, and the sum of
their squares is within `2⁻⁴⁴` of `1`. -/
structure NearUnit (q : Quaternion) : Prop where
  /-- Every component is a finite double. -/
  isFinite : ∀ c ∈ q.toList, c.isFinite = true
  /-- The squared norm is within `2⁻⁴⁴` of `1`. -/
  normSq_near : |q.normSq - 1| ≤ 2 ^ (-44 : ℤ)

end Quaternion

namespace AxisAngle

/-- A rotation in axis-angle form, as the conversion from quaternions promises it: a finite
angle in `[0, π]`, with `π` the double, about an axis of finite components whose squared
length is within `2⁻⁴⁴` of `1`. -/
structure IsRotation (a : AxisAngle) : Prop where
  /-- The angle is a finite double. -/
  theta_isFinite : a.theta.isFinite = true
  theta_nonneg : 0 ≤ toReal a.theta
  theta_le_pi : toReal a.theta ≤ toReal Elementary.pi
  /-- The axis has finite components. -/
  axis_isFinite : ∀ c ∈ [a.rx, a.ry, a.rz], c.isFinite = true
  /-- The axis has length `1` up to rounding. -/
  axis_near : |toReal a.rx ^ 2 + toReal a.ry ^ 2 + toReal a.rz ^ 2 - 1| ≤ 2 ^ (-44 : ℤ)

/-- The default rotation, the angle `0` about the `z` axis, is a rotation. -/
theorem isRotation_default : default.IsRotation where
  theta_isFinite := toReal_zero.1
  theta_nonneg := toReal_zero.2.ge
  theta_le_pi := by rw [show default.theta = 0 from rfl, toReal_zero.2]; linarith [toReal_pi_bounds.1]
  axis_isFinite := by decide
  axis_near := by
    rw [show default.rx = 0 from rfl, show default.ry = 0 from rfl, show default.rz = 1 from rfl,
      toReal_zero.2, toReal_one.2]
    norm_num

end AxisAngle

namespace Quaternion

/-! ### Quaternions of norm one up to rounding -/

/-- The identity quaternion has norm exactly `1`. -/
theorem nearUnit_one : one.NearUnit where
  isFinite := by decide
  normSq_near := by
    rw [show one = ⟨1, 0, 0, 0⟩ from rfl]
    simp [normSq, toReal_zero.2, toReal_one.2]

/-- The components of a quaternion of norm `1` up to rounding are at most `2` in size. -/
theorem NearUnit.abs_le_two {q : Quaternion} (h : q.NearUnit) {c : Float} (hc : c ∈ q.toList) :
    |toReal c| ≤ 2 := by
  have hsq : toReal c ^ 2 ≤ q.normSq := by
    rw [normSq_eq_sum]
    refine List.single_le_sum (fun x hx => ?_) _ (List.mem_map_of_mem hc)
    obtain ⟨d, -, rfl⟩ := List.mem_map.mp hx
    positivity
  have h44 : (2 : ℝ) ^ (-44 : ℤ) ≤ 1 := zpow_le_one_of_nonpos₀ (by norm_num) (by norm_num)
  have hN := (abs_le.mp h.normSq_near).2
  exact abs_le.mpr ⟨by nlinarith, by nlinarith⟩

/-- **A zero quaternion, or one whose norm and its reciprocal are finite doubles, normalizes
to norm `1` up to rounding.** -/
theorem normalize_nearUnit {q : Quaternion} (hq : ∀ c ∈ q.toList, c.isFinite = true)
    (h : (∀ c ∈ q.toList, toReal c = 0) ∨ q.abs.isFinite = true ∧ (1 / q.abs).isFinite = true) :
    q.normalize.NearUnit := by
  rcases h with hz | ⟨hn, hf⟩
  · rw [normalize_eq_one_of_zero hq hz]
    exact nearUnit_one
  obtain ⟨-, -, hcomp, hnear⟩ := normalize_of_abs_isFinite hq hn hf
  refine ⟨?_, hnear⟩
  simp only [toList, List.forall₂_cons] at hcomp
  simp only [toList, List.mem_cons, List.not_mem_nil, or_false]
  rintro c (rfl | rfl | rfl | rfl)
  exacts [hcomp.1.1, hcomp.2.1.1, hcomp.2.2.1.1, hcomp.2.2.2.1.1]

/-- Multiplying by `-1` negates a finite double exactly. -/
theorem neg_one_mul_exact {c : Float} (hc : c.isFinite = true) :
    (-1 * c).isFinite = true ∧ toReal (-1 * c) = -toReal c := by
  have hm := mul_roundsTo (by rw [isFinite_neg]; exact toReal_one.1) hc
  rw [toReal_neg, toReal_one.2, neg_one_mul] at hm
  have hrep : Representable (-toReal c) := by
    rw [← toReal_neg]
    exact representable_toReal (by rwa [isFinite_neg])
  exact hm.of_representable hrep (by rw [abs_neg]; exact abs_toReal_lt hc)

/-- **The sign flip before reading the rotation**: negating a quaternion of norm `1` up to
rounding when its real part is below zero keeps it so, with a real part not below zero. -/
theorem nearUnit_flip {q : Quaternion} (h : q.NearUnit) :
    (if q.re < 0 then q.scale (-1) else q).NearUnit ∧
      0 ≤ toReal (if q.re < 0 then q.scale (-1) else q).re := by
  have hc := h.isFinite
  simp only [toList, List.mem_cons, List.not_mem_nil, or_false, forall_eq_or_imp,
    forall_eq] at hc
  obtain ⟨hre, hi, hj, hk⟩ := hc
  split_ifs with hneg
  · obtain ⟨hre', vre⟩ := neg_one_mul_exact hre
    obtain ⟨hi', vi⟩ := neg_one_mul_exact hi
    obtain ⟨hj', vj⟩ := neg_one_mul_exact hj
    obtain ⟨hk', vk⟩ := neg_one_mul_exact hk
    have hlt := (lt_iff_toReal_lt hre toReal_zero.1).mp hneg
    rw [toReal_zero.2] at hlt
    refine ⟨⟨?_, ?_⟩, ?_⟩
    · simp [toList, scale, hre', hi', hj', hk']
    · have hsq : (q.scale (-1)).normSq = q.normSq := by
        simp only [normSq, scale, vre, vi, vj, vk, neg_sq]
      rw [hsq]
      exact h.normSq_near
    · show 0 ≤ toReal (-1 * q.re)
      rw [vre]
      linarith
  · exact ⟨h, by
      have := not_lt.mp ((lt_iff_toReal_lt hre toReal_zero.1).not.mp hneg)
      rwa [toReal_zero.2] at this⟩

end Quaternion

namespace Vec3

/-- A vector whose components are finite doubles at most `2` in size has a finite squared
length. -/
theorem norm2_isFinite_of_abs_le {a : Vec3} (h : ∀ c ∈ a.toList, c.isFinite = true)
    (hb : ∀ c ∈ a.toList, |toReal c| ≤ 2) : a.norm2.isFinite = true := by
  simp only [toList, List.mem_cons, List.not_mem_nil, or_false, forall_eq_or_imp,
    forall_eq] at h hb
  have sq : ∀ c : Float, c.isFinite = true → |toReal c| ≤ 2 →
      (c * c).isFinite = true ∧ |toReal (c * c)| ≤ 2 ^ 2 := fun c hc hcb => by
    obtain ⟨hf, -, hle⟩ := mul_isFinite_of_abs_le hc hc (by norm_num : 2 ≤ 1023)
      (by rw [abs_mul]; nlinarith [abs_nonneg (toReal c)])
    exact ⟨hf, hle⟩
  obtain ⟨hx, bx⟩ := sq _ h.1 hb.1
  obtain ⟨hy, by'⟩ := sq _ h.2.1 hb.2.1
  obtain ⟨hz, bz⟩ := sq _ h.2.2 hb.2.2
  obtain ⟨hxy, bxy⟩ := (add_roundsTo hx hy).isFinite_of_abs_le (representable_two_pow 3)
    (pow_lt_pow_right₀ (by norm_num) (by norm_num))
    ((abs_add_le _ _).trans (by norm_num at bx by' ⊢; linarith))
  exact ((add_roundsTo hxy hz).isFinite_of_abs_le (representable_two_pow 4)
    (pow_lt_pow_right₀ (by norm_num) (by norm_num))
    ((abs_add_le _ _).trans (by norm_num at bxy bz ⊢; linarith))).1

end Vec3

namespace Quaternion

/-! ### The rotation read off a quaternion -/

/-- The threshold `1e-12` below which the conversion gives the default rotation is at least
`2⁻⁴⁰`. -/
theorem toReal_sinHalf_threshold :
    (1e-12 : Float).isFinite = true ∧ 2 ^ (-40 : ℤ) ≤ toReal 1e-12 := by
  have hu : (1e-12 : Float).toModel.unpack =
      .finite .positive 4951760157141521 (-92) (by decide) := rfl
  obtain ⟨hf, hv⟩ := toReal_of_unpack hu
  refine ⟨hf, ?_⟩
  rw [hv, signValue_positive, one_mul, show (-40 : ℤ) = 52 + -92 by norm_num,
    zpow_add₀ two_ne_zero]
  gcongr
  norm_num

/-- **The rotation read off a quaternion of norm `1` up to rounding**, with a real part not
below zero, whose vector part has a computed length `s` of at least `1e-12`: the angle
`2 · atan2 s re` is a finite double in `[0, π]`, and the axis, the vector part over `s`, has
length `1` up to rounding. The computed length is at least `2⁻⁴⁰`, so the squared length it
is the root of is a normal double. -/
theorem isRotation_of_nearUnit {p : Quaternion} (h : p.NearUnit) (hre : 0 ≤ toReal p.re)
    (hs : ¬ (⟨p.i, p.j, p.k⟩ : Vec3).norm2.sqrt < 1e-12) :
    (⟨2 * Elementary.atan2 (⟨p.i, p.j, p.k⟩ : Vec3).norm2.sqrt p.re,
      p.i / (⟨p.i, p.j, p.k⟩ : Vec3).norm2.sqrt, p.j / (⟨p.i, p.j, p.k⟩ : Vec3).norm2.sqrt,
      p.k / (⟨p.i, p.j, p.k⟩ : Vec3).norm2.sqrt⟩ : AxisAngle).IsRotation := by
  set v : Vec3 := ⟨p.i, p.j, p.k⟩ with hv
  have hmem : ∀ c ∈ v.toList, c ∈ p.toList := by simp [v, Vec3.toList, toList]
  have hfin : ∀ c ∈ v.toList, c.isFinite = true := fun c hc => h.isFinite c (hmem c hc)
  have hn := Vec3.norm2_isFinite_of_abs_le hfin fun c hc => h.abs_le_two (hmem c hc)
  obtain ⟨-, hn0, -⟩ := Vec3.norm2_near hn
  -- the computed length is a finite double, at least `2⁻⁴⁰`
  have hr := sqrt_roundsTo hn hn0
  have hsf : v.norm2.sqrt.isFinite = true := by
    refine (hr.isFinite_of_abs_le (representable_two_pow 1023)
      (pow_lt_pow_right₀ (by norm_num) (by norm_num)) ?_).1
    rw [abs_of_nonneg (Real.sqrt_nonneg _), Real.sqrt_le_left (by positivity)]
    calc toReal v.norm2 ≤ 2 ^ 1024 := ((le_abs_self _).trans (abs_toReal_lt hn).le)
      _ ≤ (2 ^ 1023) ^ 2 := by rw [← pow_mul]; exact pow_le_pow_right₀ (by norm_num) (by norm_num)
  obtain ⟨htf, htv⟩ := toReal_sinHalf_threshold
  have hs40 : 2 ^ (-40 : ℤ) ≤ toReal v.norm2.sqrt :=
    htv.trans (not_lt.mp ((lt_iff_toReal_lt hsf htf).not.mp hs))
  -- so the squared length is a normal double: below `2⁻¹⁰²²` the root rounds to `2⁻⁵¹¹`
  have hnormal : 2 ^ (-1022 : ℤ) ≤ toReal v.norm2 := by
    by_contra hlt
    have hsmall : Real.sqrt (toReal v.norm2) ≤ 2 ^ (-511 : ℤ) := by
      rw [Real.sqrt_le_left (two_zpow_pos _).le, ← zpow_natCast, ← zpow_mul]
      exact (not_le.mp hlt).le
    have hround := round_le_of_le (representable_two_zpow (by norm_num)) hsmall
    rw [← hr.toReal_eq hsf] at hround
    have : (2 : ℝ) ^ (-511 : ℤ) < 2 ^ (-40 : ℤ) := zpow_lt_zpow_right₀ (by norm_num) (by norm_num)
    linarith
  obtain ⟨haxis, hnear⟩ := Vec3.div_sqrt_norm2_near hn hnormal
  -- the angle: `atan2` in the closed first quadrant is in `[0, π/2]`, and doubling it is exact
  -- up to one rounding inside `[0, π]`
  have hpf := h.isFinite p.re (by simp [toList])
  obtain ⟨haf, ha0, ha1⟩ := Elementary.atan2_range hsf (lt_of_lt_of_le (two_zpow_pos _) hs40)
    hpf hre
  have h2 : (2 : Float).isFinite = true ∧ toReal (2 : Float) = 2 := by
    obtain ⟨hf, hv⟩ := toReal_ofNat (show 2 < 2 ^ 53 by norm_num)
    exact ⟨hf, by rw [show (2 : Float) = Float.ofNat 2 from rfl, hv]; norm_num⟩
  obtain ⟨hpif, -⟩ := toReal_pi
  have hhalf := toReal_half_pi.2
  have h0 : Representable 0 := ⟨0, 0, by norm_num, by norm_num, by simp⟩
  obtain ⟨hθ, hθ0, hθ1⟩ := (mul_roundsTo h2.1 haf).between h0 (representable_toReal hpif) (by simp)
    (abs_toReal_lt hpif) (by rw [h2.2]; positivity) (by rw [h2.2]; linarith)
  simp only [v, Vec3.toList, List.mem_cons, List.not_mem_nil, or_false, forall_eq_or_imp,
    forall_eq, List.map_cons, List.map_nil, List.sum_cons, List.sum_nil, add_zero] at haxis hnear
  exact ⟨hθ, hθ0, hθ1, by simpa using haxis, by rwa [← add_assoc] at hnear⟩

/-- **The axis-angle form of a quaternion that normalizes to norm `1` up to rounding is a
rotation**: the default one, or a finite angle in `[0, π]` about an axis of length `1` up to
rounding. -/
theorem isRotation_toAxisAngle {q : Quaternion} (h : q.normalize.NearUnit) :
    q.toAxisAngle.IsRotation := by
  obtain ⟨hp, hre⟩ := nearUnit_flip h
  unfold toAxisAngle
  dsimp only
  generalize (if q.normalize.re < 0 then q.normalize.scale (-1) else q.normalize) = p at hp hre ⊢
  split_ifs with hs
  · exact AxisAngle.isRotation_default
  · exact isRotation_of_nearUnit hp hre hs

/-! ### Normalizing -/

/-- **Normalizing a quaternion of finite components.** The zero quaternion, signed zeros
included, normalizes to the identity. A quaternion whose norm `n` and reciprocal `1 / n` are
finite doubles is scaled by `1 / n`, a positive double: each component of the result is the
finite double nearest `(1 / n) * c` for its component `c`, and the result has norm `1` up to
rounding, its squared norm within `2⁻⁴⁴` of `1`. For both, the axis-angle form is a finite
angle in `[0, π]` about an axis of length `1` up to rounding, and a pose built from any
orientation with this quaternion stores a rotation of finite components and norm `1` up to
rounding. -/
theorem normalize_of_isFinite {q : Quaternion} (hq : ∀ c ∈ q.toList, c.isFinite = true) :
    ((∀ c ∈ q.toList, toReal c = 0) → q.normalize = one) ∧
      (q.abs.isFinite = true → (1 / q.abs).isFinite = true →
        q.normalize = q.scale (1 / q.abs) ∧ 0 < toReal (1 / q.abs) ∧
          List.Forall₂ (fun c c' => c'.isFinite = true ∧
            toReal c' = Binary64.round (toReal (1 / q.abs) * toReal c))
            q.toList q.normalize.toList ∧
          |q.normalize.normSq - 1| ≤ 2 ^ (-44 : ℤ)) ∧
      ((∀ c ∈ q.toList, toReal c = 0) ∨ q.abs.isFinite = true ∧ (1 / q.abs).isFinite = true →
        q.toAxisAngle.IsRotation ∧
          ∀ (p : Vec3) (o : Orientation), o.toQuaternion = q →
            (Pose.make p (some o)).rotation.NearUnit) := by
  refine ⟨normalize_eq_one_of_zero hq, fun hn hf => normalize_of_abs_isFinite hq hn hf,
    fun h => ?_⟩
  have hu := normalize_nearUnit hq h
  refine ⟨isRotation_toAxisAngle hu, fun p o ho => ?_⟩
  subst ho
  exact hu

/-- The quaternion `(3, 4, 0, 0)` has the norm `5` and the reciprocal `0.2`, both finite: it
normalizes by them and converts to a rotation. -/
theorem normalize_of_isFinite_of_three_four :
    (∀ c ∈ (⟨3, 4, 0, 0⟩ : Quaternion).toList, c.isFinite = true) ∧
      (⟨3, 4, 0, 0⟩ : Quaternion).abs.isFinite = true ∧
      (1 / (⟨3, 4, 0, 0⟩ : Quaternion).abs).isFinite = true ∧
      ((⟨3, 4, 0, 0⟩ : Quaternion).normalize =
          (⟨3, 4, 0, 0⟩ : Quaternion).scale (1 / (⟨3, 4, 0, 0⟩ : Quaternion).abs) ∧
        0 < toReal (1 / (⟨3, 4, 0, 0⟩ : Quaternion).abs) ∧
        List.Forall₂ (fun c c' => c'.isFinite = true ∧
          toReal c' = Binary64.round (toReal (1 / (⟨3, 4, 0, 0⟩ : Quaternion).abs) * toReal c))
          (⟨3, 4, 0, 0⟩ : Quaternion).toList (⟨3, 4, 0, 0⟩ : Quaternion).normalize.toList ∧
        |(⟨3, 4, 0, 0⟩ : Quaternion).normalize.normSq - 1| ≤ 2 ^ (-44 : ℤ)) ∧
      ((⟨3, 4, 0, 0⟩ : Quaternion).toAxisAngle.IsRotation ∧
        ∀ (p : Vec3) (o : Orientation), o.toQuaternion = ⟨3, 4, 0, 0⟩ →
          (Pose.make p (some o)).rotation.NearUnit) :=
  have hq : ∀ c ∈ (⟨3, 4, 0, 0⟩ : Quaternion).toList, c.isFinite = true := by decide +kernel
  have hn : (⟨3, 4, 0, 0⟩ : Quaternion).abs.isFinite = true := by decide +kernel
  have hf : (1 / (⟨3, 4, 0, 0⟩ : Quaternion).abs).isFinite = true := by decide +kernel
  ⟨hq, hn, hf, (normalize_of_isFinite hq).2.1 hn hf, (normalize_of_isFinite hq).2.2 (.inr ⟨hn, hf⟩)⟩

/-- At the two ends of the range normalizing breaks down: the norm `5e-324` of the quaternion
`(5e-324, 0, 0, 0)` has the reciprocal `+∞`, so its axis-angle form is all NaN; the norm of
`(1.5e308, 1.5e308, 0, 0)` overflows, so the pose built from it stores the zero quaternion. -/
theorem normalize_breaks_at_extreme_norms :
    (Quaternion.toAxisAngle ⟨5e-324, 0, 0, 0⟩).toList.map Float.isNaN = [true, true, true, true] ∧
      (Pose.make ⟨0, 0, 0⟩ (some (.quaternion ⟨1.5e308, 1.5e308, 0, 0⟩))).rotation.toList.map
        Float.toBits = [0, 0, 0, 0] :=
  ⟨by decide +kernel, by decide +kernel⟩

end Quaternion

end ArmReach
