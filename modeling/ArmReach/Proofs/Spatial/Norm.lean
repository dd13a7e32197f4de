import ArmReach.Proofs.Numeric.Order
import ArmReach.Spatial.Quaternion
/-!
# The norm of a quaternion

`Quaternion.abs` takes the largest magnitude `r` of the four components and computes
`r * √(1 + (x₁/r)² + (x₂/r)² + (x₃/r)²)` from the other three (`normOf`), so that no square
overflows. The sorted magnitudes keep the squared norm (`Sorted.sq_sum`), and each step after
the division rounds a value of size at most `8`:

* `normOf_roundsTo`: with `r > 0`, the norm is `r` times a double `t ∈ [1, 3]` within
  `18 · 2⁻⁵³` of the exact root, rounded once more;
* `abs_normOf_sub_le`: so the computed norm is the exact one up to `2⁻⁴⁸` of it, and the
  least subnormal.
-/

namespace ArmReach

namespace Quaternion

open Binary64

/-! ### The sorted magnitudes -/

/-- The largest magnitude of the components, then the other three, in the order `abs` leaves
them. -/
def sortedMagnitudes (q : Quaternion) : Float × Float × Float × Float :=
  let mag (v : Float) : Float := if v < 0 then -v else v
  let p₁ := largerFirst (mag q.re) (mag q.i)
  let p₂ := largerFirst p₁.1 (mag q.j)
  let p₃ := largerFirst p₂.1 (mag q.k)
  (p₃.1, p₁.2, p₂.2, p₃.2)

/-- The norm `abs` computes from the largest magnitude `r` and the other three. -/
def normOf (r x₁ x₂ x₃ : Float) : Float :=
  if r == 0 then 0
  else r * Float.sqrt (1 + x₁ / r * (x₁ / r) + x₂ / r * (x₂ / r) + x₃ / r * (x₃ / r))

theorem hasInf_eq_false {q : Quaternion} (hq : ∀ c ∈ q.toList, c.isFinite = true) :
    q.hasInf = false := by
  simp only [toList, List.mem_cons, List.not_mem_nil, or_false, forall_eq_or_imp,
    forall_eq] at hq
  obtain ⟨hre, hi, hj, hk⟩ := hq
  unfold hasInf
  rw [isInf_eq_false_of_isFinite hre, isInf_eq_false_of_isFinite hi,
    isInf_eq_false_of_isFinite hj, isInf_eq_false_of_isFinite hk]
  rfl

theorem hasNaN_eq_false {q : Quaternion} (hq : ∀ c ∈ q.toList, c.isFinite = true) :
    q.hasNaN = false := by
  simp only [toList, List.mem_cons, List.not_mem_nil, or_false, forall_eq_or_imp,
    forall_eq] at hq
  obtain ⟨hre, hi, hj, hk⟩ := hq
  have hnan : ∀ {c : Float}, c.isFinite = true → c.isNaN = false :=
    fun hc => isNaN_eq_false_of_isFinite hc
  unfold hasNaN
  rw [hnan hre, hnan hi, hnan hj, hnan hk]
  rfl

/-- The norm of a quaternion of finite components is `normOf` of its sorted magnitudes. -/
theorem abs_eq_normOf {q : Quaternion} (hq : ∀ c ∈ q.toList, c.isFinite = true) :
    q.abs = normOf (sortedMagnitudes q).1 (sortedMagnitudes q).2.1 (sortedMagnitudes q).2.2.1
      (sortedMagnitudes q).2.2.2 := by
  unfold Quaternion.abs
  simp only [hasInf_eq_false hq, hasNaN_eq_false hq, Bool.false_eq_true, if_false]
  rfl

/-- The magnitude of a finite double is finite, of value the absolute value. -/
theorem magnitude_spec {v : Float} (hv : v.isFinite = true) :
    (if v < 0 then -v else v).isFinite = true ∧ toReal (if v < 0 then -v else v) = |toReal v| := by
  have h0 := toReal_zero
  split
  · rename_i hneg
    rw [lt_iff_toReal_lt hv h0.1, h0.2] at hneg
    exact ⟨by rw [isFinite_neg]; exact hv, by rw [toReal_neg, abs_of_neg hneg]⟩
  · rename_i hpos
    rw [lt_iff_toReal_lt hv h0.1, h0.2, not_lt] at hpos
    exact ⟨hv, (abs_of_nonneg hpos).symm⟩

/-- `largerFirst` puts the larger of two finite doubles first. -/
theorem largerFirst_spec {a b : Float} (ha : a.isFinite = true) (hb : b.isFinite = true) :
    (largerFirst a b).1.isFinite = true ∧ (largerFirst a b).2.isFinite = true ∧
      toReal (largerFirst a b).1 = max (toReal a) (toReal b) ∧
        toReal (largerFirst a b).2 = min (toReal a) (toReal b) := by
  unfold largerFirst
  split
  · rename_i hlt
    rw [lt_iff_toReal_lt ha hb] at hlt
    exact ⟨hb, ha, (max_eq_right hlt.le).symm, (min_eq_left hlt.le).symm⟩
  · rename_i hle
    rw [lt_iff_toReal_lt ha hb, not_lt] at hle
    exact ⟨ha, hb, (max_eq_left hle).symm, (min_eq_right hle).symm⟩

/-- The squared norm of the values of a quaternion's components, exactly. -/
noncomputable def normSq (q : Quaternion) : ℝ :=
  toReal q.re ^ 2 + toReal q.i ^ 2 + toReal q.j ^ 2 + toReal q.k ^ 2

/-- Sorting two numbers keeps the sum of their squares. -/
theorem max_sq_add_min_sq (a b : ℝ) : max a b ^ 2 + min a b ^ 2 = a ^ 2 + b ^ 2 :=
  calc max a b ^ 2 + min a b ^ 2 = (max a b + min a b) ^ 2 - 2 * (max a b * min a b) := by ring
    _ = (a + b) ^ 2 - 2 * (a * b) := by rw [max_add_min, max_mul_min]
    _ = a ^ 2 + b ^ 2 := by ring

/-- The largest magnitude and the other three of a quaternion of finite components: finite,
the first the largest absolute value of a component, the others between zero and it, and
their squares adding up to the squared norm. -/
structure Sorted (q : Quaternion) (r x₁ x₂ x₃ : Float) : Prop where
  finite_r : r.isFinite = true
  finite_x₁ : x₁.isFinite = true
  finite_x₂ : x₂.isFinite = true
  finite_x₃ : x₃.isFinite = true
  r_eq : toReal r = max (max (max |toReal q.re| |toReal q.i|) |toReal q.j|) |toReal q.k|
  x₁_mem : 0 ≤ toReal x₁ ∧ toReal x₁ ≤ toReal r
  x₂_mem : 0 ≤ toReal x₂ ∧ toReal x₂ ≤ toReal r
  x₃_mem : 0 ≤ toReal x₃ ∧ toReal x₃ ≤ toReal r
  sq_sum : toReal r ^ 2 + toReal x₁ ^ 2 + toReal x₂ ^ 2 + toReal x₃ ^ 2 = q.normSq

theorem sorted_sortedMagnitudes {q : Quaternion} (hq : ∀ c ∈ q.toList, c.isFinite = true) :
    Sorted q (sortedMagnitudes q).1 (sortedMagnitudes q).2.1 (sortedMagnitudes q).2.2.1
      (sortedMagnitudes q).2.2.2 := by
  simp only [toList, List.mem_cons, List.not_mem_nil, or_false, forall_eq_or_imp,
    forall_eq] at hq
  obtain ⟨hre, hi, hj, hk⟩ := hq
  obtain ⟨mre, vre⟩ := magnitude_spec hre
  obtain ⟨mi, vi⟩ := magnitude_spec hi
  obtain ⟨mj, vj⟩ := magnitude_spec hj
  obtain ⟨mk, vk⟩ := magnitude_spec hk
  obtain ⟨f₁, g₁, v₁, w₁⟩ := largerFirst_spec mre mi
  obtain ⟨f₂, g₂, v₂, w₂⟩ := largerFirst_spec f₁ mj
  obtain ⟨f₃, g₃, v₃, w₃⟩ := largerFirst_spec f₂ mk
  simp only [sortedMagnitudes]
  rw [vre, vi] at v₁ w₁
  rw [v₁, vj] at v₂ w₂
  rw [v₂, vk] at v₃ w₃
  -- each of the others is the smaller of a pair whose larger one goes on
  refine ⟨f₃, g₁, g₂, g₃, v₃, ⟨?_, ?_⟩, ⟨?_, ?_⟩, ⟨?_, ?_⟩, ?_⟩
  · rw [w₁]; exact le_min (abs_nonneg _) (abs_nonneg _)
  · rw [w₁, v₃]
    exact le_trans (min_le_max) (le_trans (le_max_left _ _) (le_max_left _ _))
  · rw [w₂]; exact le_min (le_max_of_le_left (abs_nonneg _)) (abs_nonneg _)
  · rw [w₂, v₃]
    exact le_trans (min_le_left _ _) (le_trans (le_max_left _ _) (le_max_left _ _))
  · rw [w₃]
    exact le_min (le_max_of_le_left (le_max_of_le_left (abs_nonneg _))) (abs_nonneg _)
  · rw [w₃, v₃]
    exact min_le_max
  · -- each pair sorted keeps its squares, and the larger one goes on to the next pair
    have e₁ := max_sq_add_min_sq |toReal q.re| |toReal q.i|
    have e₂ := max_sq_add_min_sq (max |toReal q.re| |toReal q.i|) |toReal q.j|
    have e₃ := max_sq_add_min_sq (max (max |toReal q.re| |toReal q.i|) |toReal q.j|) |toReal q.k|
    simp only [sq_abs] at e₁ e₂ e₃
    rw [v₃, w₁, w₂, w₃]
    unfold normSq
    linarith

/-- Every component is at most the largest magnitude in absolute value. -/
theorem Sorted.abs_le {q : Quaternion} {r x₁ x₂ x₃ : Float} (h : Sorted q r x₁ x₂ x₃) :
    ∀ c ∈ q.toList, |toReal c| ≤ toReal r := by
  intro c hc
  simp only [toList, List.mem_cons, List.not_mem_nil, or_false] at hc
  rw [h.r_eq]
  rcases hc with rfl | rfl | rfl | rfl
  · exact le_trans (le_max_left _ _) (le_trans (le_max_left _ _) (le_max_left _ _))
  · exact le_trans (le_max_right _ _) (le_trans (le_max_left _ _) (le_max_left _ _))
  · exact le_trans (le_max_right _ _) (le_max_left _ _)
  · exact le_max_right _ _

/-- A zero largest magnitude gives the norm zero. -/
theorem normOf_of_toReal_eq_zero {r x₁ x₂ x₃ : Float} (hr : r.isFinite = true)
    (h : toReal r = 0) : normOf r x₁ x₂ x₃ = 0 := by
  unfold normOf
  rw [if_pos ((beq_zero_iff hr).mpr h)]

/-- A nonzero norm has a largest magnitude above zero. -/
theorem Sorted.pos_of_normOf_ne_zero {q : Quaternion} {r x₁ x₂ x₃ : Float}
    (hs : Sorted q r x₁ x₂ x₃) (h : toReal (normOf r x₁ x₂ x₃) ≠ 0) : 0 < toReal r := by
  have hnn : 0 ≤ toReal r := by
    rw [hs.r_eq]
    exact le_max_of_le_right (abs_nonneg _)
  refine lt_of_le_of_ne hnn fun h0 => h ?_
  rw [normOf_of_toReal_eq_zero hs.finite_r h0.symm]
  exact toReal_zero.2

/-! ### Rounding errors -/

/-- Between the square roots of two numbers at least `1` the gap is at most half the gap of
the numbers. -/
theorem abs_sqrt_sub_sqrt_le {a b : ℝ} (ha : 1 ≤ a) (hb : 1 ≤ b) :
    |Real.sqrt a - Real.sqrt b| ≤ |a - b| / 2 := by
  have hsa : 1 ≤ Real.sqrt a := Real.one_le_sqrt.mpr ha
  have hsb : 1 ≤ Real.sqrt b := Real.one_le_sqrt.mpr hb
  have hprod : (Real.sqrt a - Real.sqrt b) * (Real.sqrt a + Real.sqrt b) = a - b := by
    have := Real.sq_sqrt (by linarith : (0 : ℝ) ≤ a)
    have := Real.sq_sqrt (by linarith : (0 : ℝ) ≤ b)
    nlinarith
  rw [le_div_iff₀ (by norm_num : (0 : ℝ) < 2), ← hprod, abs_mul,
    abs_of_pos (by linarith : 0 < Real.sqrt a + Real.sqrt b)]
  exact mul_le_mul_of_nonneg_left (by linarith) (abs_nonneg _)

/-- A magnitude over the largest one, squared as doubles: a finite double in `[0, 1]`, within
`2⁻⁵¹` of the exact square. -/
theorem sq_quotient_near {r x : Float} (hr : r.isFinite = true) (hr0 : 0 < toReal r)
    (hx : x.isFinite = true) (hm : 0 ≤ toReal x ∧ toReal x ≤ toReal r) :
    (x / r * (x / r)).isFinite = true ∧ 0 ≤ toReal (x / r * (x / r)) ∧
      toReal (x / r * (x / r)) ≤ 1 ∧
      |toReal (x / r * (x / r)) - (toReal x / toReal r) ^ 2| ≤ 2 ^ (-51 : ℤ) := by
  have r0 : Representable 0 := toReal_zero.2 ▸ representable_toReal toReal_zero.1
  have r1 : Representable 1 := toReal_one.2 ▸ representable_toReal toReal_one.1
  have hq0 : 0 ≤ toReal x / toReal r := div_nonneg hm.1 hr0.le
  have hq1 : toReal x / toReal r ≤ 1 := div_le_one_of_le₀ hm.2 hr0.le
  have hd := div_roundsTo hx hr hr0.ne'
  obtain ⟨hdf, hd0, hd1⟩ :=
    hd.bounds r0 r1 (lt_two_pow_1024 (by norm_num)) (by norm_num) hq0 hq1
  have hm' := mul_roundsTo hdf hdf
  obtain ⟨haf, ha0, ha1⟩ := hm'.bounds r0 r1 (lt_two_pow_1024 (by norm_num)) (by norm_num)
    (mul_nonneg hd0 hd0) (mul_le_one₀ hd1 hd0 hd1)
  refine ⟨haf, ha0, ha1, ?_⟩
  -- the quotient and its square each round at size at most `1`
  have e₁ := hd.abs_sub_le (B := 1) hdf (abs_le.mpr ⟨by linarith, hq1⟩)
  have e₂ := hm'.abs_sub_le (B := 1) haf
    (abs_le.mpr ⟨by nlinarith, mul_le_one₀ hd1 hd0 hd1⟩)
  have hη := two_zpow_1075_le
  have h51 : (2 : ℝ) ^ (-51 : ℤ) = 4 * 2 ^ (-53 : ℤ) := by
    rw [show (-51 : ℤ) = -53 + (2 : ℕ) by norm_num, two_zpow_eq_mul]; norm_num
  -- squaring doubles the error of the quotient, as both lie in `[0, 1]`
  have e₃ : |toReal (x / r) * toReal (x / r) - (toReal x / toReal r) ^ 2| ≤
      2 * (2 ^ (-53 : ℤ) * 1 + 2 ^ (-1075 : ℤ)) := by
    rw [show toReal (x / r) * toReal (x / r) - (toReal x / toReal r) ^ 2 =
        (toReal (x / r) - toReal x / toReal r) * (toReal (x / r) + toReal x / toReal r) by ring,
      abs_mul, abs_of_nonneg (by linarith : 0 ≤ toReal (x / r) + toReal x / toReal r)]
    calc |toReal (x / r) - toReal x / toReal r| * (toReal (x / r) + toReal x / toReal r)
        ≤ (2 ^ (-53 : ℤ) * 1 + 2 ^ (-1075 : ℤ)) * 2 :=
          mul_le_mul e₁ (by linarith) (by linarith) ((abs_nonneg _).trans e₁)
      _ = 2 * (2 ^ (-53 : ℤ) * 1 + 2 ^ (-1075 : ℤ)) := by ring
  calc |toReal (x / r * (x / r)) - (toReal x / toReal r) ^ 2|
      ≤ |toReal (x / r * (x / r)) - toReal (x / r) * toReal (x / r)| +
        |toReal (x / r) * toReal (x / r) - (toReal x / toReal r) ^ 2| := abs_sub_le _ _ _
    _ ≤ 2 ^ (-51 : ℤ) := by linarith

/-- **The norm before its last rounding**: with a largest magnitude `r > 0`, the norm is `r`
times a double `t ∈ [1, 3]`, rounded. `t` is the square root of `1` plus three squares of
quotients in `[0, 1]`, each step rounding a value of size at most `8`, so it lies within
`18 · 2⁻⁵³` of the exact root. -/
theorem normOf_roundsTo {r x₁ x₂ x₃ : Float} (hr : r.isFinite = true) (hr0 : 0 < toReal r)
    (h₁ : x₁.isFinite = true) (h₂ : x₂.isFinite = true) (h₃ : x₃.isFinite = true)
    (m₁ : 0 ≤ toReal x₁ ∧ toReal x₁ ≤ toReal r) (m₂ : 0 ≤ toReal x₂ ∧ toReal x₂ ≤ toReal r)
    (m₃ : 0 ≤ toReal x₃ ∧ toReal x₃ ≤ toReal r) :
    ∃ t : Float, t.isFinite = true ∧ 1 ≤ toReal t ∧ toReal t ≤ 3 ∧
      |toReal t - Real.sqrt (1 + (toReal x₁ / toReal r) ^ 2 + (toReal x₂ / toReal r) ^ 2 +
        (toReal x₃ / toReal r) ^ 2)| ≤ 18 * 2 ^ (-53 : ℤ) ∧
      RoundsTo (toReal r * toReal t) (normOf r x₁ x₂ x₃) := by
  have h1 := toReal_one
  have r1 : Representable 1 := h1.2 ▸ representable_toReal h1.1
  have r2 : Representable 2 := by
    have := representable_two_pow 1
    norm_num at this
    exact this
  have r3 : Representable 3 := by
    have := representable_natCast (n := 3) (by norm_num)
    norm_num at this
    exact this
  have r4 : Representable 4 := by
    have := representable_two_pow 2
    norm_num at this
    exact this
  have r8 : Representable 8 := by
    have := representable_two_pow 3
    norm_num at this
    exact this
  have hne : (r == 0) = false := beq_zero_eq_false hr hr0.ne'
  have hη := two_zpow_1075_le
  have h51 : (2 : ℝ) ^ (-51 : ℤ) = 4 * 2 ^ (-53 : ℤ) := by
    rw [show (-51 : ℤ) = -53 + (2 : ℕ) by norm_num, two_zpow_eq_mul]; norm_num
  -- each magnitude over `r`, squared, lies in `[0, 1]` within `2⁻⁵¹` of the exact square
  obtain ⟨f₁, l₁, u₁, e₁⟩ := sq_quotient_near hr hr0 h₁ m₁
  obtain ⟨f₂, l₂, u₂, e₂⟩ := sq_quotient_near hr hr0 h₂ m₂
  obtain ⟨f₃, l₃, u₃, e₃⟩ := sq_quotient_near hr hr0 h₃ m₃
  set a₁ := x₁ / r * (x₁ / r)
  set a₂ := x₂ / r * (x₂ / r)
  set a₃ := x₃ / r * (x₃ / r)
  -- the sums stay between `1` and `2`, `4`, `8`, each rounding off by `2⁻⁵³` of that bound
  have s₁ := add_roundsTo h1.1 f₁
  rw [h1.2] at s₁
  obtain ⟨g₁, b₁, c₁⟩ := s₁.bounds r1 r2 (lt_two_pow_1024 (by norm_num)) (by norm_num)
    (by linarith) (by linarith)
  have d₁ := s₁.abs_sub_le (B := 2) g₁ (abs_le.mpr ⟨by linarith, by linarith⟩)
  have s₂ := add_roundsTo g₁ f₂
  obtain ⟨g₂, b₂, c₂⟩ := s₂.bounds r1 r4 (lt_two_pow_1024 (by norm_num)) (by norm_num)
    (by linarith) (by linarith)
  have d₂ := s₂.abs_sub_le (B := 4) g₂ (abs_le.mpr ⟨by linarith, by linarith⟩)
  have s₃ := add_roundsTo g₂ f₃
  obtain ⟨g₃, b₃, c₃⟩ := s₃.bounds r1 r8 (lt_two_pow_1024 (by norm_num)) (by norm_num)
    (by linarith) (by linarith)
  have d₃ := s₃.abs_sub_le (B := 8) g₃ (abs_le.mpr ⟨by linarith, by linarith⟩)
  set g := 1 + a₁ + a₂ + a₃
  set S := 1 + (toReal x₁ / toReal r) ^ 2 + (toReal x₂ / toReal r) ^ 2 +
    (toReal x₃ / toReal r) ^ 2 with hS
  have hS1 : 1 ≤ S := by
    have := sq_nonneg (toReal x₁ / toReal r)
    have := sq_nonneg (toReal x₂ / toReal r)
    have := sq_nonneg (toReal x₃ / toReal r)
    linarith
  -- the computed sum is within `27 · 2⁻⁵³` of the exact one
  have hgS : |toReal g - S| ≤ 27 * 2 ^ (-53 : ℤ) := by
    obtain ⟨e₁l, e₁u⟩ := abs_le.mp e₁
    obtain ⟨e₂l, e₂u⟩ := abs_le.mp e₂
    obtain ⟨e₃l, e₃u⟩ := abs_le.mp e₃
    obtain ⟨d₁l, d₁u⟩ := abs_le.mp d₁
    obtain ⟨d₂l, d₂u⟩ := abs_le.mp d₂
    obtain ⟨d₃l, d₃u⟩ := abs_le.mp d₃
    have key : toReal g - S = (toReal g - (toReal (1 + a₁ + a₂) + toReal a₃)) +
        (toReal (1 + a₁ + a₂) - (toReal (1 + a₁) + toReal a₂)) + (toReal (1 + a₁) - (1 + toReal a₁)) +
        (toReal a₁ - (toReal x₁ / toReal r) ^ 2) + (toReal a₂ - (toReal x₂ / toReal r) ^ 2) +
        (toReal a₃ - (toReal x₃ / toReal r) ^ 2) := by rw [hS]; ring
    rw [key]
    rw [h51] at e₁l e₁u e₂l e₂u e₃l e₃u
    -- `linarith` reads the powers of two as numbers: name them first
    generalize (2 : ℝ) ^ (-53 : ℤ) = u at e₁l e₁u e₂l e₂u e₃l e₃u d₁l d₁u d₂l d₂u d₃l d₃u hη ⊢
    generalize (2 : ℝ) ^ (-1075 : ℤ) = η at d₁l d₁u d₂l d₂u d₃l d₃u hη
    exact abs_le.mpr ⟨by linarith, by linarith⟩
  -- its square root lies in `[1, 3]`, and so does the double nearest it
  have hs := sqrt_roundsTo g₃ (by linarith)
  have hq1 : 1 ≤ Real.sqrt (toReal g) := Real.one_le_sqrt.mpr b₃
  have hq3 : Real.sqrt (toReal g) ≤ 3 := (Real.sqrt_le_left (by norm_num)).mpr (by linarith)
  obtain ⟨ht, t₁, t₃⟩ := hs.bounds r1 r3 (lt_two_pow_1024 (by norm_num)) (by norm_num) hq1 hq3
  have dt := hs.abs_sub_le (B := 3) ht (abs_le.mpr ⟨by linarith, hq3⟩)
  have dS := abs_sqrt_sub_sqrt_le b₃ hS1
  refine ⟨_, ht, t₁, t₃, ?_, ?_⟩
  · calc |toReal (Float.sqrt g) - Real.sqrt S|
        ≤ |toReal (Float.sqrt g) - Real.sqrt (toReal g)| + |Real.sqrt (toReal g) - Real.sqrt S| :=
          abs_sub_le _ _ _
      _ ≤ 18 * 2 ^ (-53 : ℤ) := by
        have hu := two_zpow_pos (-53)
        generalize (2 : ℝ) ^ (-53 : ℤ) = u at hu dt hgS hη ⊢
        generalize (2 : ℝ) ^ (-1075 : ℤ) = η at dt hη
        linarith
  · simp only [normOf, hne, Bool.false_eq_true, if_false]
    exact mul_roundsTo hr ht


/-- **The computed norm is the norm up to `2⁻⁴⁸` of it**, and the least subnormal: `r` times
a double within `18 · 2⁻⁵³` of `√(1 + Σ (xᵢ / r)²)`, rounded once more. -/
theorem abs_normOf_sub_le {q : Quaternion} {r x₁ x₂ x₃ : Float} (hs : Sorted q r x₁ x₂ x₃)
    (hr0 : 0 < toReal r) (hn : (normOf r x₁ x₂ x₃).isFinite = true) :
    |toReal (normOf r x₁ x₂ x₃) - Real.sqrt q.normSq| ≤
      2 ^ (-48 : ℤ) * Real.sqrt q.normSq + 2 ^ (-1075 : ℤ) := by
  obtain ⟨t, ht, t₁, t₃, hT, hround⟩ := normOf_roundsTo hs.finite_r hr0 hs.finite_x₁
    hs.finite_x₂ hs.finite_x₃ hs.x₁_mem hs.x₂_mem hs.x₃_mem
  set S := 1 + (toReal x₁ / toReal r) ^ 2 + (toReal x₂ / toReal r) ^ 2 +
    (toReal x₃ / toReal r) ^ 2 with hS
  have hS1 : 1 ≤ S := by
    have := sq_nonneg (toReal x₁ / toReal r)
    have := sq_nonneg (toReal x₂ / toReal r)
    have := sq_nonneg (toReal x₃ / toReal r)
    linarith
  -- the norm is `r √S`, at least `r`
  have hX : ∀ X : ℝ, toReal r ^ 2 * (X / toReal r) ^ 2 = X ^ 2 := fun X => by
    rw [div_pow, mul_div_cancel₀ _ (pow_ne_zero 2 hr0.ne')]
  have hnorm : q.normSq = toReal r ^ 2 * S := by
    rw [← hs.sq_sum, hS, mul_add, mul_add, mul_add, mul_one, hX, hX, hX]
  have hν : Real.sqrt q.normSq = toReal r * Real.sqrt S := by
    rw [hnorm, Real.sqrt_mul (sq_nonneg _), Real.sqrt_sq hr0.le]
  have hrν : toReal r ≤ toReal r * Real.sqrt S :=
    le_mul_of_one_le_right hr0.le (Real.one_le_sqrt.mpr hS1)
  -- one rounding of `r t`, and `r` times the error of `t`
  have hN := hround.abs_sub_le (B := 3 * toReal r) hn (by
    rw [abs_mul, abs_of_pos hr0, abs_of_pos (by linarith)]
    linarith [mul_le_mul_of_nonneg_left t₃ hr0.le])
  have hRT : |toReal r * toReal t - toReal r * Real.sqrt S| ≤ toReal r * (18 * 2 ^ (-53 : ℤ)) := by
    rw [← mul_sub, abs_mul, abs_of_pos hr0]
    exact mul_le_mul_of_nonneg_left hT hr0.le
  have h48 : (2 : ℝ) ^ (-48 : ℤ) = 32 * 2 ^ (-53 : ℤ) := by
    rw [show (-48 : ℤ) = -53 + (5 : ℕ) by norm_num, two_zpow_eq_mul]; norm_num
  have hu := two_zpow_pos (-53)
  rw [hν, h48]
  calc |toReal (normOf r x₁ x₂ x₃) - toReal r * Real.sqrt S|
      ≤ |toReal (normOf r x₁ x₂ x₃) - toReal r * toReal t| +
        |toReal r * toReal t - toReal r * Real.sqrt S| := abs_sub_le _ _ _
    _ ≤ 2 ^ (-53 : ℤ) * (3 * toReal r) + 2 ^ (-1075 : ℤ) + toReal r * (18 * 2 ^ (-53 : ℤ)) :=
        add_le_add hN hRT
    _ = 21 * (2 ^ (-53 : ℤ) * toReal r) + 2 ^ (-1075 : ℤ) := by ring
    _ ≤ 32 * 2 ^ (-53 : ℤ) * (toReal r * Real.sqrt S) + 2 ^ (-1075 : ℤ) := by
        have := mul_le_mul_of_nonneg_left hrν hu.le
        generalize (2 : ℝ) ^ (-53 : ℤ) = u at this hu ⊢
        nlinarith

end Quaternion

end ArmReach
