import ArmReach.Proofs.Spatial.Norm
import ArmReach.Spatial.Pose
/-!
# Normalizing quaternions and vectors

`Quaternion.normalize` scales a quaternion by `1 / abs`, and sends a quaternion of norm zero to
the identity; `Vec3.normalize` scales a vector by `1 / √norm2`, and sends a vector of squared
length zero to zero.

* `normalize_of_abs_isFinite`: a quaternion of finite components whose norm and its
  reciprocal are finite doubles is scaled by that reciprocal, a positive double, each
  component rounded to a finite double, and the result has norm `1` up to rounding; the zero
  quaternion, signed zeros included, normalizes to the identity (`normalize_eq_one_of_zero`).
* `Vec3.normalize_of_norm2_normal`: a vector whose computed squared length is a normal double
  is scaled by the reciprocal of its computed length, a positive double, into finite components
  whose squared length is `1` up to rounding; `Vec3.div_sqrt_norm2_near` divides by the
  computed length instead, as the axis of a rotation is read off a quaternion.

The bounds come in three steps: the computed length is the exact one up to `2⁻⁴⁸` of it
(`abs_normOf_sub_le` for quaternions, `norm2_near` and `sqrt_near` for vectors), its rounded
reciprocal scales the exact length to `1` up to `2⁻⁴⁶` (`reciprocal_mul_near`), and rounding the
scaled components moves the squared length by at most `15 · 2⁻⁵³` a component
(`sum_sq_round_near`).
-/

namespace ArmReach

namespace Binary64

/-! ### Rounding errors of lengths -/

/-- **The reciprocal of a positive double**, when it is finite, is positive and at most `2`
over the double: rounding `1 / n` errs by at most `2⁻⁵³` of it, or by `2⁻¹⁰⁷⁵`, which `n`
below `2 ^ 1024` keeps under `1 / 2`. -/
theorem reciprocal_bounds {n : Float} (hn : n.isFinite = true) (hnpos : 0 < toReal n)
    (hf : (1 / n).isFinite = true) : 0 < toReal (1 / n) ∧ toReal (1 / n) * toReal n ≤ 2 := by
  have hrec := div_roundsTo toReal_one.1 hn hnpos.ne'
  rw [toReal_one.2] at hrec
  have hnlt : toReal n < 2 ^ 1024 := lt_of_le_of_lt (le_abs_self _) (abs_toReal_lt hn)
  have hfv := hrec.toReal_eq hf
  constructor
  · rw [hfv]
    refine lt_of_lt_of_le (two_zpow_pos (-1024)) (le_round_of_le (representable_two_zpow
      (by norm_num)) ?_)
    rw [zpow_neg, zpow_ofNat, one_div]
    exact inv_anti₀ hnpos hnlt.le
  · have herr := abs_round_sub_le_mul (1 / toReal n)
    rw [← hfv, abs_of_pos (one_div_pos.mpr hnpos)] at herr
    have hsmall : (2 : ℝ) ^ (-1075 : ℤ) * toReal n ≤ 1 / 2 := by
      calc (2 : ℝ) ^ (-1075 : ℤ) * toReal n ≤ 2 ^ (-1075 : ℤ) * 2 ^ 1024 :=
            mul_le_mul_of_nonneg_left hnlt.le (two_zpow_pos _).le
        _ ≤ 1 / 2 := by rw [← zpow_natCast, ← zpow_add₀ two_ne_zero]; norm_num
    have h53 : (2 : ℝ) ^ (-53 : ℤ) ≤ 1 / 2 := by norm_num
    have hup := (abs_le.mp herr).2
    have hone : 1 / toReal n * toReal n = 1 := one_div_mul_cancel hnpos.ne'
    calc toReal (1 / n) * toReal n
        ≤ (1 / toReal n + (2 ^ (-53 : ℤ) * (1 / toReal n) + 2 ^ (-1075 : ℤ))) * toReal n :=
          mul_le_mul_of_nonneg_right (by linarith) hnpos.le
      _ = 1 / toReal n * toReal n + 2 ^ (-53 : ℤ) * (1 / toReal n * toReal n) +
          2 ^ (-1075 : ℤ) * toReal n := by ring
      _ = 1 + 2 ^ (-53 : ℤ) + 2 ^ (-1075 : ℤ) * toReal n := by rw [hone, mul_one]
      _ ≤ 1 + 1 / 2 + 1 / 2 := add_le_add (add_le_add le_rfl h53) hsmall
      _ = 2 := by norm_num

/-- **The rounded reciprocal of a nearly exact norm scales the norm to `1` up to `2⁻⁴⁶`**: for
`n` within `2⁻⁴⁸ ν + 2⁻¹⁰⁷⁵` of `ν ≥ 0`, with `1 / n` finite. -/
theorem reciprocal_mul_near {n : Float} {ν : ℝ} (hn : n.isFinite = true) (hnpos : 0 < toReal n)
    (hf : (1 / n).isFinite = true) (hν0 : 0 ≤ ν)
    (hν : |toReal n - ν| ≤ 2 ^ (-48 : ℤ) * ν + 2 ^ (-1075 : ℤ)) :
    |toReal (1 / n) * ν - 1| ≤ 2 ^ (-46 : ℤ) := by
  have hu := two_zpow_pos (-53)
  have hη0 := two_zpow_pos (-1075)
  have hη := two_zpow_1075_le
  have hu1 := two_zpow_53_le
  have h48 : (2 : ℝ) ^ (-48 : ℤ) = 32 * 2 ^ (-53 : ℤ) := by
    rw [show (-48 : ℤ) = -53 + (5 : ℕ) by norm_num, two_zpow_eq_mul]; norm_num
  have h46 : (2 : ℝ) ^ (-46 : ℤ) = 128 * 2 ^ (-53 : ℤ) := by
    rw [show (-46 : ℤ) = -53 + (7 : ℕ) by norm_num, two_zpow_eq_mul]; norm_num
  have h51 : (2 : ℝ) ^ (-1075 : ℤ) * 2 ^ 1024 = 4 * 2 ^ (-53 : ℤ) := by
    rw [← zpow_natCast, ← zpow_add₀ two_ne_zero,
      show (-1075 + ((1024 : ℕ) : ℤ) : ℤ) = -53 + (2 : ℕ) by norm_num, two_zpow_eq_mul]
    norm_num
  have hrec := div_roundsTo toReal_one.1 hn hnpos.ne'
  rw [toReal_one.2] at hrec
  have ha : 0 < 1 / toReal n := one_div_pos.mpr hnpos
  have haN : 1 / toReal n * toReal n = 1 := one_div_mul_cancel hnpos.ne'
  have hF := hrec.abs_sub_le (B := 1 / toReal n) hf (abs_of_pos ha).le
  -- `1 / n` rounds to a finite double, so it is below `2 ^ 1024`; so is `n`
  have haB : 1 / toReal n ≤ 2 ^ 1024 := by
    by_contra hgt
    have h1 := le_round_of_le (representable_two_pow 1024) (not_le.mp hgt).le
    have h2 := hrec.isFinite_iff.mp hf
    rw [abs_of_nonneg (le_trans (by positivity) h1)] at h2
    exact absurd h2 (not_lt.mpr h1)
  have hNB : toReal n ≤ 2 ^ 1024 := (le_abs_self _).trans (abs_toReal_lt hn).le
  rw [h46]
  rw [h48] at hν
  -- from here on only the sizes matter: `u = 2⁻⁵³`, `η = 2⁻¹⁰⁷⁵`, `a = 1 / n`, `B = 2 ^ 1024`
  generalize (2 : ℝ) ^ (-53 : ℤ) = u at hu hη hu1 h51 hF hν ⊢
  generalize (2 : ℝ) ^ (-1075 : ℤ) = η at hη0 hη h51 hF hν
  generalize (2 : ℝ) ^ 1024 = B at h51 haB hNB
  generalize 1 / toReal n = a at ha haN hF haB
  generalize toReal n = N at haN hNB hν
  generalize toReal (1 / n) = F at hF
  have haη : a * η ≤ 4 * u := by
    rw [← h51, mul_comm η]
    exact mul_le_mul_of_nonneg_right haB hη0.le
  have hNη : N * η ≤ 4 * u := by
    rw [← h51, mul_comm η]
    exact mul_le_mul_of_nonneg_right hNB hη0.le
  -- `ν` is at most about twice `N`
  obtain ⟨hνl, -⟩ := abs_le.mp hν
  have hν32 : 32 * u * ν ≤ ν / 2 := by
    have := mul_le_mul_of_nonneg_right hu1 hν0
    linarith
  have hν2 : ν ≤ 2 * N + 2 * η := by linarith
  -- split `F ν - 1` at the exact reciprocal `a`
  have hsplit : F * ν - 1 = (F - a) * ν + a * (ν - N) := by
    rw [← haN]
    ring
  have e₁ : |(F - a) * ν| ≤ (u * a + η) * ν := by
    rw [abs_mul, abs_of_nonneg hν0]
    exact mul_le_mul_of_nonneg_right hF hν0
  have e₂ : |a * (ν - N)| ≤ a * (32 * u * ν + η) := by
    rw [abs_mul, abs_of_pos ha]
    exact mul_le_mul_of_nonneg_left (by rw [abs_sub_comm]; exact hν) ha.le
  have haν : a * ν ≤ 2 + 8 * u := by
    calc a * ν ≤ a * (2 * N + 2 * η) := mul_le_mul_of_nonneg_left hν2 ha.le
      _ = 2 * (a * N) + 2 * (a * η) := by ring
      _ ≤ 2 + 8 * u := by rw [haN]; linarith
  have hην : η * ν ≤ 8 * u + 2 * η * η := by
    calc η * ν ≤ η * (2 * N + 2 * η) := mul_le_mul_of_nonneg_left hν2 hη0.le
      _ = 2 * (N * η) + 2 * η * η := by ring
      _ ≤ 8 * u + 2 * η * η := by linarith
  have huaν : u * (a * ν) ≤ u * (2 + 8 * u) := mul_le_mul_of_nonneg_left haν hu.le
  have huu : u * u ≤ u / 1024 := by
    have := mul_le_mul_of_nonneg_left hu1 hu.le
    linarith
  have hηη : η * η ≤ u := (mul_le_of_le_one_right hη0.le (by linarith)).trans (by linarith)
  rw [hsplit]
  calc |(F - a) * ν + a * (ν - N)| ≤ |(F - a) * ν| + |a * (ν - N)| := abs_add_le _ _
    _ ≤ (u * a + η) * ν + a * (32 * u * ν + η) := add_le_add e₁ e₂
    _ = u * (a * ν) + η * ν + 32 * (u * (a * ν)) + a * η := by ring
    _ ≤ 128 * u := by linarith


/-- Rounding a value at most `2` in size moves its square by at most `15 · 2⁻⁵³`. -/
theorem abs_sq_round_sub_sq_le {v : ℝ} (hv : |v| ≤ 2) :
    |Binary64.round v ^ 2 - v ^ 2| ≤ 15 * 2 ^ (-53 : ℤ) := by
  have hδ := abs_round_sub_le_mul v
  have hu := two_zpow_pos (-53)
  have hη := two_zpow_1075_le
  have hu1 := two_zpow_53_le
  have hsq : Binary64.round v ^ 2 - v ^ 2 = (Binary64.round v - v) * (Binary64.round v - v + 2 * v) := by
    ring
  rw [hsq, abs_mul]
  generalize (2 : ℝ) ^ (-53 : ℤ) = u at hδ hu hη hu1 ⊢
  generalize (2 : ℝ) ^ (-1075 : ℤ) = η at hδ hη
  generalize Binary64.round v - v = δ at hδ ⊢
  -- the error is at most `3u`, and the other factor at most `4 + 3u`
  have hδ3 : |δ| ≤ 3 * u := by
    have := mul_le_mul_of_nonneg_left hv hu.le
    linarith
  have hsum : |δ + 2 * v| ≤ 3 * u + 4 := by
    calc |δ + 2 * v| ≤ |δ| + |2 * v| := abs_add_le _ _
      _ = |δ| + 2 * |v| := by rw [abs_mul, abs_two]
      _ ≤ 3 * u + 4 := by linarith
  have huu := mul_le_mul_of_nonneg_left hu1 hu.le
  calc |δ| * |δ + 2 * v| ≤ 3 * u * (3 * u + 4) :=
        mul_le_mul hδ3 hsum (abs_nonneg _) (by linarith)
    _ = 9 * (u * u) + 12 * u := by ring
    _ ≤ 15 * u := by linarith


/-- **Rounding values at most `2` in size, one by one**, moves the sum of their squares by at
most `15 · 2⁻⁵³` a term; the rounded values are finite. -/
theorem sum_sq_round_near {cs : List Float} (g : Float → Float) (v : Float → ℝ)
    (hg : ∀ c ∈ cs, RoundsTo (v c) (g c)) (hb : ∀ c ∈ cs, |v c| ≤ 2) :
    (∀ c ∈ cs, (g c).isFinite = true) ∧
      |(cs.map fun c => toReal (g c) ^ 2).sum - (cs.map fun c => v c ^ 2).sum| ≤
        cs.length * (15 * 2 ^ (-53 : ℤ)) := by
  induction cs with
  | nil => simp
  | cons c cs ih =>
    rw [List.forall_mem_cons] at hg hb ⊢
    obtain ⟨hf, -⟩ := hg.1.isFinite_of_abs_le (representable_two_pow 1)
      (pow_lt_pow_right₀ (by norm_num) (by norm_num)) (by rw [pow_one]; exact hb.1)
    have hhead : |toReal (g c) ^ 2 - v c ^ 2| ≤ 15 * 2 ^ (-53 : ℤ) := by
      rw [hg.1.toReal_eq hf]
      exact abs_sq_round_sub_sq_le hb.1
    obtain ⟨hfs, htail⟩ := ih hg.2 hb.2
    refine ⟨⟨hf, hfs⟩, ?_⟩
    simp only [List.map_cons, List.sum_cons, List.length_cons]
    have hsplit : (toReal (g c) ^ 2 + (cs.map fun c => toReal (g c) ^ 2).sum) -
        (v c ^ 2 + (cs.map fun c => v c ^ 2).sum) =
        (toReal (g c) ^ 2 - v c ^ 2) +
          ((cs.map fun c => toReal (g c) ^ 2).sum - (cs.map fun c => v c ^ 2).sum) := by ring
    rw [hsplit]
    refine (abs_add_le _ _).trans ?_
    push_cast
    linarith

/-- **Scaling finite doubles by a double**, each product at most `2` in size, moves the sum of
their squares from `f²` times theirs by at most `15 · 2⁻⁵³` a term. -/
theorem sum_sq_scale_near {f : Float} (hf : f.isFinite = true) {cs : List Float}
    (hc : ∀ c ∈ cs, c.isFinite = true) (hb : ∀ c ∈ cs, |toReal f * toReal c| ≤ 2) :
    |(cs.map fun c => toReal (f * c) ^ 2).sum - toReal f ^ 2 * (cs.map fun c => toReal c ^ 2).sum|
      ≤ cs.length * (15 * 2 ^ (-53 : ℤ)) := by
  have h := (sum_sq_round_near (fun c => f * c) (fun c => toReal f * toReal c)
    (fun c hc' => mul_roundsTo hf (hc c hc')) hb).2
  have hsum : (cs.map fun c => (toReal f * toReal c) ^ 2).sum =
      toReal f ^ 2 * (cs.map fun c => toReal c ^ 2).sum := by
    rw [← List.sum_map_mul_left]
    simp only [mul_pow]
  rwa [hsum] at h

/-- A value whose square root is within `2⁻⁴⁶` of `1`, squared and moved by at most
`60 · 2⁻⁵³`, is within `2⁻⁴⁴` of `1`. -/
theorem near_one_of_sq_near {N y : ℝ} (hy : |y - 1| ≤ 2 ^ (-46 : ℤ))
    (hN : |N - y ^ 2| ≤ 60 * 2 ^ (-53 : ℤ)) : |N - 1| ≤ 2 ^ (-44 : ℤ) := by
  have h46 : (2 : ℝ) ^ (-46 : ℤ) = 128 * 2 ^ (-53 : ℤ) := by
    rw [show (-46 : ℤ) = -53 + (7 : ℕ) by norm_num, two_zpow_eq_mul]; norm_num
  have h44 : (2 : ℝ) ^ (-44 : ℤ) = 512 * 2 ^ (-53 : ℤ) := by
    rw [show (-44 : ℤ) = -53 + (9 : ℕ) by norm_num, two_zpow_eq_mul]; norm_num
  have hu := two_zpow_pos (-53)
  have hu1 := two_zpow_53_le
  rw [h46] at hy
  rw [h44]
  generalize (2 : ℝ) ^ (-53 : ℤ) = u at *
  -- `y² - 1 = (y - 1)(y + 1)`, with `y + 1` at most `3`
  have hy1 : |y + 1| ≤ 3 := by
    obtain ⟨hl, hu'⟩ := abs_le.mp hy
    exact abs_le.mpr ⟨by linarith, by linarith⟩
  have hsq : |y ^ 2 - 1| ≤ 128 * u * 3 := by
    rw [show y ^ 2 - 1 = (y - 1) * (y + 1) by ring, abs_mul]
    exact mul_le_mul hy hy1 (abs_nonneg _) (by linarith)
  calc |N - 1| ≤ |N - y ^ 2| + |y ^ 2 - 1| := abs_sub_le _ _ _
    _ ≤ 60 * u + 128 * u * 3 := add_le_add hN hsq
    _ ≤ 512 * u := by linarith

/-- **Adding three rounded values not below zero**, each within `2⁻⁵³` of an exact value and
the least subnormal, rounds to within `4 · 2⁻⁵³` of the exact sum and eight least
subnormals. -/
theorem sum_three_near {p₁ p₂ p₃ : Float} {X Y Z : ℝ} (hX : 0 ≤ X) (hY : 0 ≤ Y) (hZ : 0 ≤ Z)
    (h₁ : 0 ≤ toReal p₁ ∧ |toReal p₁ - X| ≤ 2 ^ (-53 : ℤ) * X + 2 ^ (-1075 : ℤ))
    (h₂ : 0 ≤ toReal p₂ ∧ |toReal p₂ - Y| ≤ 2 ^ (-53 : ℤ) * Y + 2 ^ (-1075 : ℤ))
    (h₃ : 0 ≤ toReal p₃ ∧ |toReal p₃ - Z| ≤ 2 ^ (-53 : ℤ) * Z + 2 ^ (-1075 : ℤ))
    (hp₁ : p₁.isFinite = true) (hp₂ : p₂.isFinite = true) (hp₃ : p₃.isFinite = true)
    (hs : (p₁ + p₂).isFinite = true) (hn : (p₁ + p₂ + p₃).isFinite = true) :
    |toReal (p₁ + p₂ + p₃) - (X + Y + Z)| ≤
      4 * 2 ^ (-53 : ℤ) * (X + Y + Z) + 8 * 2 ^ (-1075 : ℤ) := by
  obtain ⟨hs0, es⟩ := RoundsTo.near_of_nonneg (add_roundsTo hp₁ hp₂) hs (add_nonneg h₁.1 h₂.1)
  obtain ⟨-, en⟩ := RoundsTo.near_of_nonneg (add_roundsTo hs hp₃) hn (add_nonneg hs0 h₃.1)
  have hu := two_zpow_pos (-53)
  have hu1 := two_zpow_53_le
  have hη := two_zpow_pos (-1075)
  generalize (2 : ℝ) ^ (-53 : ℤ) = u at *
  generalize (2 : ℝ) ^ (-1075 : ℤ) = η at *
  generalize toReal (p₁ + p₂ + p₃) = n at *
  generalize toReal (p₁ + p₂) = s at *
  obtain ⟨a₁, e₁⟩ := h₁
  obtain ⟨a₂, e₂⟩ := h₂
  obtain ⟨a₃, e₃⟩ := h₃
  generalize toReal p₁ = q₁ at *
  generalize toReal p₂ = q₂ at *
  generalize toReal p₃ = q₃ at *
  obtain ⟨l₁, u₁⟩ := abs_le.mp e₁
  obtain ⟨l₂, u₂⟩ := abs_le.mp e₂
  obtain ⟨l₃, u₃⟩ := abs_le.mp e₃
  obtain ⟨ls, us⟩ := abs_le.mp es
  obtain ⟨ln, un⟩ := abs_le.mp en
  -- second-order terms are below `u / 1024` of the first-order ones
  have huu : u * u ≤ u / 1024 := by
    have := mul_le_mul_of_nonneg_left hu1 hu.le
    linarith
  have huuu : u * u * u ≤ u / 1024 := by
    have h1 := mul_le_mul_of_nonneg_right huu hu.le
    have h2 : u / 1024 * u ≤ u / 1024 :=
      mul_le_of_le_one_right (by positivity) (hu1.trans (by norm_num))
    linarith
  have hA : 0 ≤ X + Y + Z := by linarith
  have f₁ := mul_le_mul_of_nonneg_right huu hA
  have f₂ := mul_le_mul_of_nonneg_right huuu hA
  have f₃ := mul_le_mul_of_nonneg_right huu (by linarith : 0 ≤ X + Y)
  have f₄ : u * η ≤ η / 1024 := by
    have := mul_le_mul_of_nonneg_right hu1 hη.le
    linarith
  have f₅ := mul_le_mul_of_nonneg_right huu hη.le
  have f₆ := mul_nonneg hu.le hZ
  have f₇ := mul_nonneg (mul_nonneg hu.le hu.le) hZ
  -- the partial sums are at most `1 + u` times their exact values, and a few subnormals
  have hq : q₁ + q₂ ≤ (1 + u) * (X + Y) + 2 * η := by linarith
  have huq : u * (q₁ + q₂) ≤ u * ((1 + u) * (X + Y) + 2 * η) := mul_le_mul_of_nonneg_left hq hu.le
  have hsq : s + q₃ ≤ (1 + u) ^ 2 * (X + Y + Z) + 5 * η := by linarith
  have hus : u * (s + q₃) ≤ u * ((1 + u) ^ 2 * (X + Y + Z) + 5 * η) :=
    mul_le_mul_of_nonneg_left hsq hu.le
  rw [abs_le]
  constructor <;> linarith

/-- **The rounded root of a nearly exact square**: a finite double `n ≥ 0` within `4 · 2⁻⁵³` of
`S ≥ 2⁻¹⁰²³` and eight least subnormals has a finite square root within `2⁻⁴⁸` of `√S`; the
least subnormals weigh at most `16 · 2⁻⁵³` of `S` there. -/
theorem sqrt_near {n : Float} {S : ℝ} (hn : n.isFinite = true) (hn0 : 0 ≤ toReal n)
    (hS : 2 ^ (-1023 : ℤ) ≤ S)
    (h : |toReal n - S| ≤ 4 * 2 ^ (-53 : ℤ) * S + 8 * 2 ^ (-1075 : ℤ)) :
    n.sqrt.isFinite = true ∧
      |toReal n.sqrt - Real.sqrt S| ≤ 2 ^ (-48 : ℤ) * Real.sqrt S + 2 ^ (-1075 : ℤ) := by
  have hr := sqrt_roundsTo hn hn0
  have hS0 : 0 < S := lt_of_lt_of_le (two_zpow_pos _) hS
  have hsS : 0 < Real.sqrt S := Real.sqrt_pos.mpr hS0
  -- the root is below `2 ^ 512`, so it rounds to a finite double
  have hnlt : toReal n < 2 ^ 1024 := lt_of_le_of_lt (le_abs_self _) (abs_toReal_lt hn)
  have hroot : |Real.sqrt (toReal n)| ≤ 2 ^ 512 := by
    rw [abs_of_nonneg (Real.sqrt_nonneg _), Real.sqrt_le_left (by positivity)]
    calc toReal n ≤ 2 ^ 1024 := hnlt.le
      _ = (2 ^ 512) ^ 2 := by rw [← pow_mul]
  obtain ⟨hfin, -⟩ := hr.isFinite_of_abs_le (representable_two_pow 512)
    (pow_lt_pow_right₀ (by norm_num) (by norm_num)) hroot
  refine ⟨hfin, ?_⟩
  have hround := hr.abs_sub_le hfin (abs_of_nonneg (Real.sqrt_nonneg _)).le
  -- the two roots differ by the difference of the squares over their sum
  have hprod : (Real.sqrt (toReal n) - Real.sqrt S) * (Real.sqrt (toReal n) + Real.sqrt S) =
      toReal n - S := by
    linear_combination Real.sq_sqrt hn0 - Real.sq_sqrt hS0.le
  have hsum : Real.sqrt S ≤ Real.sqrt (toReal n) + Real.sqrt S :=
    le_add_of_nonneg_left (Real.sqrt_nonneg _)
  -- the subnormals weigh at most `16 u S`, as `S ≥ 2⁻¹⁰²³`
  have hη : 8 * (2 : ℝ) ^ (-1075 : ℤ) ≤ 16 * 2 ^ (-53 : ℤ) * S := by
    have h16 : 8 * (2 : ℝ) ^ (-1075 : ℤ) = 16 * 2 ^ (-53 : ℤ) * 2 ^ (-1023 : ℤ) := by
      rw [mul_assoc, ← zpow_add₀ two_ne_zero,
        show (-1075 : ℤ) = -1076 + 1 by norm_num, zpow_add₀ two_ne_zero,
        show (-53 + -1023 : ℤ) = -1076 by norm_num]
      ring
    rw [h16]
    exact mul_le_mul_of_nonneg_left hS (by positivity)
  have hdiff : |Real.sqrt (toReal n) - Real.sqrt S| ≤ 20 * 2 ^ (-53 : ℤ) * Real.sqrt S := by
    have hle : |Real.sqrt (toReal n) - Real.sqrt S| * Real.sqrt S ≤
        20 * 2 ^ (-53 : ℤ) * Real.sqrt S * Real.sqrt S := by
      calc |Real.sqrt (toReal n) - Real.sqrt S| * Real.sqrt S
          ≤ |Real.sqrt (toReal n) - Real.sqrt S| * (Real.sqrt (toReal n) + Real.sqrt S) :=
            mul_le_mul_of_nonneg_left hsum (abs_nonneg _)
        _ = |toReal n - S| := by
            rw [← hprod, abs_mul, abs_of_nonneg (by positivity : 0 ≤ Real.sqrt (toReal n) +
              Real.sqrt S)]
        _ ≤ 20 * 2 ^ (-53 : ℤ) * S := by linarith
        _ = 20 * 2 ^ (-53 : ℤ) * Real.sqrt S * Real.sqrt S := by
            rw [mul_assoc _ (Real.sqrt S), Real.mul_self_sqrt hS0.le]
    exact le_of_mul_le_mul_right hle hsS
  have hu := two_zpow_pos (-53)
  have hu1 := two_zpow_53_le
  have h48 : (2 : ℝ) ^ (-48 : ℤ) = 32 * 2 ^ (-53 : ℤ) := by
    rw [show (-48 : ℤ) = -53 + (5 : ℕ) by norm_num, two_zpow_eq_mul]; norm_num
  rw [h48]
  obtain ⟨ld, ud⟩ := abs_le.mp hdiff
  obtain ⟨lr, ur⟩ := abs_le.mp hround
  generalize (2 : ℝ) ^ (-53 : ℤ) = u at *
  generalize (2 : ℝ) ^ (-1075 : ℤ) = η at *
  generalize Real.sqrt (toReal n) = v at *
  generalize Real.sqrt S = w at *
  generalize toReal n.sqrt = r at *
  have huv : u * v ≤ u * (w + 20 * u * w) := mul_le_mul_of_nonneg_left (by linarith) hu.le
  have huuw : u * (20 * u * w) ≤ 20 * (1 / 1024) * (u * w) := by
    have := mul_le_mul_of_nonneg_right hu1 (by positivity : (0 : ℝ) ≤ 20 * (u * w))
    linarith
  rw [abs_le]
  constructor <;> linarith

end Binary64

namespace Quaternion

open Binary64

/-! ### Scaling the components -/

/-- The squared norm of a quaternion is the sum of the squares of its components. -/
theorem normSq_eq_sum (q : Quaternion) : q.normSq = (q.toList.map fun c => toReal c ^ 2).sum := by
  simp [normSq, toList, add_assoc]

/-- **Scaling by a double, component by component**: when each `f · c` is at most `2` in size,
the squared norm of the scaled quaternion is `f²` times that of `q` up to `60 · 2⁻⁵³`. -/
theorem normSq_scale_near {q : Quaternion} {f : Float} (hf : f.isFinite = true)
    (hq : ∀ c ∈ q.toList, c.isFinite = true) (hb : ∀ c ∈ q.toList, |toReal f * toReal c| ≤ 2) :
    |(q.scale f).normSq - toReal f ^ 2 * q.normSq| ≤ 60 * 2 ^ (-53 : ℤ) := by
  have h := sum_sq_scale_near hf hq hb
  have hlen : (q.toList.length : ℝ) = 4 := by simp [toList]
  have hscaled : (q.scale f).normSq = (q.toList.map fun c => toReal (f * c) ^ 2).sum := by
    simp [normSq, toList, scale, add_assoc]
  rw [hlen, ← normSq_eq_sum, ← hscaled] at h
  linarith

/-! ### Normalizing -/

/-- The zero quaternion, signed zeros included, normalizes to the identity. -/
theorem normalize_eq_one_of_zero {q : Quaternion} (hq : ∀ c ∈ q.toList, c.isFinite = true)
    (hz : ∀ c ∈ q.toList, toReal c = 0) : q.normalize = one := by
  have hs := sorted_sortedMagnitudes hq
  have habs := abs_eq_normOf hq
  rcases hsm : sortedMagnitudes q with ⟨r, x₁, x₂, x₃⟩
  rw [hsm] at hs habs
  dsimp only at hs habs
  -- every magnitude is zero, so the largest is, and the norm is the double zero
  have hr : toReal r = 0 := by
    simp only [toList, List.mem_cons, List.not_mem_nil, or_false, forall_eq_or_imp,
      forall_eq] at hz
    rw [hs.r_eq, hz.1, hz.2.1, hz.2.2.1, hz.2.2.2]
    simp
  unfold normalize
  rw [habs, normOf_of_toReal_eq_zero hs.finite_r hr]
  rfl

/-- **Normalizing a quaternion whose norm and reciprocal are finite**: it is scaled by the
reciprocal, a positive double, each component rounded to a finite double, and its squared
norm is within `2⁻⁴⁴` of `1`. -/
theorem normalize_of_abs_isFinite {q : Quaternion} (hq : ∀ c ∈ q.toList, c.isFinite = true)
    (hn : q.abs.isFinite = true) (hf : (1 / q.abs).isFinite = true) :
    q.normalize = q.scale (1 / q.abs) ∧ 0 < toReal (1 / q.abs) ∧
      List.Forall₂ (fun c c' => c'.isFinite = true ∧
        toReal c' = Binary64.round (toReal (1 / q.abs) * toReal c)) q.toList q.normalize.toList ∧
      |q.normalize.normSq - 1| ≤ 2 ^ (-44 : ℤ) := by
  have hs := sorted_sortedMagnitudes hq
  have habs := abs_eq_normOf hq
  rcases hsm : sortedMagnitudes q with ⟨r, x₁, x₂, x₃⟩
  rw [hsm] at hs habs
  dsimp only at hs habs
  -- a finite reciprocal needs a nonzero norm
  have hn0 : toReal q.abs ≠ 0 :=
    toReal_ne_zero_of_isFinite_div toReal_one.1 (by rw [toReal_one.2]; norm_num) hn hf
  have hnorm : q.normalize = q.scale (1 / q.abs) := by
    unfold normalize
    simp only [beq_zero_eq_false hn hn0, Bool.false_eq_true, if_false]
  -- the norm is at least the largest magnitude, which is above zero
  have hr0 : 0 < toReal r := hs.pos_of_normOf_ne_zero (by rw [← habs]; exact hn0)
  obtain ⟨t, ht, ht1, -, -, hround⟩ := normOf_roundsTo hs.finite_r hr0 hs.finite_x₁
    hs.finite_x₂ hs.finite_x₃ hs.x₁_mem hs.x₂_mem hs.x₃_mem
  rw [← habs] at hround
  have hnr : toReal r ≤ toReal q.abs := by
    rw [hround.toReal_eq hn]
    exact le_round_of_le (representable_toReal hs.finite_r) (le_mul_of_one_le_right hr0.le ht1)
  have hnpos : 0 < toReal q.abs := lt_of_lt_of_le hr0 hnr
  obtain ⟨hfpos, hfle⟩ := reciprocal_bounds hn hnpos hf
  -- each component: `(1 / n) * c` is at most `(1 / n) * n ≤ 2` in magnitude
  have hbound : ∀ c ∈ q.toList, |toReal (1 / q.abs) * toReal c| ≤ 2 := by
    intro c hc
    rw [abs_mul, abs_of_pos hfpos]
    calc toReal (1 / q.abs) * |toReal c| ≤ toReal (1 / q.abs) * toReal q.abs :=
          mul_le_mul_of_nonneg_left ((hs.abs_le c hc).trans hnr) hfpos.le
      _ ≤ 2 := hfle
  have hcomp : ∀ c ∈ q.toList, ((1 / q.abs) * c).isFinite = true ∧
      toReal ((1 / q.abs) * c) = Binary64.round (toReal (1 / q.abs) * toReal c) := by
    intro c hc
    obtain ⟨hcf, hcv, -⟩ := mul_isFinite_of_abs_le hf (hq c hc) (by norm_num : 1 ≤ 1023)
      (by rw [pow_one]; exact hbound c hc)
    exact ⟨hcf, hcv⟩
  refine ⟨hnorm, hfpos, ?_, ?_⟩
  · rw [hnorm]
    simp only [toList, scale, List.mem_cons, List.not_mem_nil, or_false, forall_eq_or_imp,
      forall_eq] at hcomp ⊢
    exact List.Forall₂.cons hcomp.1 (.cons hcomp.2.1 (.cons hcomp.2.2.1
      (.cons hcomp.2.2.2 .nil)))
  · -- the norm: `1 / n` scales it to `1` up to `2⁻⁴⁶`, and the components round once more
    have hν := abs_normOf_sub_le hs hr0 (by rw [← habs]; exact hn)
    rw [← habs] at hν
    have hFν := reciprocal_mul_near hn hnpos hf (Real.sqrt_nonneg _) hν
    have hscale := normSq_scale_near hf hq hbound
    have hsq' : q.normSq = Real.sqrt q.normSq ^ 2 :=
      (Real.sq_sqrt (by rw [← hs.sq_sum]; positivity)).symm
    rw [hnorm]
    rw [hsq', ← mul_pow] at hscale
    exact near_one_of_sq_near hFν hscale

end Quaternion

namespace Vec3

open Binary64

/-! ### Normalizing vectors -/


/-- The squared length of a vector of doubles, in exact arithmetic. -/
noncomputable def normSq (a : Vec3) : ℝ := toReal a.x ^ 2 + toReal a.y ^ 2 + toReal a.z ^ 2

/-- The squared length of a vector is the sum of the squares of its components. -/
theorem normSq_eq_sum (a : Vec3) : a.normSq = (a.toList.map fun c => toReal c ^ 2).sum := by
  simp [normSq, toList, add_assoc]

/-- A squared length that is a finite double has finite components, is not below zero, and is
the exact one up to `4 · 2⁻⁵³` of it and eight least subnormals. -/
theorem norm2_near {a : Vec3} (hn : a.norm2.isFinite = true) :
    (∀ c ∈ a.toList, c.isFinite = true) ∧ 0 ≤ toReal a.norm2 ∧
      |toReal a.norm2 - a.normSq| ≤ 4 * 2 ^ (-53 : ℤ) * a.normSq + 8 * 2 ^ (-1075 : ℤ) := by
  unfold norm2 dot at hn ⊢
  obtain ⟨h₁₂, h₃⟩ := isFinite_of_isFinite_add hn
  obtain ⟨h₁, h₂⟩ := isFinite_of_isFinite_add h₁₂
  have hx := (isFinite_of_isFinite_mul h₁).1
  have hy := (isFinite_of_isFinite_mul h₂).1
  have hz := (isFinite_of_isFinite_mul h₃).1
  have sq₁ := RoundsTo.near_of_nonneg (mul_roundsTo hx hx) h₁ (mul_self_nonneg _)
  have sq₂ := RoundsTo.near_of_nonneg (mul_roundsTo hy hy) h₂ (mul_self_nonneg _)
  have sq₃ := RoundsTo.near_of_nonneg (mul_roundsTo hz hz) h₃ (mul_self_nonneg _)
  have hsum := sum_three_near (mul_self_nonneg _) (mul_self_nonneg _) (mul_self_nonneg _)
    sq₁ sq₂ sq₃ h₁ h₂ h₃ h₁₂ hn
  have hs0 := (RoundsTo.near_of_nonneg (add_roundsTo h₁ h₂) h₁₂ (add_nonneg sq₁.1 sq₂.1)).1
  refine ⟨by simp [toList, hx, hy, hz],
    (RoundsTo.near_of_nonneg (add_roundsTo h₁₂ h₃) hn (add_nonneg hs0 sq₃.1)).1, ?_⟩
  simpa only [normSq, sq] using hsum

/-- A squared length that is a normal double is at least `2⁻¹⁰²³` in exact arithmetic. -/
theorem le_normSq_of_normal {a : Vec3} (hn : a.norm2.isFinite = true)
    (hnormal : 2 ^ (-1022 : ℤ) ≤ toReal a.norm2) : 2 ^ (-1023 : ℤ) ≤ a.normSq := by
  obtain ⟨-, -, hnear⟩ := norm2_near hn
  by_contra hlt
  have hlt : a.normSq < 2 ^ (-1023 : ℤ) := lt_of_not_ge hlt
  have hu1 := two_zpow_53_le
  have h22 : (2 : ℝ) ^ (-1022 : ℤ) = 2 * 2 ^ (-1023 : ℤ) := by
    rw [show (-1022 : ℤ) = 1 + -1023 by norm_num, zpow_add₀ two_ne_zero, zpow_one]
  have hη : (2 : ℝ) ^ (-1075 : ℤ) ≤ 2 ^ (-1023 : ℤ) / 1024 := by
    rw [show (-1075 : ℤ) = -52 + -1023 by norm_num, zpow_add₀ two_ne_zero, div_eq_mul_one_div,
      mul_comm]
    exact mul_le_mul_of_nonneg_left (by norm_num) (two_zpow_pos _).le
  have hS0 : 0 ≤ a.normSq := by unfold normSq; positivity
  have huS : 2 ^ (-53 : ℤ) * a.normSq ≤ 1 / 1024 * 2 ^ (-1023 : ℤ) :=
    mul_le_mul hu1 hlt.le hS0 (by norm_num)
  have := (abs_le.mp hnear).2
  have ht := two_zpow_pos (-1023)
  rw [h22] at hnormal
  generalize (2 : ℝ) ^ (-53 : ℤ) = u at *
  generalize (2 : ℝ) ^ (-1075 : ℤ) = η at *
  generalize (2 : ℝ) ^ (-1023 : ℤ) = t at *
  linarith

/-- Each component of a vector is at most its exact length in size. -/
theorem abs_le_sqrt_normSq (a : Vec3) {c : Float} (hc : c ∈ a.toList) :
    |toReal c| ≤ Real.sqrt a.normSq := by
  apply Real.abs_le_sqrt
  rw [normSq_eq_sum]
  refine List.single_le_sum (fun x hx => ?_) _ (List.mem_map_of_mem hc)
  obtain ⟨d, -, rfl⟩ := List.mem_map.mp hx
  positivity

/-- **The computed length of a vector whose squared length is a normal double** is a finite
double of at least `2⁻⁵¹⁴`, within `2⁻⁴⁸` of the exact length, itself at least `2⁻⁵¹²`, and
the least subnormal. -/
theorem sqrt_norm2_near {a : Vec3} (hn : a.norm2.isFinite = true)
    (hnormal : 2 ^ (-1022 : ℤ) ≤ toReal a.norm2) :
    a.norm2.sqrt.isFinite = true ∧ 2 ^ (-514 : ℤ) ≤ toReal a.norm2.sqrt ∧
      2 ^ (-512 : ℤ) ≤ Real.sqrt a.normSq ∧
      |toReal a.norm2.sqrt - Real.sqrt a.normSq| ≤
        2 ^ (-48 : ℤ) * Real.sqrt a.normSq + 2 ^ (-1075 : ℤ) := by
  obtain ⟨-, hn0, hnear⟩ := norm2_near hn
  have hS := le_normSq_of_normal hn hnormal
  obtain ⟨hr, hrnear⟩ := sqrt_near hn hn0 hS hnear
  have hsS : 2 ^ (-512 : ℤ) ≤ Real.sqrt a.normSq := by
    rw [← Real.sqrt_sq (two_zpow_pos (-512)).le]
    apply Real.sqrt_le_sqrt
    rw [← zpow_natCast, ← zpow_mul]
    exact le_trans (zpow_le_zpow_right₀ (by norm_num) (by norm_num)) hS
  refine ⟨hr, ?_, hsS, hrnear⟩
  -- the rounded root is at least a quarter of `2⁻⁵¹²`
  have h48' : (2 : ℝ) ^ (-48 : ℤ) ≤ 1 / 2 := le_trans (zpow_le_zpow_right₀ (by norm_num)
    (by norm_num : (-48 : ℤ) ≤ -1)) (by norm_num)
  have hq : (2 : ℝ) ^ (-512 : ℤ) = 4 * 2 ^ (-514 : ℤ) := by
    rw [show (-512 : ℤ) = 2 + -514 by norm_num, zpow_add₀ two_ne_zero]; norm_num
  have hη : (2 : ℝ) ^ (-1075 : ℤ) ≤ 2 ^ (-514 : ℤ) := zpow_le_zpow_right₀ (by norm_num) (by norm_num)
  have := (abs_le.mp hrnear).1
  have hm := mul_le_mul_of_nonneg_right h48' (Real.sqrt_nonneg a.normSq)
  rw [hq] at hsS
  generalize (2 : ℝ) ^ (-48 : ℤ) = v at *
  generalize (2 : ℝ) ^ (-1075 : ℤ) = η at *
  generalize (2 : ℝ) ^ (-514 : ℤ) = t at *
  linarith

/-- **Normalizing a vector whose squared length is a normal double**: it is scaled by the
reciprocal of its computed length, a positive double; the components of the result are finite
doubles, and its squared length is within `2⁻⁴⁴` of `1`. -/
theorem normalize_of_norm2_normal {a : Vec3} (hn : a.norm2.isFinite = true)
    (hnormal : 2 ^ (-1022 : ℤ) ≤ toReal a.norm2) :
    a.normalize = a.scale (1 / a.norm2.sqrt) ∧ 0 < toReal (1 / a.norm2.sqrt) ∧
      (∀ c ∈ a.normalize.toList, c.isFinite = true) ∧ |a.normalize.normSq - 1| ≤ 2 ^ (-44 : ℤ) := by
  obtain ⟨hc, -, -⟩ := norm2_near hn
  obtain ⟨hr, hr514, -, hrnear⟩ := sqrt_norm2_near hn hnormal
  -- the computed length is at least `2⁻⁵¹⁴`, so its reciprocal is finite
  have hrpos : 0 < toReal a.norm2.sqrt := lt_of_lt_of_le (two_zpow_pos _) hr514
  have hrec := div_roundsTo toReal_one.1 hr hrpos.ne'
  have hf : (1 / a.norm2.sqrt).isFinite = true := by
    refine (hrec.isFinite_of_abs_le (representable_two_pow 514)
      (pow_lt_pow_right₀ (by norm_num) (by norm_num)) ?_).1
    rw [toReal_one.2, abs_of_pos (one_div_pos.mpr hrpos), div_le_iff₀ hrpos]
    calc (1 : ℝ) = 2 ^ 514 * 2 ^ (-514 : ℤ) := by
          rw [← zpow_natCast, ← zpow_add₀ two_ne_zero]; norm_num
      _ ≤ 2 ^ 514 * toReal a.norm2.sqrt := mul_le_mul_of_nonneg_left hr514 (by positivity)
  have hn2 : toReal a.norm2 ≠ 0 := (lt_of_lt_of_le (two_zpow_pos _) hnormal).ne'
  have hnorm : a.normalize = a.scale (1 / a.norm2.sqrt) := by
    unfold normalize
    simp only [beq_zero_eq_false hn hn2, Bool.false_eq_true, if_false]
  obtain ⟨hfpos, -⟩ := reciprocal_bounds hr hrpos hf
  have hFν := reciprocal_mul_near hr hrpos hf (Real.sqrt_nonneg _) hrnear
  -- each component is at most the exact length, so `f · c` is at most `f √S ≤ 2` in size
  have hb : ∀ c ∈ a.toList, |toReal (1 / a.norm2.sqrt) * toReal c| ≤ 2 := by
    intro c hc'
    have hup := (abs_le.mp hFν).2
    have h46 : (2 : ℝ) ^ (-46 : ℤ) ≤ 1 := zpow_le_one_of_nonpos₀ (by norm_num) (by norm_num)
    rw [abs_mul, abs_of_pos hfpos]
    calc toReal (1 / a.norm2.sqrt) * |toReal c|
        ≤ toReal (1 / a.norm2.sqrt) * Real.sqrt a.normSq :=
          mul_le_mul_of_nonneg_left (abs_le_sqrt_normSq a hc') hfpos.le
      _ ≤ 2 := by linarith
  have hlist : a.normalize.toList = a.toList.map fun c => 1 / a.norm2.sqrt * c := by
    rw [hnorm]; rfl
  refine ⟨hnorm, hfpos, ?_, ?_⟩
  · rw [hlist]
    intro c' hc'
    obtain ⟨c, hcm, rfl⟩ := List.mem_map.mp hc'
    exact (mul_isFinite_of_abs_le hf (hc c hcm) (by norm_num : 1 ≤ 1023)
      (by rw [pow_one]; exact hb c hcm)).1
  · -- the components round once more after the reciprocal scaled the length to `1`
    have hN : a.normalize.normSq =
        (a.toList.map fun c => toReal (1 / a.norm2.sqrt * c) ^ 2).sum := by
      rw [normSq_eq_sum, hlist, List.map_map]
      rfl
    have hlen : (a.toList.length : ℝ) = 3 := by simp [toList]
    have hsq : toReal (1 / a.norm2.sqrt) ^ 2 * a.normSq =
        (toReal (1 / a.norm2.sqrt) * Real.sqrt a.normSq) ^ 2 := by
      rw [mul_pow, Real.sq_sqrt (by unfold normSq; positivity)]
    have hscale := sum_sq_scale_near hf hc hb
    rw [← hN, ← normSq_eq_sum, hlen, hsq] at hscale
    exact near_one_of_sq_near hFν (hscale.trans (by linarith [two_zpow_pos (-53)]))

/-- **Dividing a vector by its computed length**, where its squared length is a normal double,
gives finite components whose squares sum to within `2⁻⁴⁴` of `1`: the quotient of the exact
and the computed length is within `2⁻⁴⁶` of `1`, and each quotient rounds once. -/
theorem div_sqrt_norm2_near {a : Vec3} (hn : a.norm2.isFinite = true)
    (hnormal : 2 ^ (-1022 : ℤ) ≤ toReal a.norm2) :
    (∀ c ∈ a.toList, (c / a.norm2.sqrt).isFinite = true) ∧
      |(a.toList.map fun c => toReal (c / a.norm2.sqrt) ^ 2).sum - 1| ≤ 2 ^ (-44 : ℤ) := by
  obtain ⟨hc, -, -⟩ := norm2_near hn
  obtain ⟨hr, hr514, hsS, hrnear⟩ := sqrt_norm2_near hn hnormal
  have hspos : 0 < toReal a.norm2.sqrt := lt_of_lt_of_le (two_zpow_pos _) hr514
  -- the computed length `s` is within `2⁻⁴⁶ s` of the exact one `w`, and so at least `w / 2`
  have hclose : |Real.sqrt a.normSq - toReal a.norm2.sqrt| ≤
      2 ^ (-46 : ℤ) * toReal a.norm2.sqrt ∧ Real.sqrt a.normSq ≤ 2 * toReal a.norm2.sqrt := by
    have h48 : (2 : ℝ) ^ (-48 : ℤ) ≤ 1 / 4 := le_trans (zpow_le_zpow_right₀ (by norm_num)
      (by norm_num : (-48 : ℤ) ≤ -2)) (by norm_num)
    have h46 : (2 : ℝ) ^ (-46 : ℤ) = 4 * 2 ^ (-48 : ℤ) := by
      rw [show (-46 : ℤ) = 2 + -48 by norm_num, zpow_add₀ two_ne_zero]; norm_num
    have hη : (2 : ℝ) ^ (-1075 : ℤ) ≤ 2 ^ (-48 : ℤ) * 2 ^ (-514 : ℤ) := by
      rw [← zpow_add₀ two_ne_zero]
      exact zpow_le_zpow_right₀ (by norm_num) (by norm_num)
    have hvt : (2 : ℝ) ^ (-48 : ℤ) * 2 ^ (-514 : ℤ) ≤ 1 / 4 * 2 ^ (-514 : ℤ) :=
      mul_le_mul_of_nonneg_right h48 (two_zpow_pos _).le
    have h514 : (2 : ℝ) ^ (-514 : ℤ) ≤ 2 ^ (-512 : ℤ) :=
      zpow_le_zpow_right₀ (by norm_num) (by norm_num)
    have hv0 := two_zpow_pos (-48)
    obtain ⟨hl, hu⟩ := abs_le.mp hrnear
    rw [h46, abs_sub_comm]
    generalize Real.sqrt a.normSq = w at *
    generalize toReal a.norm2.sqrt = s at *
    have hw0 : 0 ≤ w := le_trans (two_zpow_pos _).le hsS
    generalize (2 : ℝ) ^ (-48 : ℤ) = v at *
    generalize (2 : ℝ) ^ (-1075 : ℤ) = η at *
    generalize (2 : ℝ) ^ (-512 : ℤ) = p at *
    generalize (2 : ℝ) ^ (-514 : ℤ) = t at *
    have hvw : v * w ≤ w / 4 := by
      have := mul_le_mul_of_nonneg_right h48 hw0
      linarith
    have hws : w ≤ 2 * s := by linarith
    have hvs : v * w ≤ v * (2 * s) := mul_le_mul_of_nonneg_left hws hv0.le
    have hηs : η ≤ v * s := hη.trans (mul_le_mul_of_nonneg_left hr514 hv0.le)
    exact ⟨abs_le.mpr ⟨by linarith, by linarith⟩, hws⟩
  have hb : ∀ c ∈ a.toList, |toReal c / toReal a.norm2.sqrt| ≤ 2 := by
    intro c hc'
    rw [abs_div, abs_of_pos hspos, div_le_iff₀ hspos]
    linarith [abs_le_sqrt_normSq a hc', hclose.2]
  obtain ⟨hf, hsum⟩ := sum_sq_round_near (fun c => c / a.norm2.sqrt)
    (fun c => toReal c / toReal a.norm2.sqrt) (fun c hc' => div_roundsTo (hc c hc') hr hspos.ne') hb
  refine ⟨hf, ?_⟩
  -- the exact quotients' squares sum to `(w / s)²`
  have hsq : (a.toList.map fun c => (toReal c / toReal a.norm2.sqrt) ^ 2).sum =
      (Real.sqrt a.normSq / toReal a.norm2.sqrt) ^ 2 := by
    rw [div_pow, Real.sq_sqrt (by unfold normSq; positivity), normSq_eq_sum,
      div_eq_mul_inv, ← List.sum_map_mul_right]
    simp only [div_eq_mul_inv, mul_pow, inv_pow]
  have hlen : (a.toList.length : ℝ) = 3 := by simp [toList]
  rw [hsq, hlen] at hsum
  have hy : |Real.sqrt a.normSq / toReal a.norm2.sqrt - 1| ≤ 2 ^ (-46 : ℤ) := by
    rw [div_sub_one hspos.ne', abs_div, abs_of_pos hspos, div_le_iff₀ hspos]
    exact hclose.1
  exact near_one_of_sq_near hy (hsum.trans (by linarith [two_zpow_pos (-53)]))

end Vec3

end ArmReach
