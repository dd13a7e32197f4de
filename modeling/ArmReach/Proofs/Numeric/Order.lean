import ArmReach.Proofs.Numeric.Parts
/-!
# Overflow and the order of rounded doubles

A finite double lies below `2 ^ 1024` in magnitude and is what its own value rounds to
(`roundsTo_toReal`); a rounded value that is not finite is the infinity of its sign
(`RoundsTo.unpack_of_isFinite_eq_false`). The infinities sit at the two ends of the order of
doubles, so rounding keeps the order of the values it rounds, overflow included
(`RoundsTo.le_of_le`).

`ceil` leaves NaN and the infinities as they are (`ceil_of_isFinite_eq_false`), and `+∞`
divided by a positive double stays `+∞`: together they let a bound on `⌈x / y⌉` rule out an
overflow in `x` itself.
-/

namespace ArmReach

namespace Binary64

noncomputable section

open Float.Model
open Float.Model.UnpackedFloat (Sign)

/-! ### Finite doubles -/

/-- A finite double lies below `2 ^ 1024` in magnitude. -/
theorem abs_toReal_lt {x : Float} (hx : x.isFinite = true) : |toReal x| < 2 ^ 1024 := by
  have hc := canonical_of_isFinite hx
  unfold toReal
  cases hu : x.toModel.unpack with
  | notANumber | infinity _ => rw [hu] at hc; exact hc.elim
  | zero s => simp [unpackedValue]
  | finite s m e hm =>
    rw [hu] at hc
    exact (abs_value_lt_iff hc).mpr (unpack_finite_shape hu).2

/-- **The largest double**, `(2 ^ 53 - 1) * 2 ^ 971`, bounds every finite one. -/
theorem abs_toReal_le {x : Float} (hx : x.isFinite = true) :
    |toReal x| ≤ 2 ^ 1024 - 2 ^ 971 := by
  have hc := canonical_of_isFinite hx
  have hmax : (0 : ℝ) ≤ 2 ^ 1024 - 2 ^ 971 :=
    sub_nonneg.mpr (pow_le_pow_right₀ (by norm_num) (by norm_num))
  unfold toReal
  cases hu : x.toModel.unpack with
  | notANumber | infinity _ => rw [hu] at hc; exact hc.elim
  | zero s => simpa [unpackedValue] using hmax
  | finite s m e hm =>
    obtain ⟨⟨hm53, -, -⟩, he⟩ := unpack_finite_shape hu
    have hm' : (m : ℝ) ≤ 2 ^ 53 - 1 := by
      have : (m : ℝ) + 1 ≤ 2 ^ 53 := by exact_mod_cast hm53
      linarith
    have habs : |unpackedValue (.finite s m e hm)| = m * 2 ^ e := by
      cases s <;> simp [unpackedValue, abs_of_pos (two_zpow_pos e)]
    rw [habs]
    calc (m : ℝ) * 2 ^ e ≤ (2 ^ 53 - 1) * 2 ^ (971 : ℤ) :=
          mul_le_mul hm' (zpow_le_zpow_right₀ (by norm_num) he) (two_zpow_pos e).le (by norm_num)
      _ = 2 ^ 1024 - 2 ^ 971 := by rw [zpow_ofNat, sub_mul, one_mul, ← pow_add]

/-- A finite double is not infinite. -/
theorem isInf_eq_false_of_isFinite {x : Float} (hx : x.isFinite = true) : x.isInf = false := by
  show x.toModel.unpack.isInf = false
  have hx' : x.toModel.unpack.isFinite = true := hx
  cases hu : x.toModel.unpack <;> rw [hu] at hx' <;> first | rfl | cases hx'

/-- A finite double is what its own value rounds to. -/
theorem roundsTo_toReal {x : Float} (hx : x.isFinite = true) : RoundsTo (toReal x) x := by
  unfold RoundsTo
  rw [round_eq_self (representable_toReal hx), if_pos (abs_toReal_lt hx)]
  exact ⟨hx, rfl⟩

/-- The value of a double with a finite unpacked form. -/
theorem toReal_of_unpack {x : Float} {s : Sign} {m : ℕ} {e : ℤ} {hm : 0 < m}
    (h : x.toModel.unpack = .finite s m e hm) :
    x.isFinite = true ∧ toReal x = signValue s * (m * 2 ^ e) := by
  refine ⟨by show x.toModel.unpack.isFinite = true; rw [h]; rfl, ?_⟩
  unfold toReal
  rw [h]
  rfl

theorem toReal_zero : (0 : Float).isFinite = true ∧ toReal 0 = 0 := by
  have h := toReal_ofNat (n := 0) (by norm_num)
  rw [Nat.cast_zero] at h
  exact h

theorem toReal_one : (1 : Float).isFinite = true ∧ toReal 1 = 1 := by
  have h := toReal_ofNat (n := 1) (by norm_num)
  rw [Nat.cast_one] at h
  exact h

/-- A finite double tests equal to zero exactly when its value is zero. -/
theorem beq_zero_iff {x : Float} (hx : x.isFinite = true) : (x == 0) = true ↔ toReal x = 0 := by
  rw [beq_iff_toReal_eq hx toReal_zero.1, toReal_zero.2]

theorem beq_zero_eq_false {x : Float} (hx : x.isFinite = true) (h : toReal x ≠ 0) :
    (x == 0) = false := by
  rw [Bool.eq_false_iff]
  exact fun hb => h ((beq_zero_iff hx).mp hb)

/-- A rounded value between two reals below `2 ^ 1024` in size is a finite double between
them. -/
theorem RoundsTo.of_round_between {v a b : ℝ} {z : Float} (h : RoundsTo v z)
    (ha1 : |a| < 2 ^ 1024) (hb1 : |b| < 2 ^ 1024) (hlo : a ≤ round v) (hhi : round v ≤ b) :
    z.isFinite = true ∧ a ≤ toReal z ∧ toReal z ≤ b := by
  have hz := h.isFinite_iff.mpr
    (abs_lt.mpr ⟨lt_of_lt_of_le (abs_lt.mp ha1).1 hlo, lt_of_le_of_lt hhi (abs_lt.mp hb1).2⟩)
  rw [h.toReal_eq hz]
  exact ⟨hz, hlo, hhi⟩

/-- Rounding keeps a value between two doubles below `2 ^ 1024` in size between them. -/
theorem RoundsTo.between {v a b : ℝ} {z : Float} (h : RoundsTo v z) (ha : Representable a)
    (hb : Representable b) (ha1 : |a| < 2 ^ 1024) (hb1 : |b| < 2 ^ 1024) (hav : a ≤ v)
    (hvb : v ≤ b) : z.isFinite = true ∧ a ≤ toReal z ∧ toReal z ≤ b :=
  h.of_round_between ha1 hb1 (le_round_of_le ha hav) (round_le_of_le hb hvb)

/-- A power of two up to `2 ^ 1023` is a double. -/
theorem representable_two_pow (k : ℕ) : Representable ((2 : ℝ) ^ k) :=
  ⟨1, k, by norm_num, by omega, by rw [Int.cast_one, one_mul, zpow_natCast]⟩

/-- A bound up to `2 ^ 64` lies below the overflow threshold `2 ^ 1024`. -/
theorem lt_two_pow_1024 {d : ℝ} (hd : d ≤ 2 ^ 64) : d < 2 ^ 1024 :=
  lt_of_le_of_lt hd (pow_lt_pow_right₀ (by norm_num) (by norm_num))

/-- A power of two from `2 ^ -1074` on is a double. -/
theorem representable_two_zpow {e : ℤ} (he : -1074 ≤ e) : Representable ((2 : ℝ) ^ e) :=
  ⟨1, e, by norm_num, he, by rw [Int.cast_one, one_mul]⟩

/-- **Rounding to nearest errs by at most `2⁻⁵³` of the value**, or by `2⁻¹⁰⁷⁵` below the
normal range. -/
theorem abs_round_sub_le_mul (x : ℝ) :
    |round x - x| ≤ 2 ^ (-53 : ℤ) * |x| + 2 ^ (-1075 : ℤ) := by
  have h := abs_round_sub_le x
  rcases eq_or_ne x 0 with rfl | hx
  · rw [round_zero, sub_zero, abs_zero, mul_zero, zero_add]
    exact (two_zpow_pos _).le
  unfold quantumExp at h
  rcases le_total (Int.log 2 |x| - 52) (-1074) with hq | hq
  · -- below the normal range the last place is `2 ^ -1074`
    rw [max_eq_right hq] at h
    calc |round x - x| ≤ 2 ^ (-1074 : ℤ) / 2 := h
      _ = 2 ^ (-1075 : ℤ) := by
          rw [show (-1074 : ℤ) = -1075 + 1 by norm_num, zpow_add₀ two_ne_zero, zpow_one]
          ring
      _ ≤ _ := le_add_of_nonneg_left (mul_nonneg (two_zpow_pos _).le (abs_nonneg x))
  · -- in it the last place is `2 ^ -52` of the leading power of two, at most `|x|`
    rw [max_eq_left hq] at h
    have hlog : (2 : ℝ) ^ Int.log 2 |x| ≤ |x| := by
      have := Int.zpow_log_le_self (b := 2) (by norm_num) (abs_pos.mpr hx)
      rwa [Nat.cast_ofNat] at this
    calc |round x - x| ≤ 2 ^ (Int.log 2 |x| - 52) / 2 := h
      _ = 2 ^ (-53 : ℤ) * 2 ^ Int.log 2 |x| := by
          rw [show Int.log 2 |x| - 52 = -53 + Int.log 2 |x| + 1 by ring, zpow_add₀ two_ne_zero,
            zpow_add₀ two_ne_zero, zpow_one]
          ring
      _ ≤ 2 ^ (-53 : ℤ) * |x| := by gcongr
      _ ≤ _ := le_add_of_nonneg_right (two_zpow_pos _).le

/-- A rounded value at most `B` in size is off by at most `2⁻⁵³ B + 2⁻¹⁰⁷⁵`. -/
theorem RoundsTo.abs_sub_le {v B : ℝ} {z : Float} (h : RoundsTo v z) (hz : z.isFinite = true)
    (hv : |v| ≤ B) : |toReal z - v| ≤ 2 ^ (-53 : ℤ) * B + 2 ^ (-1075 : ℤ) := by
  rw [h.toReal_eq hz]
  calc |round v - v| ≤ 2 ^ (-53 : ℤ) * |v| + 2 ^ (-1075 : ℤ) := abs_round_sub_le_mul v
    _ ≤ 2 ^ (-53 : ℤ) * B + 2 ^ (-1075 : ℤ) :=
      add_le_add (mul_le_mul_of_nonneg_left hv (two_zpow_pos _).le) le_rfl

/-- A rounded value that is finite, of an exact value not below zero, is not below zero and
within `2⁻⁵³` of the value and the least subnormal. -/
theorem RoundsTo.near_of_nonneg {v : ℝ} {z : Float} (h : RoundsTo v z) (hz : z.isFinite = true)
    (hv : 0 ≤ v) : 0 ≤ toReal z ∧ |toReal z - v| ≤ 2 ^ (-53 : ℤ) * v + 2 ^ (-1075 : ℤ) := by
  refine ⟨?_, h.abs_sub_le hz (abs_of_nonneg hv).le⟩
  rw [h.toReal_eq hz]
  exact round_nonneg hv

/-- The absolute error term of rounding is far below the relative one at size `1`. -/
theorem two_zpow_1075_le : (2 : ℝ) ^ (-1075 : ℤ) ≤ 2 ^ (-53 : ℤ) / 4 := by
  rw [show (2 : ℝ) ^ (-53 : ℤ) / 4 = 2 ^ (-55 : ℤ) by
    rw [show (-55 : ℤ) = -53 + -2 by norm_num, zpow_add₀ two_ne_zero]; norm_num]
  exact zpow_le_zpow_right₀ (by norm_num) (by norm_num)

/-- The relative rounding error is far below one. -/
theorem two_zpow_53_le : (2 : ℝ) ^ (-53 : ℤ) ≤ 1 / 1024 := by
  rw [show (1 : ℝ) / 1024 = 2 ^ (-10 : ℤ) by norm_num]
  exact zpow_le_zpow_right₀ (by norm_num) (by norm_num)

/-- The powers of two of the error bounds, as multiples of `2⁻⁵³`. -/
theorem two_zpow_eq_mul (k : ℕ) : (2 : ℝ) ^ (-53 + k : ℤ) = 2 ^ k * 2 ^ (-53 : ℤ) := by
  rw [zpow_add₀ two_ne_zero, zpow_natCast, mul_comm]

/-- A rounded value bounded by a double below `2 ^ 1024` is finite, and bounded by it. -/
theorem RoundsTo.isFinite_of_abs_le {v d : ℝ} {z : Float} (h : RoundsTo v z)
    (hd : Representable d) (hd1 : d < 2 ^ 1024) (hv : |v| ≤ d) :
    z.isFinite = true ∧ |toReal z| ≤ d := by
  obtain ⟨hlo, hhi⟩ := abs_le.mp hv
  have hup : round v ≤ d := round_le_of_le hd hhi
  have hdown : round (-v) ≤ d := round_le_of_le hd (by linarith)
  rw [round_neg] at hdown
  have habs : |round v| ≤ d := abs_le.mpr ⟨by linarith, hup⟩
  have hz := h.isFinite_iff.mpr (lt_of_le_of_lt habs hd1)
  exact ⟨hz, by rw [h.toReal_eq hz]; exact habs⟩

/-- A product of finite doubles at most `2 ^ k` in size, for `k ≤ 1023`, is a finite double
as small: the double nearest the product. -/
theorem mul_isFinite_of_abs_le {x y : Float} {k : ℕ} (hx : x.isFinite = true)
    (hy : y.isFinite = true) (hk : k ≤ 1023) (h : |toReal x * toReal y| ≤ 2 ^ k) :
    (x * y).isFinite = true ∧ toReal (x * y) = round (toReal x * toReal y) ∧
      |toReal (x * y)| ≤ 2 ^ k := by
  have hm := mul_roundsTo hx hy
  obtain ⟨hf, habs⟩ := hm.isFinite_of_abs_le (representable_two_pow k)
    (pow_lt_pow_right₀ (by norm_num) (by omega)) h
  exact ⟨hf, hm.toReal_eq hf, habs⟩

/-- A rounded value between two doubles, the upper one below `2 ^ 1024` and the lower one not
below its negative, is a finite double between them. -/
theorem RoundsTo.bounds {v a d : ℝ} {z : Float} (h : RoundsTo v z) (ha : Representable a)
    (hd : Representable d) (hd1 : d < 2 ^ 1024) (had : -d ≤ a) (hav : a ≤ v) (hvd : v ≤ d) :
    z.isFinite = true ∧ a ≤ toReal z ∧ toReal z ≤ d := by
  obtain ⟨hz, -⟩ := h.isFinite_of_abs_le hd hd1 (abs_le.mpr ⟨by linarith, hvd⟩)
  rw [h.toReal_eq hz]
  exact ⟨hz, le_round_of_le ha hav, round_le_of_le hd hvd⟩

/-- **A value a little past the largest double still rounds to a finite one**: it is below
`2 ^ 1024`, so rounding moves it by at most half of `2 ^ 971`. -/
theorem RoundsTo.isFinite_of_abs_le_add {v : ℝ} {z : Float} (h : RoundsTo v z)
    (hv : |v| ≤ 2 ^ 1024 - 2 ^ 971 + 2 ^ 969) : z.isFinite = true := by
  apply h.isFinite_iff.mpr
  by_cases h0 : v = 0
  · rw [h0, Binary64.round_zero, abs_zero]
    positivity
  have hr := abs_round_sub_le v
  have hsub := abs_sub_abs_le_abs_sub (round v) v
  have hlt : |v| < 2 ^ (971 + 53 : ℤ) := by
    rw [show (971 + 53 : ℤ) = ((1024 : ℕ) : ℤ) by norm_num, zpow_natCast]
    refine lt_of_le_of_lt hv ?_
    rw [sub_add, sub_lt_self_iff, sub_pos]
    exact pow_lt_pow_right₀ (by norm_num) (by norm_num)
  have hq : (2 : ℝ) ^ quantumExp v ≤ 2 ^ (971 : ℤ) :=
    zpow_le_zpow_right₀ (by norm_num) (quantumExp_le_of_abs_lt h0 (by norm_num) hlt)
  rw [zpow_ofNat] at hq
  -- every power of two here is a multiple of `t = 2 ^ 969`
  have h971 : (2 : ℝ) ^ 971 = 4 * 2 ^ 969 := by
    rw [show (4 : ℝ) = 2 ^ 2 by norm_num, ← pow_add]
  have h1024 : (2 : ℝ) ^ 1024 = 2 ^ 55 * 2 ^ 969 := by rw [← pow_add]
  have hpos : (0 : ℝ) < 2 ^ 969 := by positivity
  rw [h971, h1024] at hv
  rw [h971] at hq
  rw [h1024]
  clear hlt h971 h1024
  generalize (2 : ℝ) ^ 969 = t at *
  linarith

/-! ### Overflow -/

/-- A rounded value that is not finite is the infinity of the value's sign. -/
theorem RoundsTo.unpack_of_isFinite_eq_false {v : ℝ} {z : Float} (h : RoundsTo v z)
    (hz : z.isFinite = false) :
    z.toModel.unpack = .infinity (if 0 < v then .positive else .negative) := by
  have hv : ¬ |round v| < 2 ^ 1024 := fun hv => by
    rw [h.isFinite_iff.mpr hv] at hz
    cases hz
  unfold RoundsTo at h
  rwa [if_neg hv] at h

/-- A value not below zero overflows only to `+∞`. -/
theorem RoundsTo.unpack_of_nonneg {v : ℝ} {z : Float} (h : RoundsTo v z) (hv : 0 ≤ v)
    (hz : z.isFinite = false) : z.toModel.unpack = .infinity .positive := by
  rw [h.unpack_of_isFinite_eq_false hz]
  rcases hv.lt_or_eq with hv | hv
  · rw [if_pos hv]
  · -- zero rounds to zero, which is finite
    have h0 : |round v| < 2 ^ 1024 := by rw [← hv, round_zero, abs_zero]; norm_num
    rw [h.isFinite_iff.mpr h0] at hz
    cases hz

/-- `+∞` divided by a positive double is `+∞`. -/
theorem unpack_div_of_posInf {x y : Float} (hx : x.toModel.unpack = .infinity .positive)
    (hy : y.isFinite = true) (hpos : 0 < toReal y) :
    (x / y).toModel.unpack = .infinity .positive := by
  have hc := canonical_of_isFinite hy
  unfold toReal at hpos
  show (Float.Model.pack (UnpackedFloat.div .binary64 x.toModel.unpack y.toModel.unpack)).unpack = _
  rw [hx]
  cases hu : y.toModel.unpack with
  | notANumber | infinity _ => rw [hu] at hc; exact hc.elim
  | zero s =>
    rw [hu] at hpos
    exact absurd hpos (lt_irrefl 0)
  | finite s m e hm =>
    cases s with
    | negative =>
      rw [hu] at hpos
      have := magnitude_pos m e hm
      simp only [unpackedValue, signValue_negative] at hpos
      linarith
    | positive =>
      rw [show UnpackedFloat.div .binary64 (.infinity .positive) (.finite .positive m e hm) =
        .infinity .positive from rfl]
      rfl

/-- A finite nonzero double divided by a zero is infinite: a finite quotient has a nonzero
divisor. -/
theorem toReal_ne_zero_of_isFinite_div {x y : Float} (hx : x.isFinite = true)
    (hx0 : toReal x ≠ 0) (hy : y.isFinite = true) (h : (x / y).isFinite = true) :
    toReal y ≠ 0 := by
  intro hy0
  have hcx := canonical_of_isFinite hx
  have hcy := canonical_of_isFinite hy
  have h' : (Float.Model.pack
      (UnpackedFloat.div .binary64 x.toModel.unpack y.toModel.unpack)).unpack.isFinite = true := h
  unfold toReal at hx0 hy0
  cases hu : x.toModel.unpack with
  | notANumber | infinity _ => rw [hu] at hcx; exact hcx.elim
  | zero s => rw [hu] at hx0; exact hx0 rfl
  | finite s m e hm =>
    cases hv : y.toModel.unpack with
    | notANumber | infinity _ => rw [hv] at hcy; exact hcy.elim
    | finite s' m' e' hm' =>
      rw [hv] at hy0
      have := magnitude_pos m' e' hm'
      cases s' <;> simp only [unpackedValue, signValue_positive, signValue_negative] at hy0 <;>
        linarith
    | zero s' =>
      rw [hu, hv] at h'
      have hdiv : UnpackedFloat.div .binary64 (.finite s m e hm) (.zero s') = .infinity (s / s') :=
        rfl
      rw [hdiv] at h'
      cases s <;> cases s' <;> cases h'

/-- An all-ones exponent field is what makes a double NaN or infinite. -/
theorem exponentField_eq_of_isFinite_eq_false {x : Float} (hx : x.isFinite = false) :
    exponentField x.toBits.toNat = 2047 := by
  by_contra hne
  have hw : x.toBits.toNat = x.toModel.toBits.toBitVec.toNat := rfl
  have hE := toNat_unpackExponent x.toModel.toBits.toBitVec
  have hmax : @UnpackedFloat.unpackExponent .binary64 x.toModel.toBits.toBitVec ≠ -1#_ :=
    fun h => hne (by rw [hw, ← hE, h]; rfl)
  have hfin : (UnpackedFloat.unpack .binary64 x.toModel.toBits.toBitVec).isFinite = true := by
    unfold UnpackedFloat.unpack
    dsimp only
    rw [if_neg hmax]
    split
    · split <;> rfl
    · rfl
  have hx' : (UnpackedFloat.unpack .binary64 x.toModel.toBits.toBitVec).isFinite = false := hx
  rw [hfin] at hx'
  cases hx'

/-- `ceil` leaves NaN and the infinities as they are. -/
theorem ceil_of_isFinite_eq_false {x : Float} (hx : x.isFinite = false) : ceil x = x := by
  have hE := exponentField_eq_of_isFinite_eq_false hx
  unfold ceil classify
  dsimp only
  rw [if_pos hE]
  by_cases hF : fractionField x.toBits.toNat = 0
  · rw [if_pos hF]
  · rw [if_neg hF]

/-- A double whose `ceil` is finite is finite. -/
theorem isFinite_of_isFinite_ceil {x : Float} (h : (ceil x).isFinite = true) :
    x.isFinite = true := by
  cases hx : x.isFinite
  · rw [ceil_of_isFinite_eq_false hx, hx] at h
    exact h
  · rfl

/-! ### Order -/

/-- Every double but NaN is at most `+∞`. -/
theorem le_of_unpack_eq_posInf {x y : Float} (hx : x.isNaN = false)
    (hy : y.toModel.unpack = .infinity .positive) : x ≤ y := by
  show Float.le x y = true
  unfold Float.le
  simp only [decide_eq_true_eq]
  show (x.toModel.unpack.compare y.toModel.unpack).any (·.isLE) = true
  have hx' : x.toModel.unpack.isNaN = false := hx
  rw [hy]
  cases hu : x.toModel.unpack with
  | notANumber => rw [hu] at hx'; cases hx'
  | infinity s => cases s <;> rfl
  | zero s => cases s <;> rfl
  | finite s m e hm => cases s <;> rfl

/-- `-∞` is at most every double but NaN. -/
theorem le_of_unpack_eq_negInf {x y : Float} (hx : x.toModel.unpack = .infinity .negative)
    (hy : y.isNaN = false) : x ≤ y := by
  show Float.le x y = true
  unfold Float.le
  simp only [decide_eq_true_eq]
  show (x.toModel.unpack.compare y.toModel.unpack).any (·.isLE) = true
  have hy' : y.toModel.unpack.isNaN = false := hy
  rw [hx]
  cases hu : y.toModel.unpack with
  | notANumber => rw [hu] at hy'; cases hy'
  | infinity s => cases s <;> rfl
  | zero s => cases s <;> rfl
  | finite s m e hm => cases s <;> rfl

/-- Every finite double is below `+∞`. -/
theorem lt_of_unpack_eq_posInf {x y : Float} (hx : x.isFinite = true)
    (hy : y.toModel.unpack = .infinity .positive) : x < y := by
  show Float.lt x y = true
  unfold Float.lt
  simp only [decide_eq_true_eq]
  show (x.toModel.unpack.compare y.toModel.unpack == some .lt) = true
  have hx' : x.toModel.unpack.isFinite = true := hx
  rw [hy]
  cases hu : x.toModel.unpack with
  | notANumber | infinity _ => rw [hu] at hx'; cases hx'
  | zero s => cases s <;> rfl
  | finite s m e hm => cases s <;> rfl

/-- A double between two finite doubles is finite: NaN compares with nothing, and the
infinities lie beyond every finite double. -/
theorem isFinite_of_le_of_le {a x b : Float} (ha : a.isFinite = true) (hb : b.isFinite = true)
    (h1 : a ≤ x) (h2 : x ≤ b) : x.isFinite = true := by
  have h1' : Float.le a x = true := h1
  have h2' : Float.le x b = true := h2
  unfold Float.le at h1' h2'
  simp only [decide_eq_true_eq] at h1' h2'
  change (a.toModel.unpack.compare x.toModel.unpack).any (·.isLE) = true at h1'
  change (x.toModel.unpack.compare b.toModel.unpack).any (·.isLE) = true at h2'
  have ha' : a.toModel.unpack.isFinite = true := ha
  have hb' : b.toModel.unpack.isFinite = true := hb
  show x.toModel.unpack.isFinite = true
  -- a finite `a` rules out NaN and `-∞` above it, a finite `b` rules out `+∞` below it
  cases hx : x.toModel.unpack with
  | zero s => rfl
  | finite s m e hm => rfl
  | notANumber =>
    rw [hx] at h1'
    cases hu : a.toModel.unpack <;> rw [hu] at ha' h1' <;> cases ha' <;>
      simp [UnpackedFloat.compare] at h1'
  | infinity s =>
    cases s with
    | negative =>
      rw [hx] at h1'
      cases hu : a.toModel.unpack <;> rw [hu] at ha' h1' <;> cases ha' <;>
        simp [UnpackedFloat.compare] at h1'
    | positive =>
      rw [hx] at h2'
      cases hu : b.toModel.unpack <;> rw [hu] at hb' h2' <;> cases hb' <;>
        simp [UnpackedFloat.compare] at h2'

/-! ### Order of rounded values in any format -/

section Format

variable {p : ℕ} {emin : ℤ} {emax : ℕ} {v w : ℝ} {z z' : Float}

theorem RoundsToIn.isFinite_iff (h : RoundsToIn p emin emax v z) :
    z.isFinite = true ↔ |roundTo p emin v| < 2 ^ emax := by
  unfold RoundsToIn at h
  by_cases hv : |roundTo p emin v| < 2 ^ emax
  · rw [if_pos hv] at h
    exact ⟨fun _ => hv, fun _ => h.1⟩
  · rw [if_neg hv] at h
    refine ⟨fun hz => ?_, fun hz => absurd hz hv⟩
    have : z.toModel.unpack.isFinite = true := hz
    rw [h] at this
    cases this

theorem RoundsToIn.toReal_eq (h : RoundsToIn p emin emax v z) (hz : z.isFinite = true) :
    toReal z = roundTo p emin v := by
  have hv := h.isFinite_iff.mp hz
  unfold RoundsToIn at h
  rw [if_pos hv] at h
  exact h.2

theorem RoundsToIn.unpack_of_isFinite_eq_false (h : RoundsToIn p emin emax v z)
    (hz : z.isFinite = false) :
    z.toModel.unpack = .infinity (if 0 < v then .positive else .negative) := by
  have hv : ¬ |roundTo p emin v| < 2 ^ emax := fun hv => by
    rw [h.isFinite_iff.mpr hv] at hz
    cases hz
  unfold RoundsToIn at h
  rwa [if_neg hv] at h

/-- **Rounding keeps the order of the values it rounds**, overflow included: the rounding of
a value is at most the rounding of any larger value. -/
theorem RoundsToIn.le_of_le (hp : 0 < p) (hz : RoundsToIn p emin emax v z)
    (hz' : RoundsToIn p emin emax w z') (h : v ≤ w) : z ≤ z' := by
  have hr := @roundTo_mono p emin hp v w h
  cases hf : z.isFinite <;> cases hf' : z'.isFinite
  · -- both overflowed: `-∞` is at the bottom, and `+∞` from `v` is `+∞` from `w` too
    have hzu := hz.unpack_of_isFinite_eq_false hf
    have hzu' := hz'.unpack_of_isFinite_eq_false hf'
    by_cases hv : 0 < v
    · rw [if_pos hv] at hzu
      rw [if_pos (lt_of_lt_of_le hv h)] at hzu'
      exact le_of_unpack_eq_posInf (by show z.toModel.unpack.isNaN = false; rw [hzu]; rfl) hzu'
    · rw [if_neg hv] at hzu
      exact le_of_unpack_eq_negInf hzu
        (by show z'.toModel.unpack.isNaN = false; rw [hzu']; split <;> rfl)
  · -- only `v` overflowed, below the rounding of `w`: to `-∞`
    have hw := hz'.isFinite_iff.mp hf'
    have hv : ¬ |roundTo p emin v| < 2 ^ emax := fun hv => by
      rw [hz.isFinite_iff.mpr hv] at hf
      cases hf
    have hneg : roundTo p emin v < 0 := by
      by_contra h0
      rw [abs_of_nonneg (not_lt.mp h0)] at hv
      exact hv (lt_of_le_of_lt hr (abs_lt.mp hw).2)
    have hzu := hz.unpack_of_isFinite_eq_false hf
    rw [if_neg (fun hv0 => absurd (roundTo_nonneg hv0.le) (not_le.mpr hneg))] at hzu
    exact le_of_unpack_eq_negInf hzu (isNaN_eq_false_of_isFinite hf')
  · -- only `w` overflowed, above the rounding of `v`: to `+∞`
    have hv := hz.isFinite_iff.mp hf
    have hw : ¬ |roundTo p emin w| < 2 ^ emax := fun hw => by
      rw [hz'.isFinite_iff.mpr hw] at hf'
      cases hf'
    have hpos : 0 < roundTo p emin w := by
      by_contra h0
      rw [abs_of_nonpos (not_lt.mp h0)] at hw
      exact hw (neg_lt.mpr (lt_of_lt_of_le (abs_lt.mp hv).1 hr))
    have hw0 : 0 < w := by
      by_contra h0
      exact absurd (roundTo_nonpos (not_lt.mp h0)) (not_le.mpr hpos)
    have hzu' := hz'.unpack_of_isFinite_eq_false hf'
    rw [if_pos hw0] at hzu'
    exact le_of_unpack_eq_posInf (isNaN_eq_false_of_isFinite hf) hzu'
  · rw [le_iff_toReal_le hf hf', hz.toReal_eq hf, hz'.toReal_eq hf']
    exact hr

end Format

/-- **Rounding to doubles keeps the order of the values it rounds**, overflow included. -/
theorem RoundsTo.le_of_le {v w : ℝ} {z z' : Float} (hz : RoundsTo v z) (hz' : RoundsTo w z')
    (h : v ≤ w) : z ≤ z' :=
  (roundsTo_iff_roundsToIn.mp hz).le_of_le (by norm_num) (roundsTo_iff_roundsToIn.mp hz') h

end

end Binary64

end ArmReach
