import ArmReach.Proofs.Numeric.Order
import ArmReach.Workspace.Grid
/-!
# The sizes and the order of sampling grids

`checkBox` refuses a box before any grid is built, and what it lets through bounds the grids
`gridPoints` builds from it, through every rounding on the way.

* `grids_fit_of_checkBox`: an accepted box has a finite positive step and, on every axis,
  finite bounds in order, a span that does not overflow, a count `⌈span / step⌉` of at most
  `2³¹ - 1`, and a grid whose length is its double `⌈span / step - 10⁻⁹⌉`, converted exactly
  and at most that count (`AxisFits`). The product of the three lengths is at most `2³¹ - 1`
  too, although the check multiplies the counts as doubles (`mul_le_of_not_gt`).
* `gridPoints_sorted_between`: the grid of every axis of an accepted box is non-decreasing,
  starts at `lo`, and lies between `lo` and `lo + (hi - lo)` as doubles, so at most at `hi`
  when the span is exact (`SortedBetween`). It need not be strictly increasing nor stay below
  `hi`: far from zero its points round onto each other and onto `hi`
  (`gridPoints_repeats_far_from_zero`).

The grid's points are `lo` plus the double of `i * step`; every index is at most the span
over the step (`index_mul_step_le`), so each point is a rounding of a value between `lo` and
`lo` plus the span (`point_roundsTo`), and rounding keeps order (`RoundsTo.le_of_le`).
-/

namespace ArmReach

namespace Workspace

open Binary64

/-! ### The constants and the checks -/

theorem isFinite_eq (x : Float) : isFinite x = x.isFinite := by
  show (!x.toModel.unpack.isNaN && !x.toModel.unpack.isInf) = x.toModel.unpack.isFinite
  cases x.toModel.unpack <;> rfl

theorem toReal_maxGridPoints : maxGridPoints.isFinite = true ∧ toReal maxGridPoints = 2147483647 := by
  obtain ⟨hf, hv⟩ := toReal_ofNat (n := 2147483647) (by norm_num)
  exact ⟨hf, by rw [show maxGridPoints = Float.ofNat 2147483647 from rfl, hv]; norm_num⟩

/-- The double nearest `10⁻⁹`. -/
theorem gridEpsilon_unpack :
    gridEpsilon.toModel.unpack = .finite .positive 4835703278458517 (-82) (by decide) :=
  rfl

theorem toReal_gridEpsilon :
    gridEpsilon.isFinite = true ∧ 0 < toReal gridEpsilon ∧ toReal gridEpsilon < 1 := by
  have hv : toReal gridEpsilon = 4835703278458517 * 2 ^ (-82 : ℤ) := by
    unfold toReal
    rw [gridEpsilon_unpack]
    simp [unpackedValue]
  refine ⟨by show gridEpsilon.toModel.unpack.isFinite = true; rw [gridEpsilon_unpack]; rfl, ?_, ?_⟩
  · rw [hv]
    positivity
  · rw [hv, zpow_neg, zpow_ofNat]
    norm_num

/-- What an accepted axis has passed: finite bounds, not in reverse order, and a count not
above `2³¹ - 1`; the product it hands on is the product before it times its count. -/
theorem checkAxis_eq_ok {step total lo hi t : Float} {name : String}
    (h : checkAxis step total name lo hi = .ok t) :
    lo.isFinite = true ∧ hi.isFinite = true ∧ ¬ lo > hi ∧
      ¬ Binary64.ceil ((hi - lo) / step) > maxGridPoints ∧
      t = total * Binary64.ceil ((hi - lo) / step) := by
  unfold checkAxis at h
  split at h
  · cases h
  rename_i hfin
  split at h
  · cases h
  rename_i hord
  dsimp only at h
  split at h
  · cases h
  rename_i hcount
  cases h
  rw [isFinite_eq, isFinite_eq] at hfin
  simp only [Bool.or_eq_true, Bool.not_eq_true', not_or, Bool.not_eq_false] at hfin
  exact ⟨hfin.1, hfin.2, hord, hcount, rfl⟩

/-- A chain of checks that succeeds has a first step that succeeds. -/
theorem exists_of_bind_eq_ok {ε α β : Type} {x : Except ε α} {f : α → Except ε β} {c : β}
    (h : (x >>= f) = .ok c) : ∃ b, x = .ok b ∧ f b = .ok c := by
  cases x with
  | error e => cases h
  | ok b => exact ⟨b, rfl, h⟩

/-- What an accepted box has passed: a finite step above zero, the three axes in turn, and a
product of the counts not above `2³¹ - 1`. -/
theorem checkBox_eq_ok {lo hi : Vec3} {step : Float} (h : checkBox lo hi step = .ok ()) :
    step.isFinite = true ∧ 0 < toReal step ∧ ∃ tx ty tz : Float,
      checkAxis step 1 "x" lo.x hi.x = .ok tx ∧ checkAxis step tx "y" lo.y hi.y = .ok ty ∧
        checkAxis step ty "z" lo.z hi.z = .ok tz ∧ ¬ tz > maxGridPoints := by
  unfold checkBox at h
  split at h
  · cases h
  rename_i hstep
  simp only [Bool.or_eq_true, not_or, Bool.not_eq_true, decide_eq_true_eq] at hstep
  obtain ⟨⟨hnan, hinf⟩, hle⟩ := hstep
  have hfin : step.isFinite = true := by
    rw [← isFinite_eq]
    unfold isFinite
    rw [hnan, hinf]
    rfl
  have hpos : 0 < toReal step := by
    rw [le_iff_toReal_le hfin toReal_zero.1, toReal_zero.2] at hle
    exact not_le.mp hle
  refine ⟨hfin, hpos, ?_⟩
  dsimp only at h
  split at h
  · cases h
  rename_i total hcounted
  split at h
  · cases h
  rename_i htotal
  obtain ⟨tx, hx, hrest⟩ := exists_of_bind_eq_ok hcounted
  obtain ⟨ty, hy, hz⟩ := exists_of_bind_eq_ok hrest
  exact ⟨tx, ty, total, hx, hy, hz, htotal⟩

/-! ### One axis -/

/-- A finite double the check does not find above `maxGridPoints` is at most `2³¹ - 1`. -/
theorem toReal_le_of_not_gt {x : Float} (hx : x.isFinite = true) (h : ¬ x > maxGridPoints) :
    toReal x ≤ 2147483647 := by
  have hlt : ¬ toReal maxGridPoints < toReal x :=
    fun hlt => h ((lt_iff_toReal_lt toReal_maxGridPoints.1 hx).mpr hlt)
  rw [toReal_maxGridPoints.2] at hlt
  exact not_lt.mp hlt

/-- A quotient whose count passes the bound is not `+∞`: `ceil` would keep it, above the
bound. -/
theorem ne_posInf_of_not_gt {w : Float} (h : ¬ Binary64.ceil w > maxGridPoints) :
    w.toModel.unpack ≠ .infinity .positive := by
  intro hw
  have hfin : w.isFinite = false := by
    show w.toModel.unpack.isFinite = false
    rw [hw]
    rfl
  rw [ceil_of_isFinite_eq_false hfin] at h
  exact h (lt_of_unpack_eq_posInf toReal_maxGridPoints.1 hw)

/-- **The span and the quotient of an accepted axis are finite**: an overflow to `+∞` in
either would make the count `+∞`, above the bound. -/
theorem span_finite_of_not_gt {step lo hi : Float} (hstep : step.isFinite = true)
    (hpos : 0 < toReal step) (hlo : lo.isFinite = true) (hhi : hi.isFinite = true)
    (hle : toReal lo ≤ toReal hi) (hcount : ¬ Binary64.ceil ((hi - lo) / step) > maxGridPoints) :
    (hi - lo).isFinite = true ∧ ((hi - lo) / step).isFinite = true := by
  have hs := sub_roundsTo hhi hlo
  have hspan : (hi - lo).isFinite = true := by
    by_contra hne
    have hinf := hs.unpack_of_nonneg (sub_nonneg.mpr hle) (Bool.eq_false_iff.mpr hne)
    exact ne_posInf_of_not_gt hcount (unpack_div_of_posInf hinf hstep hpos)
  refine ⟨hspan, ?_⟩
  by_contra hne
  have hq := div_roundsTo hspan hstep hpos.ne'
  have hnonneg : 0 ≤ toReal (hi - lo) / toReal step := by
    rw [hs.toReal_eq hspan]
    exact div_nonneg (round_nonneg (sub_nonneg.mpr hle)) hpos.le
  exact ne_posInf_of_not_gt hcount (hq.unpack_of_nonneg hnonneg (Bool.eq_false_iff.mpr hne))

/-- Taking `10⁻⁹` off a quotient from `0` to `2³¹` gives a finite double above `-1` and not
above the quotient. -/
theorem sub_gridEpsilon_bounds {q : Float} (hq : q.isFinite = true) (h0 : 0 ≤ toReal q)
    (h1 : toReal q ≤ 2 ^ 31) :
    (q - gridEpsilon).isFinite = true ∧ -1 < toReal (q - gridEpsilon) ∧
      toReal (q - gridEpsilon) ≤ toReal q := by
  obtain ⟨hef, hepos, hlt1⟩ := toReal_gridEpsilon
  have he := sub_roundsTo hq hef
  have hbound : |toReal q - toReal gridEpsilon| ≤ 2 ^ 31 :=
    abs_le.mpr ⟨by linarith, by linarith⟩
  obtain ⟨hfin, -⟩ := he.isFinite_of_abs_le (representable_two_pow 31)
    (pow_lt_pow_right₀ (by norm_num) (by norm_num)) hbound
  refine ⟨hfin, ?_, ?_⟩
  · -- the rounding of `q - ε` is at least that of `-ε`, which is `-ε` itself
    have hlow : Binary64.round (-toReal gridEpsilon) ≤
        Binary64.round (toReal q - toReal gridEpsilon) :=
      round_mono (by linarith)
    rw [round_neg, round_eq_self (representable_toReal hef)] at hlow
    rw [he.toReal_eq hfin]
    linarith
  · rw [he.toReal_eq hfin]
    exact round_le_of_le (representable_toReal hq) (by linarith)

/-- The grid is the map of its indices. -/
theorem gridPoints_eq_map_range (lo hi step : Float) :
    gridPoints lo hi step =
      (List.range (gridPoints lo hi step).length).map fun i => lo + i.toFloat * step := by
  unfold gridPoints
  dsimp only
  split
  · rfl
  · rw [List.length_map, List.length_range]

/-- **The grid has as many points as its count**: a finite count that holds a natural number
converts to that number. -/
theorem length_gridPoints {lo hi step : Float} {N : ℕ}
    (hn : (Binary64.ceil ((hi - lo) / step - gridEpsilon)).isFinite = true)
    (hN : toReal (Binary64.ceil ((hi - lo) / step - gridEpsilon)) = N) (hN' : N < 2 ^ 64) :
    (gridPoints lo hi step).length = N := by
  unfold gridPoints
  dsimp only
  split
  · rename_i hle
    rw [le_iff_toReal_le hn toReal_zero.1, toReal_zero.2, hN] at hle
    rw [List.length_nil]
    exact_mod_cast (le_antisymm hle (Nat.cast_nonneg N)).symm
  · rw [List.length_map, List.length_range, toNat_toUInt64 hn hN hN']

/-- The sizes of one axis of an accepted box. `perAxis` is the count `⌈(hi - lo) / step⌉`
that the check bounds; the grid's length is the double `⌈(hi - lo) / step - 10⁻⁹⌉`, converted
exactly, and at most that count. -/
structure AxisFits (step lo hi : Float) : Prop where
  finite_lo : lo.isFinite = true
  finite_hi : hi.isFinite = true
  le : toReal lo ≤ toReal hi
  finite_span : (hi - lo).isFinite = true
  quotient_nonneg : 0 ≤ toReal ((hi - lo) / step)
  finite_perAxis : (Binary64.ceil ((hi - lo) / step)).isFinite = true
  perAxis_eq : toReal (Binary64.ceil ((hi - lo) / step)) = ⌈toReal ((hi - lo) / step)⌉
  perAxis_le : toReal (Binary64.ceil ((hi - lo) / step)) ≤ 2147483647
  finite_pointCount : (Binary64.ceil ((hi - lo) / step - gridEpsilon)).isFinite = true
  length_eq :
    ((gridPoints lo hi step).length : ℝ) = toReal (Binary64.ceil ((hi - lo) / step - gridEpsilon))
  length_le : ((gridPoints lo hi step).length : ℝ) ≤ toReal (Binary64.ceil ((hi - lo) / step))

/-- **An accepted axis fits**: its bounds and span are finite, its count is at most
`2³¹ - 1`, and its grid's length is the count of points, converted exactly. -/
theorem axisFits_of_checkAxis {step total lo hi t : Float} {name : String}
    (hstep : step.isFinite = true) (hpos : 0 < toReal step)
    (h : checkAxis step total name lo hi = .ok t) : AxisFits step lo hi := by
  obtain ⟨hlo, hhi, hord, hcount, -⟩ := checkAxis_eq_ok h
  have hle : toReal lo ≤ toReal hi :=
    not_lt.mp fun hlt => hord ((lt_iff_toReal_lt hhi hlo).mpr hlt)
  obtain ⟨hspan, hq⟩ := span_finite_of_not_gt hstep hpos hlo hhi hle hcount
  have hs0 : 0 ≤ toReal (hi - lo) := by
    rw [(sub_roundsTo hhi hlo).toReal_eq hspan]
    exact round_nonneg (sub_nonneg.mpr hle)
  have hq0 : 0 ≤ toReal ((hi - lo) / step) := by
    rw [(div_roundsTo hspan hstep hpos.ne').toReal_eq hq]
    exact round_nonneg (div_nonneg hs0 hpos.le)
  -- the count `⌈q⌉` the check bounds
  obtain ⟨hcf, hcv⟩ := toReal_ceil hq
  have hcle := toReal_le_of_not_gt hcf hcount
  have hq1 : toReal ((hi - lo) / step) ≤ 2 ^ 31 :=
    calc toReal ((hi - lo) / step) ≤ ⌈toReal ((hi - lo) / step)⌉ := Int.le_ceil _
      _ ≤ 2 ^ 31 := by rw [← hcv]; linarith
  -- the count of points `⌈q - ε⌉`, a natural number not above `⌈q⌉`
  obtain ⟨hef, helo, hehi⟩ := sub_gridEpsilon_bounds hq hq0 hq1
  obtain ⟨hnf, hnv⟩ := toReal_ceil hef
  have hn0 : 0 ≤ ⌈toReal ((hi - lo) / step - gridEpsilon)⌉ :=
    Int.le_ceil_iff.mpr (by rw [Int.cast_zero, zero_sub]; exact helo)
  have hnle : ⌈toReal ((hi - lo) / step - gridEpsilon)⌉ ≤ ⌈toReal ((hi - lo) / step)⌉ :=
    Int.ceil_mono hehi
  have hN : toReal (Binary64.ceil ((hi - lo) / step - gridEpsilon)) =
      (⌈toReal ((hi - lo) / step - gridEpsilon)⌉.toNat : ℕ) := by
    rw [hnv, ← Int.cast_natCast, Int.toNat_of_nonneg hn0]
  have hcq : ⌈toReal ((hi - lo) / step)⌉ ≤ 2147483647 := by
    rw [hcv] at hcle
    exact_mod_cast hcle
  have hlen := length_gridPoints hnf hN (by omega)
  refine ⟨hlo, hhi, hle, hspan, hq0, hcf, hcv, hcle, hnf, ?_, ?_⟩
  · rw [hlen, hN]
  · rw [hlen, ← hN, hnv, hcv]
    exact_mod_cast hnle

/-- The count of an accepted axis is a natural number. -/
theorem AxisFits.exists_perAxis_eq {step lo hi : Float} (h : AxisFits step lo hi) :
    ∃ N : ℕ, toReal (Binary64.ceil ((hi - lo) / step)) = N :=
  ⟨⌈toReal ((hi - lo) / step)⌉.toNat, by
    rw [h.perAxis_eq, ← Int.cast_natCast, Int.toNat_of_nonneg (Int.ceil_nonneg h.quotient_nonneg)]⟩

/-! ### The product of the counts -/

/-- Rounding a product of naturals twice does not bring it back below a power of two that it
reaches. -/
theorem two_pow_le_round_mul {a b c k : ℕ} (hk : k < 53) (h : 2 ^ k ≤ a * b * c) :
    (2 : ℝ) ^ k ≤ Binary64.round (Binary64.round ((a : ℝ) * b) * c) := by
  have hp : Representable ((2 : ℝ) ^ k) := representable_two_pow k
  have hc : 1 ≤ c := by
    rcases Nat.eq_zero_or_pos c with rfl | hc
    · simp at h
    · exact hc
  apply le_round_of_le hp
  by_cases hab : 2 ^ k ≤ a * b
  · -- the first product reaches the power already, and its rounding stays there
    have h1 : (2 : ℝ) ^ k ≤ Binary64.round ((a : ℝ) * b) := le_round_of_le hp (by exact_mod_cast hab)
    calc (2 : ℝ) ^ k ≤ Binary64.round ((a : ℝ) * b) := h1
      _ ≤ Binary64.round ((a : ℝ) * b) * c :=
        le_mul_of_one_le_right (le_trans (by positivity) h1) (by exact_mod_cast hc)
  · -- the first product is a double, so only the second one rounds
    have hab' : a * b < 2 ^ 53 :=
      lt_of_lt_of_le (not_le.mp hab) (Nat.pow_le_pow_right (by norm_num) hk.le)
    have hexact : Binary64.round ((a : ℝ) * b) = ((a * b : ℕ) : ℝ) := by
      rw [Nat.cast_mul, round_eq_self (by exact_mod_cast representable_natCast hab')]
    rw [hexact]
    exact_mod_cast h

/-- **The check on the product of the counts bounds their true product**: three counts up to
`2³¹ - 1`, multiplied as doubles from `1`, exceed `2³¹ - 1` when their product does. -/
theorem mul_le_of_not_gt {cx cy cz : Float} {a b c : ℕ}
    (hx : cx.isFinite = true) (hy : cy.isFinite = true) (hz : cz.isFinite = true)
    (ha : toReal cx = a) (hb : toReal cy = b) (hc : toReal cz = c)
    (ha' : a ≤ 2 ^ 31) (hb' : b ≤ 2 ^ 31) (hc' : c ≤ 2 ^ 31)
    (h : ¬ 1 * cx * cy * cz > maxGridPoints) : a * b * c ≤ 2147483647 := by
  -- `1 * cx` is `a` exactly
  have ha1 : |(a : ℝ)| < 2 ^ 1024 := by
    rw [abs_of_nonneg (Nat.cast_nonneg a)]
    have ha'' : (a : ℝ) ≤ 2 ^ 31 := by exact_mod_cast ha'
    exact lt_two_pow_1024 (ha''.trans (by norm_num))
  have h1 := mul_roundsTo toReal_one.1 hx
  rw [toReal_one.2, one_mul, ha] at h1
  obtain ⟨hf1, hv1⟩ :=
    h1.of_representable (representable_natCast (lt_of_le_of_lt ha' (by norm_num))) ha1
  -- the product of two counts is below `2 ^ 62`, and so is its rounding
  have hab : |toReal (1 * cx) * toReal cy| ≤ 2 ^ 62 := by
    rw [hv1, hb, abs_of_nonneg (by positivity)]
    calc (a : ℝ) * b ≤ 2 ^ 31 * 2 ^ 31 :=
          mul_le_mul (by exact_mod_cast ha') (by exact_mod_cast hb') (by positivity) (by positivity)
      _ = 2 ^ 62 := by norm_num
  obtain ⟨hf2, hv2, habs2⟩ := mul_isFinite_of_abs_le hf1 hy (by norm_num) hab
  rw [hv1, hb] at hv2
  have hr0 : 0 ≤ Binary64.round ((a : ℝ) * b) := round_nonneg (by positivity)
  rw [hv2, abs_of_nonneg hr0] at habs2
  -- and the product of three is below `2 ^ 93`
  have habc : |toReal (1 * cx * cy) * toReal cz| ≤ 2 ^ 93 := by
    rw [hv2, hc, abs_of_nonneg (mul_nonneg hr0 (Nat.cast_nonneg c))]
    calc Binary64.round ((a : ℝ) * b) * c ≤ 2 ^ 62 * 2 ^ 31 :=
          mul_le_mul habs2 (by exact_mod_cast hc') (Nat.cast_nonneg c) (by positivity)
      _ = 2 ^ 93 := by norm_num
  obtain ⟨hf3, hv3, -⟩ := mul_isFinite_of_abs_le hf2 hz (by norm_num) habc
  rw [hv2, hc] at hv3
  -- so the check compares the product rounded twice, which reaches `2 ^ 31` with the product
  have hle := toReal_le_of_not_gt hf3 h
  rw [hv3] at hle
  by_contra hgt
  have hreach := two_pow_le_round_mul (k := 31) (by norm_num) (by omega : 2 ^ 31 ≤ a * b * c)
  linarith

/-- **An accepted box has grids that fit in 32-bit counts.** The step is finite and above
zero; every axis fits (`AxisFits`): finite bounds in order, a span that does not overflow, a
count `⌈span / step⌉` of at most `2³¹ - 1`, and a grid whose length is its count of points,
converted exactly and at most that count; and the three lengths multiply to at most
`2³¹ - 1`. -/
theorem grids_fit_of_checkBox {lo hi : Vec3} {step : Float} (h : checkBox lo hi step = .ok ()) :
    step.isFinite = true ∧ 0 < toReal step ∧
      AxisFits step lo.x hi.x ∧ AxisFits step lo.y hi.y ∧ AxisFits step lo.z hi.z ∧
        (gridPoints lo.x hi.x step).length * (gridPoints lo.y hi.y step).length *
          (gridPoints lo.z hi.z step).length ≤ 2147483647 := by
  obtain ⟨hstep, hpos, tx, ty, tz, hx, hy, hz, htotal⟩ := checkBox_eq_ok h
  have fx := axisFits_of_checkAxis hstep hpos hx
  have fy := axisFits_of_checkAxis hstep hpos hy
  have fz := axisFits_of_checkAxis hstep hpos hz
  refine ⟨hstep, hpos, fx, fy, fz, ?_⟩
  obtain ⟨a, ha⟩ := fx.exists_perAxis_eq
  obtain ⟨b, hb⟩ := fy.exists_perAxis_eq
  obtain ⟨c, hc⟩ := fz.exists_perAxis_eq
  -- the total the check compares is the product of the counts, as doubles
  rw [(checkAxis_eq_ok hz).2.2.2.2, (checkAxis_eq_ok hy).2.2.2.2,
    (checkAxis_eq_ok hx).2.2.2.2] at htotal
  have hle : ∀ {n : ℕ} {x : Float}, toReal x = n → toReal x ≤ 2147483647 → n ≤ 2 ^ 31 := by
    intro n x hn hx
    rw [hn] at hx
    have hn' : (n : ℝ) ≤ 2 ^ 31 := hx.trans (by norm_num)
    exact_mod_cast hn'
  have hprod := mul_le_of_not_gt fx.finite_perAxis fy.finite_perAxis fz.finite_perAxis ha hb hc
    (hle ha fx.perAxis_le) (hle hb fy.perAxis_le) (hle hc fz.perAxis_le) htotal
  -- each length is at most its count
  have hla : (gridPoints lo.x hi.x step).length ≤ a := by exact_mod_cast ha ▸ fx.length_le
  have hlb : (gridPoints lo.y hi.y step).length ≤ b := by exact_mod_cast hb ▸ fy.length_le
  have hlc : (gridPoints lo.z hi.z step).length ≤ c := by exact_mod_cast hc ▸ fz.length_le
  calc (gridPoints lo.x hi.x step).length * (gridPoints lo.y hi.y step).length *
        (gridPoints lo.z hi.z step).length ≤ a * b * c :=
        Nat.mul_le_mul (Nat.mul_le_mul hla hlb) hlc
    _ ≤ 2147483647 := hprod

/-- The unit cube with step `0.5` is accepted, and its grids fit. -/
theorem grids_fit_of_unit_cube :
    checkBox ⟨0, 0, 0⟩ ⟨1, 1, 1⟩ 0.5 = .ok () ∧
      (0.5 : Float).isFinite = true ∧ 0 < toReal 0.5 ∧
        AxisFits 0.5 0 1 ∧ AxisFits 0.5 0 1 ∧ AxisFits 0.5 0 1 ∧
          (gridPoints 0 1 0.5).length * (gridPoints 0 1 0.5).length *
            (gridPoints 0 1 0.5).length ≤ 2147483647 :=
  ⟨rfl, @grids_fit_of_checkBox ⟨0, 0, 0⟩ ⟨1, 1, 1⟩ 0.5 rfl⟩

/-! ### The order of the points -/

/-- **Every index of the grid of an accepted axis is at most the span over the step**: the
index is below the count of points, so below the quotient, and rounding sends every real
above an index to at least that index. -/
theorem index_mul_step_le {step total lo hi t : Float} {name : String}
    (hstep : step.isFinite = true) (hpos : 0 < toReal step)
    (h : checkAxis step total name lo hi = .ok t) {i : ℕ}
    (hidx : i < (gridPoints lo hi step).length) : (i : ℝ) * toReal step ≤ toReal (hi - lo) := by
  have f := axisFits_of_checkAxis hstep hpos h
  have hq := isFinite_of_isFinite_ceil f.finite_perAxis
  have he := isFinite_of_isFinite_ceil f.finite_pointCount
  -- the index is below `q - ε`, whose ceiling is the count of points
  have hie : (i : ℝ) < toReal ((hi - lo) / step - gridEpsilon) := by
    have hlen := f.length_eq
    rw [(toReal_ceil he).2] at hlen
    have hle : ((i + 1 : ℕ) : ℤ) ≤ ⌈toReal ((hi - lo) / step - gridEpsilon)⌉ := by
      have : ((i + 1 : ℕ) : ℝ) ≤ (gridPoints lo hi step).length := by exact_mod_cast hidx
      rw [hlen] at this
      exact_mod_cast this
    have := Int.le_ceil_iff.mp hle
    push_cast at this
    linarith
  -- and `q - ε` is at most the quotient
  have heq : toReal ((hi - lo) / step - gridEpsilon) ≤ toReal ((hi - lo) / step) := by
    obtain ⟨hef, hepos, -⟩ := toReal_gridEpsilon
    rw [(sub_roundsTo hq hef).toReal_eq he]
    exact round_le_of_le (representable_toReal hq) (by linarith)
  -- an index below the rounded quotient is at most the quotient itself
  have hi53 : i < 2 ^ 53 := by
    have : (i : ℝ) < 2 ^ 53 := by linarith [f.length_le, f.perAxis_le,
      (show (i : ℝ) < (gridPoints lo hi step).length by exact_mod_cast hidx)]
    exact_mod_cast this
  rw [(div_roundsTo f.finite_span hstep hpos.ne').toReal_eq hq] at heq
  have hdiv : (i : ℝ) ≤ toReal (hi - lo) / toReal step := by
    by_contra hlt
    have := round_le_of_le (representable_natCast hi53) (not_le.mp hlt).le
    linarith
  exact (le_div_iff₀ hpos).mp hdiv

/-- **Each point of the grid of an accepted axis rounds a value between `lo` and `lo` plus
the span**: it is `lo` plus the double of `i * step`, which lies between `0` and the span. -/
theorem point_roundsTo {step total lo hi t : Float} {name : String}
    (hstep : step.isFinite = true) (hpos : 0 < toReal step)
    (h : checkAxis step total name lo hi = .ok t) {i : ℕ}
    (hidx : i < (gridPoints lo hi step).length) :
    0 ≤ Binary64.round (i * toReal step) ∧ Binary64.round (i * toReal step) ≤ toReal (hi - lo) ∧
      RoundsTo (toReal lo + Binary64.round (i * toReal step)) (lo + i.toFloat * step) := by
  have f := axisFits_of_checkAxis hstep hpos h
  have hspan := index_mul_step_le hstep hpos h hidx
  have hi0 : (0 : ℝ) ≤ i * toReal step := mul_nonneg (Nat.cast_nonneg i) hpos.le
  -- the index converts exactly: it is below the count, itself below `2 ^ 31`
  have hi53 : i < 2 ^ 53 := by
    have : (i : ℝ) < 2 ^ 53 := by linarith [f.length_le, f.perAxis_le,
      (show (i : ℝ) < (gridPoints lo hi step).length by exact_mod_cast hidx)]
    exact_mod_cast this
  obtain ⟨hif, hiv⟩ := toReal_ofNat hi53
  have hd := mul_roundsTo hif hstep
  rw [hiv] at hd
  obtain ⟨hdf, -⟩ := hd.isFinite_of_abs_le (representable_toReal f.finite_span)
    (lt_of_le_of_lt (le_abs_self _) (abs_toReal_lt f.finite_span)) (by rwa [abs_of_nonneg hi0])
  have hp := add_roundsTo f.finite_lo hdf
  rw [hd.toReal_eq hdf] at hp
  exact ⟨round_nonneg hi0, round_le_of_le (representable_toReal f.finite_span) hspan, hp⟩

/-- What the grid of one axis is sure to be: non-decreasing, starting at `lo`, between `lo`
and `lo + (hi - lo)`, and so at most `hi` when the span is exact. -/
structure SortedBetween (lo hi : Float) (xs : List Float) : Prop where
  sorted : xs.Pairwise (· ≤ ·)
  head_eq : ∀ p ∈ xs.head?, (p == lo) = true
  between : ∀ p ∈ xs, lo ≤ p ∧ p ≤ lo + (hi - lo)
  le_hi_of_exact : toReal (hi - lo) = toReal hi - toReal lo → ∀ p ∈ xs, p ≤ hi

/-- **The grid of an accepted axis is sorted and between its bounds.** Its points round the
increasing values `lo + round (i * step)`, and rounding keeps order. -/
theorem sortedBetween_of_checkAxis {step total lo hi t : Float} {name : String}
    (hstep : step.isFinite = true) (hpos : 0 < toReal step)
    (h : checkAxis step total name lo hi = .ok t) :
    SortedBetween lo hi (gridPoints lo hi step) := by
  have f := axisFits_of_checkAxis hstep hpos h
  have hpt : ∀ {i}, i ∈ List.range (gridPoints lo hi step).length → _ :=
    fun hmem => point_roundsTo hstep hpos h (List.mem_range.mp hmem)
  rw [gridPoints_eq_map_range]
  refine ⟨?_, ?_, ?_, ?_⟩
  · -- a later index rounds a larger value
    refine List.pairwise_map.mpr (List.pairwise_lt_range.imp_of_mem fun ha hb hab => ?_)
    refine (hpt ha).2.2.le_of_le (hpt hb).2.2 (add_le_add le_rfl (round_mono ?_))
    exact mul_le_mul_of_nonneg_right (by exact_mod_cast hab.le) hpos.le
  · -- the first point rounds `lo` itself
    intro p hp
    rw [List.head?_map, List.head?_range] at hp
    split at hp
    · cases hp
    rename_i hlen
    obtain rfl : lo + (0 : ℕ).toFloat * step = p := Option.some.inj hp
    have h0 := (hpt (List.mem_range.mpr (Nat.pos_of_ne_zero hlen))).2.2
    rw [Nat.cast_zero, zero_mul, Binary64.round_zero, add_zero] at h0
    obtain ⟨hpf, hpv⟩ := h0.of_representable (representable_toReal f.finite_lo)
      (abs_toReal_lt f.finite_lo)
    exact (beq_iff_toReal_eq hpf f.finite_lo).mpr hpv
  · intro p hp
    obtain ⟨i, hi, rfl⟩ := List.mem_map.mp hp
    obtain ⟨hd0, hds, hround⟩ := hpt hi
    exact ⟨(roundsTo_toReal f.finite_lo).le_of_le hround (le_add_of_nonneg_right hd0),
      hround.le_of_le (add_roundsTo f.finite_lo f.finite_span) (add_le_add le_rfl hds)⟩
  · intro hexact p hp
    obtain ⟨i, hi, rfl⟩ := List.mem_map.mp hp
    obtain ⟨-, hds, hround⟩ := hpt hi
    exact hround.le_of_le (roundsTo_toReal f.finite_hi) (by linarith)

/-- **The grids of an accepted box are sorted and between their bounds.** On every axis the
grid is non-decreasing, starts at `lo`, lies between `lo` and `lo + (hi - lo)` as doubles, and
so stays at most `hi` when the span is exact. -/
theorem gridPoints_sorted_between {lo hi : Vec3} {step : Float}
    (h : checkBox lo hi step = .ok ()) :
    SortedBetween lo.x hi.x (gridPoints lo.x hi.x step) ∧
      SortedBetween lo.y hi.y (gridPoints lo.y hi.y step) ∧
        SortedBetween lo.z hi.z (gridPoints lo.z hi.z step) := by
  obtain ⟨hstep, hpos, tx, ty, tz, hx, hy, hz, -⟩ := checkBox_eq_ok h
  exact ⟨sortedBetween_of_checkAxis hstep hpos hx, sortedBetween_of_checkAxis hstep hpos hy,
    sortedBetween_of_checkAxis hstep hpos hz⟩

/-- The unit cube with step `0.5` is accepted, and its grids are sorted between their
bounds. -/
theorem gridPoints_sorted_between_of_unit_cube :
    checkBox ⟨0, 0, 0⟩ ⟨1, 1, 1⟩ 0.5 = .ok () ∧
      SortedBetween 0 1 (gridPoints 0 1 0.5) ∧ SortedBetween 0 1 (gridPoints 0 1 0.5) ∧
        SortedBetween 0 1 (gridPoints 0 1 0.5) :=
  ⟨rfl, @gridPoints_sorted_between ⟨0, 0, 0⟩ ⟨1, 1, 1⟩ 0.5 rfl⟩

/-- Far from zero the points of an accepted grid round onto each other and onto `hi`: the box
from `(10¹⁶, 0, 0)` to `(10¹⁶ + 2, 0.5, 0.5)` with step `0.6` is accepted, and its x grid is
`10¹⁶, 10¹⁶, 10¹⁶ + 2, 10¹⁶ + 2`. -/
theorem gridPoints_repeats_far_from_zero :
    checkBox ⟨1e16, 0, 0⟩ ⟨10000000000000002, 0.5, 0.5⟩ 0.6 = .ok () ∧
      (gridPoints 1e16 10000000000000002 0.6).map Float.toBits =
        [(1e16 : Float).toBits, (1e16 : Float).toBits,
          (10000000000000002 : Float).toBits, (10000000000000002 : Float).toBits] :=
  ⟨rfl, by decide +kernel⟩

end Workspace

end ArmReach
