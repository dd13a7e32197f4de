import ArmReach.Proofs.Numeric.Remainder
import ArmReach.Solver.Draw
/-!
# Rounding to single precision

`Precision.roundSingle` rounds a double to single precision through its exact parts: for
`|x| = m * 2 ^ e` it takes the last place `2 ^ q` of a single of that size, rounds `m * 2 ^ e`
to a multiple `n * 2 ^ q` of it (a shift when no bit is lost, the nearest quotient
`roundHalfEven` otherwise), and rebuilds the double, or gives an infinity when `n * 2 ^ q`
reaches `2 ^ 128`. So it is the rounding to the binary format of 24 bits and least exponent
`-149`, overflowing at `2 ^ 128` (`roundsToIn_roundSingle`): the two steps that carry it are
that the nearest quotient is `roundEven` of the quotient (`roundHalfEven_eq_roundEven`) and
that `q` is the format's last place (`lastPlace_single_natCast_mul`). Like every rounding it
keeps the order of doubles (`roundSingle_mono`).
-/

namespace ArmReach

open Binary64

/-- `roundHalfEven` is the quotient rounded to the nearest integer, ties to even. -/
theorem roundHalfEven_eq_roundEven (num den : ℕ) (hd : 0 < den) :
    (roundHalfEven num den : ℤ) = roundEven ((num : ℝ) / den) := by
  have hden : (0 : ℝ) < den := by exact_mod_cast hd
  -- the quotient is its integer part `num / den` and the fraction `(num % den) / den`
  have hsplit : (num : ℝ) / den = ((num / den : ℕ) : ℝ) + ((num % den : ℕ) : ℝ) / den := by
    have h := Nat.div_add_mod num den
    conv_lhs => rw [← h]
    push_cast
    field_simp
  have hr : ((num % den : ℕ) : ℝ) / den < 1 := by
    rw [div_lt_one hden]
    exact_mod_cast Nat.mod_lt num hd
  have hr0 : 0 ≤ ((num % den : ℕ) : ℝ) / den := by positivity
  have hfloor : ⌊(num : ℝ) / den⌋ = ((num / den : ℕ) : ℤ) := by
    rw [Int.floor_eq_iff, hsplit, Int.cast_natCast]
    constructor <;> linarith
  have hfrac : (num : ℝ) / den - ⌊(num : ℝ) / den⌋ = ((num % den : ℕ) : ℝ) / den := by
    rw [hfloor, hsplit, Int.cast_natCast]
    ring
  have hlt : ((num % den : ℕ) : ℝ) / den < 1 / 2 ↔ 2 * (num % den) < den := by
    rw [div_lt_iff₀ hden, ← Nat.cast_lt (α := ℝ)]
    push_cast
    constructor <;> intro h <;> linarith
  have hgt : 1 / 2 < ((num % den : ℕ) : ℝ) / den ↔ den < 2 * (num % den) := by
    rw [lt_div_iff₀ hden, ← Nat.cast_lt (α := ℝ)]
    push_cast
    constructor <;> intro h <;> linarith
  unfold roundEven roundHalfEven
  dsimp only
  rw [hfrac, hfloor]
  by_cases h1 : 2 * (num % den) < den
  · rw [if_pos (hlt.mpr h1), if_pos h1]
  rw [if_neg (mt hlt.mp h1), if_neg h1]
  by_cases h2 : den < 2 * (num % den)
  · rw [if_pos (hgt.mpr h2), if_pos h2]
    push_cast
    ring
  rw [if_neg (mt hgt.mp h2), if_neg h2]
  -- on a tie, the even one of the two neighbours
  split_ifs <;> push_cast <;> omega


/-- The exponent of the leading bit of `m * 2 ^ e`. -/
theorem log_natCast_mul_zpow {m : ℕ} (hm : 0 < m) (e : ℤ) :
    Int.log 2 ((m : ℝ) * 2 ^ e) = m.log2 + e := by
  have hpos : (0 : ℝ) < m * 2 ^ e := mul_pos (by exact_mod_cast hm) (two_zpow_pos e)
  have hlo : (2 : ℝ) ^ ((m.log2 : ℤ) + e) ≤ m * 2 ^ e := by
    rw [zpow_add₀ (by norm_num : (2 : ℝ) ≠ 0), zpow_natCast]
    exact mul_le_mul_of_nonneg_right (by exact_mod_cast Nat.log2_self_le hm.ne') (two_zpow_pos e).le
  have hhi : (m : ℝ) * 2 ^ e < 2 ^ ((m.log2 : ℤ) + e + 1) := by
    rw [add_right_comm, zpow_add₀ (by norm_num : (2 : ℝ) ≠ 0), ← Nat.cast_succ, zpow_natCast]
    exact mul_lt_mul_of_pos_right (by exact_mod_cast Nat.lt_log2_self) (two_zpow_pos e)
  have h1 := (Int.zpow_le_iff_le_log (b := 2) (by norm_num) hpos).mp (by exact_mod_cast hlo)
  have h2 := (Int.lt_zpow_iff_log_lt (b := 2) (by norm_num) hpos).mp (by exact_mod_cast hhi)
  omega

/-- `n * 2 ^ q` reaches `2 ^ k` exactly when its leading bit does. -/
theorem two_zpow_le_natCast_mul_iff {n : ℕ} (hn : 0 < n) (q k : ℤ) :
    (2 : ℝ) ^ k ≤ n * 2 ^ q ↔ k ≤ q + n.log2 := by
  have hpos : (0 : ℝ) < n * 2 ^ q := mul_pos (by exact_mod_cast hn) (two_zpow_pos q)
  have h := Int.zpow_le_iff_le_log (b := 2) (by norm_num) hpos (x := k)
  simp only [Nat.cast_ofNat] at h
  rw [h, log_natCast_mul_zpow hn]
  omega

/-- The last place of a single of the size of `m * 2 ^ e`. -/
theorem lastPlace_single_natCast_mul {m : ℕ} (hm : 0 < m) (e : ℤ) :
    lastPlace 24 (-149) ((m : ℝ) * 2 ^ e) = max (e + m.log2 - 23) (-149) := by
  have hpos : (0 : ℝ) < m * 2 ^ e := mul_pos (by exact_mod_cast hm) (two_zpow_pos e)
  unfold lastPlace
  rw [abs_of_pos hpos, log_natCast_mul_zpow hm]
  push_cast
  omega

/-- The significand rounded at the last place `2 ^ q`: shifted exactly when the last place is
at or below `2 ^ e`, the nearest quotient otherwise. -/
theorem roundEven_natCast_mul_div {m : ℕ} {e q : ℤ} :
    roundEven ((m : ℝ) * 2 ^ e / 2 ^ q) =
      ((if q ≤ e then m <<< (e - q).toNat else roundHalfEven m (2 ^ (q - e).toNat) : ℕ) : ℤ) := by
  split_ifs with hq
  · have h := intCast_mul_zpow_div (m := (m : ℤ)) hq
    rw [Int.cast_natCast] at h
    rw [h, roundEven_intCast, Nat.shiftLeft_eq]
    push_cast
    rfl
  · have hpow : (2 : ℝ) ^ q = ((2 ^ (q - e).toNat : ℕ) : ℝ) * 2 ^ e := by
      rw [Nat.cast_pow, Nat.cast_ofNat, ← zpow_natCast, Int.toNat_of_nonneg (by omega),
        ← zpow_add₀ (by norm_num : (2 : ℝ) ≠ 0)]
      congr 1
      ring
    rw [hpow, mul_div_mul_right _ _ (two_zpow_pos e).ne',
      roundHalfEven_eq_roundEven m _ (Nat.two_pow_pos _)]

/-- The infinities the single rounding overflows to. -/
theorem unpack_posInf : (1.0 / 0.0 : Float).toModel.unpack = .infinity .positive := rfl

theorem unpack_negInf : (-(1.0 / 0.0) : Float).toModel.unpack = .infinity .negative := rfl


/-- **Rounding a finite double to single precision** rounds its value to the format of 24 bits
and least exponent `-149`, overflowing to an infinity from `2 ^ 128` on. -/
theorem roundsToIn_roundSingle {x : Float} (hx : x.isFinite = true) :
    RoundsToIn 24 (-149) 128 (toReal x) (Precision.roundSingle x) := by
  by_cases h0 : toReal x = 0
  · -- the zeros are kept
    have hkeep : Precision.roundSingle x = x := by
      unfold Precision.roundSingle
      rw [if_pos (by simp [(beq_zero_iff hx).mpr h0])]
    rw [hkeep]
    unfold RoundsToIn
    rw [h0, roundTo_zero, abs_zero, if_pos (by positivity)]
    exact ⟨hx, rfl⟩
  have hv := toReal_eq_parts hx
  have hm : 0 < (parts x).significand := by
    refine Nat.pos_of_ne_zero fun hm => h0 ?_
    rw [hv, hm]
    simp
  unfold Precision.roundSingle
  have hnan : x.isNaN = false := isNaN_eq_false_of_isFinite hx
  rw [hnan, isInf_eq_false_of_isFinite hx, beq_zero_eq_false hx h0, if_neg (by decide)]
  dsimp only
  rw [hv]
  generalize (parts x).significand = m at hm ⊢
  generalize (parts x).exponent = e
  rw [← lastPlace_single_natCast_mul hm e]
  generalize hq : lastPlace 24 (-149) ((m : ℝ) * 2 ^ e) = q
  generalize hn : (if q ≤ e then m <<< (e - q).toNat else roundHalfEven m (2 ^ (q - e).toNat)) = n
  -- the rounded value is `± n * 2 ^ q`
  have hround : roundTo 24 (-149) ((m : ℝ) * 2 ^ e) = n * 2 ^ q := by
    unfold roundTo
    rw [hq, roundEven_natCast_mul_div, hn, Int.cast_natCast]
  have hpos : (0 : ℝ) < m * 2 ^ e := mul_pos (by exact_mod_cast hm) (two_zpow_pos e)
  have hq149 : -149 ≤ q := hq ▸ le_max_right _ _
  have hn24 : n ≤ 2 ^ 24 := by
    have h := @roundEven_div_lastPlace_le 24 (-149) _ hpos
    rw [hq, roundEven_natCast_mul_div, hn] at h
    exact_mod_cast h
  -- the sign bit gives the sign of the value and of its rounding
  have hval : roundTo 24 (-149) ((if signBit x then -1 else 1) * ((m : ℝ) * 2 ^ e)) =
      (if signBit x then -1 else 1) * ((n : ℝ) * 2 ^ q) := by
    cases signBit x <;> simp [hround]
  have habs : |(if signBit x then -1 else 1) * ((n : ℝ) * 2 ^ q)| = n * 2 ^ q := by
    rw [abs_mul, Elementary.abs_sign, one_mul, abs_of_nonneg (by positivity)]
  unfold RoundsToIn
  rw [hval, habs]
  by_cases hn0 : n = 0
  · -- a zero of the sign of `x`
    rw [if_pos hn0, hn0, if_pos (by simp)]
    cases signBit x
    · exact ⟨rfl, by simp only [Nat.cast_zero, zero_mul, mul_zero]; rfl⟩
    · exact ⟨rfl, by simp only [Nat.cast_zero, zero_mul, mul_zero]; rfl⟩
  have hnpos : 0 < n := Nat.pos_of_ne_zero hn0
  rw [if_neg hn0]
  by_cases hover : 128 ≤ q + n.log2
  · -- from `2 ^ 128` on, the infinity of the sign of `x`
    have hbig : (2 : ℝ) ^ 128 ≤ n * 2 ^ q := by
      have := (two_zpow_le_natCast_mul_iff hnpos q 128).mpr hover
      exact_mod_cast this
    rw [if_pos hover, if_neg (not_lt.mpr hbig)]
    cases signBit x
    · simp only [Bool.false_eq_true, ↓reduceIte, one_mul]
      rw [if_pos hpos]
      exact unpack_posInf
    · simp only [↓reduceIte, neg_one_mul]
      rw [if_neg (by linarith)]
      exact unpack_negInf
  · have hsmall : (n : ℝ) * 2 ^ q < 2 ^ 128 := by
      have := mt (two_zpow_le_natCast_mul_iff hnpos q 128).mp hover
      exact_mod_cast not_le.mp this
    have hrep : Representable ((n : ℝ) * 2 ^ q) :=
      ⟨n, q, by
        rw [abs_of_nonneg (Int.natCast_nonneg n)]
        calc (n : ℤ) ≤ 2 ^ 24 := by exact_mod_cast hn24
          _ < 2 ^ 53 := by norm_num, by omega, by rw [Int.cast_natCast]⟩
    rw [if_neg hover, if_pos hsmall]
    exact toReal_ofExact (signBit x) hnpos hrep
      (hsmall.trans (pow_lt_pow_right₀ (by norm_num) (by norm_num : 128 < 1024)))

/-- **Rounding to single precision keeps the order of finite doubles.** -/
theorem roundSingle_mono {x y : Float} (hx : x.isFinite = true) (hy : y.isFinite = true)
    (h : x ≤ y) : Precision.roundSingle x ≤ Precision.roundSingle y :=
  (roundsToIn_roundSingle hx).le_of_le (by norm_num) (roundsToIn_roundSingle hy)
    ((le_iff_toReal_le hx hy).mp h)

end ArmReach
