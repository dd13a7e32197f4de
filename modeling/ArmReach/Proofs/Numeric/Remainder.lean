import ArmReach.Proofs.Numeric.Order
/-!
# The IEEE remainder is exact

`Elementary.remainder x y` takes from `x` the multiple of `y` nearest to it. It works on the
integer parts of both, written on the grid of the finer one, so no rounding happens anywhere:
for finite `x` and a finite nonzero `y` the result is a finite double that differs from `x`
by a whole multiple of `y` and is at most half of `|y|` in size (`remainder_spec`). An
infinite or NaN `x` gives NaN (`isNaN_remainder_of_isFinite_eq_false`).

The steps: `roundHalfEven` picks a nearest quotient (`roundHalfEven_spec`), so what is left
fits in 53 bits (`natAbs_leftover_lt`) and converts back exactly (`leftover_exact`); a zero
leftover is the signed zero `copySign 0 x`, and the mask test `Elementary.signBit` reads the
same sign field as `Binary64.signBit` (`signBit_eq`).
-/

namespace ArmReach

namespace Binary64

/-- The exponent of a double's parts is never below that of the subnormals. -/
theorem exponent_parts_ge (x : Float) : -1074 ≤ (parts x).exponent := by
  unfold parts
  dsimp only
  split <;> dsimp only <;> omega

end Binary64

namespace Elementary

open Binary64

/-! ### The sign bit and the signed zero -/

/-- The sign mask keeps the top bit of a word and clears the rest. -/
theorem toNat_and_signMask (w : UInt64) :
    (w &&& 0x8000000000000000).toNat = if 2 ^ 63 ≤ w.toNat then 2 ^ 63 else 0 := by
  have hw := w.toNat_lt
  rw [UInt64.toNat_and, show (0x8000000000000000 : UInt64).toNat = 2 ^ 63 from rfl]
  apply Nat.eq_of_testBit_eq
  intro i
  rw [Nat.testBit_and, Nat.testBit_two_pow]
  by_cases hi : 63 = i
  · -- the one bit the mask keeps is the top bit, set exactly from `2 ^ 63` on
    subst hi
    have htop : w.toNat.testBit 63 = decide (2 ^ 63 ≤ w.toNat) := by
      rw [Nat.testBit_eq_decide_div_mod_eq]
      congr 1
      apply propext
      omega
    rw [htop]
    split
    · rename_i h; rw [decide_eq_true h, Nat.testBit_two_pow_self]; rfl
    · rename_i h; rw [decide_eq_false h, Nat.zero_testBit]; rfl
  · split
    · rw [Nat.testBit_two_pow_of_ne hi, decide_eq_false hi, Bool.and_false]
    · rw [Nat.zero_testBit, decide_eq_false hi, Bool.and_false]

/-- A masked word is `0` below `2 ^ 63` and the mask itself from there on. -/
theorem signMask_cases (w : UInt64) :
    w &&& 0x8000000000000000 = 0 ∧ w.toNat < 2 ^ 63 ∨
      w &&& 0x8000000000000000 = 0x8000000000000000 ∧ 2 ^ 63 ≤ w.toNat := by
  have h := toNat_and_signMask w
  by_cases h63 : 2 ^ 63 ≤ w.toNat
  · rw [if_pos h63] at h
    exact Or.inr ⟨UInt64.toNat_inj.mp h, h63⟩
  · rw [if_neg h63] at h
    exact Or.inl ⟨UInt64.toNat_inj.mp h, by omega⟩

/-- The sign bit read through the mask is the sign field of the word. -/
theorem signBit_eq (x : Float) : Elementary.signBit x = Binary64.signBit x := by
  unfold Elementary.signBit Binary64.signBit signField
  rw [Nat.mod_eq_of_lt x.toBits.toNat_lt]
  rcases signMask_cases x.toBits with ⟨h0, h63⟩ | ⟨h0, h63⟩
  · rw [h0, decide_eq_false (by omega)]; rfl
  · rw [h0, decide_eq_true h63]; rfl

/-- **A zero given the sign of any double is a zero.** -/
theorem copySign_zero (x : Float) :
    (copySign 0 x).isFinite = true ∧ toReal (copySign 0 x) = 0 := by
  unfold copySign
  rw [show (0 : Float).toBits = 0 from rfl, UInt64.zero_and, UInt64.zero_or]
  rcases signMask_cases x.toBits with ⟨h0, -⟩ | ⟨h0, -⟩ <;> rw [h0]
  · exact ⟨rfl, rfl⟩
  · exact ⟨rfl, rfl⟩


/-! ### Nearest quotients -/

/-- **`roundHalfEven` picks a nearest quotient**: `num` is within half of `den` of the
quotient times `den`, and a positive quotient needs `num` to be at least half of `den`. -/
theorem roundHalfEven_spec (num den : ℕ) (hd : 0 < den) :
    2 * ((num : ℤ) - roundHalfEven num den * den).natAbs ≤ den ∧
      (0 < roundHalfEven num den → den ≤ 2 * num) := by
  have hdm := Nat.div_add_mod' num den
  have hmod := Nat.mod_lt num hd
  have hq := fun h : 0 < num / den => Nat.le_mul_of_pos_left den h
  unfold roundHalfEven
  dsimp only
  generalize num / den = q at *
  generalize num % den = s at *
  -- the quotient is kept or taken one up; what is left of `num` is `s` or `s - den`
  split_ifs
  · omega
  · push_cast; rw [add_one_mul]; omega
  · omega
  · push_cast; rw [add_one_mul]; omega

/-- What the nearest quotient leaves has at most 53 bits when the dividend or the divisor
has: it is at most half the divisor, and at most the dividend when the quotient is positive. -/
theorem natAbs_leftover_lt {num den : ℕ} (hd : 0 < den) (h : num < 2 ^ 53 ∨ den < 2 ^ 53) :
    ((num : ℤ) - roundHalfEven num den * den).natAbs < 2 ^ 53 := by
  obtain ⟨hhalf, hpos⟩ := roundHalfEven_spec num den hd
  rcases h with h | h
  · rcases Nat.eq_zero_or_pos (roundHalfEven num den) with h0 | h0
    · rw [h0]; push_cast; omega
    · have := hpos h0; omega
  · omega

/-! ### The leftover, converted back -/

/-- A value on the grid `2 ^ e`, written on a finer grid `2 ^ t`. -/
theorem natCast_mul_two_pow_toNat (m : ℕ) {e t : ℤ} (h : t ≤ e) :
    ((m * 2 ^ (e - t).toNat : ℕ) : ℝ) * 2 ^ t = m * 2 ^ e := by
  have hk : (((e - t).toNat : ℕ) : ℤ) = e - t := Int.toNat_of_nonneg (by omega)
  push_cast
  rw [← zpow_natCast, hk, mul_assoc, ← zpow_add₀ (by norm_num : (2 : ℝ) ≠ 0), sub_add_cancel]

/-- On the grid of the finer of two exponents, one of two significands of at most 53 bits
stays as it is. -/
theorem scaled_significand_lt {mx my : ℕ} {ex ey : ℤ} (hmx : mx < 2 ^ 53) (hmy : my < 2 ^ 53) :
    mx * 2 ^ (ex - min ex ey).toNat < 2 ^ 53 ∨ my * 2 ^ (ey - min ex ey).toNat < 2 ^ 53 := by
  rcases min_choice ex ey with h | h
  · left
    rwa [h, sub_self, Int.toNat_zero, pow_zero, mul_one]
  · right
    rwa [h, sub_self, Int.toNat_zero, pow_zero, mul_one]

/-- **The leftover converts back exactly**: an integer of at most 53 bits on a grid from
`2 ^ -1074` on, below `2 ^ 1024`, is a double, and a zero leftover is a signed zero. -/
theorem leftover_exact (z : Float) (neg : Bool) {r e : ℤ} (hr : r.natAbs < 2 ^ 53)
    (he : -1074 ≤ e) (hlt : (r.natAbs : ℝ) * 2 ^ e < 2 ^ 1024) :
    (if r = 0 then copySign 0 z else ofExact (if r < 0 then !neg else neg) r.natAbs e).isFinite =
        true ∧
      toReal (if r = 0 then copySign 0 z else ofExact (if r < 0 then !neg else neg) r.natAbs e) =
        (if neg then -1 else 1) * (r * 2 ^ e) := by
  have hrep : Representable ((r.natAbs : ℝ) * 2 ^ e) :=
    ⟨r.natAbs, e, by rw [abs_of_nonneg (by positivity)]; exact_mod_cast hr, he,
      by rw [Int.cast_natCast]⟩
  by_cases h0 : r = 0
  · rw [if_pos h0, h0, Int.cast_zero, zero_mul, mul_zero]
    exact copySign_zero z
  rw [if_neg h0]
  obtain ⟨hf, hv⟩ :=
    toReal_ofExact (if r < 0 then !neg else neg) (Int.natAbs_pos.mpr h0) hrep hlt
  refine ⟨hf, ?_⟩
  rw [hv, Nat.cast_natAbs]
  -- a negative leftover flips the sign and keeps the magnitude
  by_cases hneg : r < 0
  · rw [if_pos hneg, abs_of_neg hneg]
    cases neg <;> simp
  · rw [if_neg hneg, abs_of_nonneg (not_lt.mp hneg)]

/-- A sign taken from a bit is `±1`. -/
theorem abs_sign (b : Bool) : |(if b then -1 else 1 : ℝ)| = 1 := by
  cases b <;> simp

/-- Taking a multiple of one signed value from another is taking the opposite multiple when
the signs differ. -/
theorem exists_sub_intCast_mul_sign (sx sy : Bool) (bx by_ c : ℝ) (n : ℤ) :
    ∃ n' : ℤ, (if sx then -1 else 1) * ((bx - n * by_) * c) =
      (if sx then -1 else 1) * (bx * c) - n' * ((if sy then -1 else 1) * (by_ * c)) :=
  ⟨if sx = sy then n else -n, by cases sx <;> cases sy <;> simp <;> ring⟩

/-- The remainder of an infinity or a NaN is NaN. -/
theorem isNaN_remainder_of_isFinite_eq_false {x : Float} (y : Float) (hx : x.isFinite = false) :
    (remainder x y).isNaN = true := by
  unfold remainder
  rw [if_pos]
  · rfl
  · rcases isNaN_or_isInf_of_isFinite_eq_false hx with h | h
    · rw [h, Bool.true_or, Bool.true_or, Bool.true_or]
    · rw [h, Bool.or_true, Bool.true_or]

/-- **The IEEE remainder is exact**: for finite `x` and a finite nonzero `y` it is a finite
double, `x` less a whole multiple of `y`, and at most half of `|y|` in size. -/
theorem remainder_spec {x y : Float} (hx : x.isFinite = true) (hy : y.isFinite = true)
    (hy0 : toReal y ≠ 0) :
    (remainder x y).isFinite = true ∧
      (∃ n : ℤ, toReal (remainder x y) = toReal x - n * toReal y) ∧
      2 * |toReal (remainder x y)| ≤ |toReal y| := by
  have hz : (y == 0) = false := beq_zero_eq_false hy hy0
  have hxn : x.isNaN = false := isNaN_eq_false_of_isFinite hx
  have hyn : y.isNaN = false := isNaN_eq_false_of_isFinite hy
  have hvx := toReal_eq_parts hx
  have hvy := toReal_eq_parts hy
  have hmx := significand_parts_lt x
  have hmy := significand_parts_lt y
  have hex := exponent_parts_ge x
  have hey := exponent_parts_ge y
  unfold remainder
  simp only [hxn, hyn, isInf_eq_false_of_isFinite hx, isInf_eq_false_of_isFinite hy, hz,
    Bool.or_false, Bool.false_eq_true, if_false, signBit_eq]
  generalize parts x = px at *
  generalize parts y = py at *
  -- both values on the grid `2 ^ e` of the finer one
  generalize he : min px.exponent py.exponent = e
  have hle : e ≤ px.exponent := he ▸ min_le_left _ _
  have hle' : e ≤ py.exponent := he ▸ min_le_right _ _
  have hsmall : px.significand * 2 ^ (px.exponent - e).toNat < 2 ^ 53 ∨
      py.significand * 2 ^ (py.exponent - e).toNat < 2 ^ 53 := by
    rw [← he]
    exact scaled_significand_lt hmx hmy
  rw [← natCast_mul_two_pow_toNat _ hle] at hvx
  rw [← natCast_mul_two_pow_toNat _ hle'] at hvy
  generalize px.significand * 2 ^ (px.exponent - e).toNat = bx at *
  generalize py.significand * 2 ^ (py.exponent - e).toNat = by_ at *
  have hby : 0 < by_ := Nat.pos_of_ne_zero fun h => hy0 (by rw [hvy, h]; simp)
  have hY : |toReal y| = by_ * 2 ^ e := by
    rw [hvy, abs_mul, abs_sign, one_mul, abs_of_nonneg (mul_nonneg (Nat.cast_nonneg _) (two_zpow_pos e).le)]
  -- the nearest quotient leaves at most half of `by_`, in at most 53 bits
  have hhalf := (roundHalfEven_spec bx by_ hby).1
  have hsmallr := natAbs_leftover_lt hby hsmall
  generalize roundHalfEven bx by_ = n at *
  generalize hr : (bx : ℤ) - n * by_ = r at *
  have hhalf' : 2 * ((r.natAbs : ℝ) * 2 ^ e) ≤ |toReal y| := by
    rw [hY, ← mul_assoc]
    exact mul_le_mul_of_nonneg_right (by exact_mod_cast hhalf) (two_zpow_pos e).le
  have hlt : (r.natAbs : ℝ) * 2 ^ e < 2 ^ 1024 := by
    have h0 := mul_nonneg (Nat.cast_nonneg r.natAbs) (two_zpow_pos e).le
    calc (r.natAbs : ℝ) * 2 ^ e ≤ 2 * ((r.natAbs : ℝ) * 2 ^ e) := by linarith
      _ ≤ |toReal y| := hhalf'
      _ < 2 ^ 1024 := abs_toReal_lt hy
  obtain ⟨hf, hv⟩ := leftover_exact x (Binary64.signBit x) hsmallr (he ▸ le_min hex hey) hlt
  refine ⟨hf, ?_, ?_⟩
  · rw [hv, hvx, hvy, ← hr]
    push_cast
    exact exists_sub_intCast_mul_sign _ _ _ _ _ n
  · rw [hv, abs_mul, abs_sign, one_mul, abs_mul, abs_of_pos (two_zpow_pos e), ← Int.cast_abs,
      ← Nat.cast_natAbs]
    exact hhalf'

end Elementary

end ArmReach
