import Mathlib.Data.Int.Log
import Mathlib.Algebra.Order.Archimedean.Real.Basic
import Mathlib.Tactic.Linarith
import Mathlib.Tactic.Positivity
import Mathlib.Tactic.FieldSimp
import Mathlib.Tactic.Ring
/-!
# Rounding to a binary format

A binary format of `p` bits and least exponent `emin` holds the numbers `m * 2 ^ e` with an
integer `|m| < 2 ^ p` and `e ≥ emin` (`RepresentableIn`). A real number `x` is rounded to it by
keeping its `p` leading bits and rounding at the last of them, to the nearest and on a tie to
an even last bit. The last place of `x` is `2 ^ lastPlace p emin x`, with
`lastPlace p emin x = max (⌊log₂ |x|⌋ + 1 - p) emin`, so

  `roundTo p emin x = roundEven (x / 2 ^ lastPlace p emin x) * 2 ^ lastPlace p emin x`.

The exponent range has no upper end here: a format overflows exactly where the rounded value
reaches its largest power of two, and the operations say so themselves.

Main statements: rounding fixes the numbers of the format (`roundTo_eq_self`) and is monotone
(`roundTo_mono`); below a point of a grid at least as fine as the format's, the numbers of the
format stop one grid step short (`RepresentableIn.le_sub_of_lt`).

The doubles are the format of 53 bits and least exponent `-1074` (`round_eq_roundTo`), with
their own names for it: `round` fixes the doubles (`round_eq_self`), is monotone (`round_mono`),
so that it never crosses a double (`round_le_of_le`, `le_round_of_le`), and is off by at most
half a last place (`abs_round_sub_le`).

The module ends with the real values of the unpacked doubles of Lean's model (`unpackedValue`)
and of doubles (`toReal`), what it means for a double to be a rounded real (`RoundsTo`), and
where an extended mantissa puts a real (`Describes`).
-/

namespace ArmReach

namespace Binary64

noncomputable section

/-! ### Rounding to an integer -/

/-- The integer nearest to `x`, the even one of two at the same distance. -/
def roundEven (x : ℝ) : ℤ :=
  if x - ⌊x⌋ < 1 / 2 then ⌊x⌋
  else if 1 / 2 < x - ⌊x⌋ then ⌊x⌋ + 1
  else ⌊x⌋ + ⌊x⌋ % 2

theorem floor_le_roundEven (x : ℝ) : ⌊x⌋ ≤ roundEven x := by
  have := Int.emod_nonneg ⌊x⌋ (by norm_num : (2 : ℤ) ≠ 0)
  unfold roundEven
  split_ifs <;> omega

theorem roundEven_le_floor_add_one (x : ℝ) : roundEven x ≤ ⌊x⌋ + 1 := by
  have := Int.emod_lt_of_pos ⌊x⌋ (by norm_num : (0 : ℤ) < 2)
  unfold roundEven
  split_ifs <;> omega

@[simp] theorem roundEven_intCast (k : ℤ) : roundEven k = k := by
  simp [roundEven]

@[simp] theorem roundEven_zero : roundEven 0 = 0 := by
  simpa using roundEven_intCast 0

/-- The nearest integer is at most half away. -/
theorem abs_roundEven_sub_le (x : ℝ) : |(roundEven x : ℝ) - x| ≤ 1 / 2 := by
  have hlo := Int.floor_le x
  have hhi := Int.lt_floor_add_one x
  have h0 : (0 : ℝ) ≤ ((⌊x⌋ % 2 : ℤ) : ℝ) := by
    exact_mod_cast Int.emod_nonneg ⌊x⌋ (by norm_num : (2 : ℤ) ≠ 0)
  have h1 : ((⌊x⌋ % 2 : ℤ) : ℝ) ≤ 1 := by
    exact_mod_cast (show ⌊x⌋ % 2 ≤ 1 by omega)
  unfold roundEven
  rw [abs_le]
  split_ifs with hbelow habove
  · constructor <;> linarith
  · push_cast
    constructor <;> linarith
  · -- on the midpoint either neighbour is half away
    have hmid : x - ⌊x⌋ = 1 / 2 := le_antisymm (not_lt.mp habove) (not_lt.mp hbelow)
    push_cast
    constructor <;> linarith

/-- Rounding to the nearest integer is monotone, ties included. -/
theorem roundEven_mono {x y : ℝ} (h : x ≤ y) : roundEven x ≤ roundEven y := by
  rcases lt_or_eq_of_le (Int.floor_le_floor h) with hlt | heq
  · calc roundEven x ≤ ⌊x⌋ + 1 := roundEven_le_floor_add_one x
      _ ≤ ⌊y⌋ := hlt
      _ ≤ roundEven y := floor_le_roundEven y
  · -- the same integer part: the branch taken can only move up with the fraction
    have hd : x - ⌊y⌋ ≤ y - ⌊y⌋ := by linarith
    have hm := Int.emod_nonneg ⌊y⌋ (by norm_num : (2 : ℤ) ≠ 0)
    have hm' := Int.emod_lt_of_pos ⌊y⌋ (by norm_num : (0 : ℤ) < 2)
    unfold roundEven
    rw [heq]
    by_cases hx₁ : x - ⌊y⌋ < 1 / 2
    · rw [if_pos hx₁]
      split_ifs <;> omega
    · rw [if_neg hx₁, if_neg (by linarith : ¬ y - ⌊y⌋ < 1 / 2)]
      by_cases hx₂ : 1 / 2 < x - ⌊y⌋
      · rw [if_pos hx₂, if_pos (by linarith : 1 / 2 < y - ⌊y⌋)]
      · rw [if_neg hx₂]
        split_ifs <;> omega

/-- Rounding to the nearest integer is symmetric: ties to even do not depend on the sign. -/
theorem roundEven_neg (x : ℝ) : roundEven (-x) = -roundEven x := by
  by_cases hx : x = ⌊x⌋
  · rw [hx, ← Int.cast_neg, roundEven_intCast, roundEven_intCast]
  have hlt : (⌊x⌋ : ℝ) < x := lt_of_le_of_ne (Int.floor_le x) (Ne.symm hx)
  have hhi := Int.lt_floor_add_one x
  have hf : ⌊-x⌋ = -⌊x⌋ - 1 := by
    rw [Int.floor_eq_iff]
    push_cast
    constructor <;> linarith
  have hpar := Int.emod_two_eq_zero_or_one ⌊x⌋
  have hfrac : -x - ((-⌊x⌋ - 1 : ℤ) : ℝ) = 1 - (x - ⌊x⌋) := by push_cast; ring
  unfold roundEven
  rw [hf, hfrac]
  rcases lt_trichotomy (x - ⌊x⌋) (1 / 2) with h | h | h
  · rw [if_neg (by linarith), if_pos (by linarith), if_pos h]
    ring
  · rw [if_neg (by linarith), if_neg (by linarith), if_neg (by linarith),
      if_neg (by linarith)]
    omega
  · rw [if_pos (by linarith), if_neg (by linarith), if_pos h]
    ring

theorem roundEven_le_of_le {x : ℝ} {k : ℤ} (h : x ≤ k) : roundEven x ≤ k := by
  simpa using roundEven_mono h

theorem le_roundEven_of_le {x : ℝ} {k : ℤ} (h : (k : ℝ) ≤ x) : k ≤ roundEven x := by
  simpa using roundEven_mono h

/-! ### Rounding in a binary format

A binary format keeps `p` significant bits and has the least exponent `emin`. The last place
of `x` in it is `2 ^ lastPlace p emin x`, and `x` rounds to the multiple of the last place
nearest to it. Doubles are `p = 53`, `emin = -1074`; singles are `p = 24`, `emin = -149`. -/

/-- The exponent of the last of the `p` significant bits of a number of the size of `x`, held
at `emin` below the normal range. -/
def lastPlace (p : ℕ) (emin : ℤ) (x : ℝ) : ℤ := max (Int.log 2 |x| + 1 - p) emin

/-- `x` rounded to `p` significant bits at exponents from `emin` on, to nearest with ties to
even, in an unbounded exponent range. -/
def roundTo (p : ℕ) (emin : ℤ) (x : ℝ) : ℝ :=
  (roundEven (x / 2 ^ lastPlace p emin x) : ℝ) * 2 ^ lastPlace p emin x

/-- The finite numbers of the format: `m * 2 ^ e` with at most `p` significant bits and
`e ≥ emin`. -/
def RepresentableIn (p : ℕ) (emin : ℤ) (x : ℝ) : Prop :=
  ∃ m e : ℤ, |m| < 2 ^ p ∧ emin ≤ e ∧ x = m * 2 ^ e

theorem two_zpow_pos (e : ℤ) : (0 : ℝ) < 2 ^ e := zpow_pos (by norm_num) e

/-- Below the last place of a number of at most `2 ^ k`, in the normal range. -/
theorem log_lt_of_abs_lt {x : ℝ} {k : ℤ} (hx : x ≠ 0) (h : |x| < 2 ^ k) :
    Int.log 2 |x| < k := by
  exact (Int.lt_zpow_iff_log_lt (b := 2) (by norm_num) (abs_pos.mpr hx)).mp (by exact_mod_cast h)

/-- Scaling by the last place and back. -/
theorem div_mul_zpow (x : ℝ) (q : ℤ) : x / 2 ^ q * 2 ^ q = x :=
  div_mul_cancel₀ x (two_zpow_pos q).ne'

/-- A multiple of a power of two at or above the last place is on the grid of the last place. -/
theorem intCast_mul_zpow_div {m e q : ℤ} (hq : q ≤ e) :
    (m : ℝ) * 2 ^ e / 2 ^ q = ((m * 2 ^ (e - q).toNat : ℤ) : ℝ) := by
  have hpow : (2 : ℝ) ^ e = 2 ^ (e - q) * 2 ^ q := by
    rw [← zpow_add₀ (by norm_num : (2 : ℝ) ≠ 0)]
    congr 1
    ring
  have hnat : (2 : ℝ) ^ (e - q) = 2 ^ (e - q).toNat := by
    rw [← zpow_natCast]
    congr 1
    omega
  rw [hpow, hnat, ← mul_assoc, mul_div_assoc, div_self (two_zpow_pos q).ne']
  push_cast
  ring

/-- A power of two at or above the last place is on its grid. -/
theorem zpow_eq_intCast_mul {q n : ℤ} (hq : q ≤ n) :
    (2 : ℝ) ^ n = ((2 ^ (n - q).toNat : ℤ) : ℝ) * 2 ^ q := by
  have := intCast_mul_zpow_div (m := 1) hq
  simp only [Int.cast_one, one_mul] at this
  rw [← this, div_mul_zpow]

section Format

variable {p : ℕ} {emin : ℤ}

@[simp] theorem lastPlace_neg (x : ℝ) : lastPlace p emin (-x) = lastPlace p emin x := by
  simp [lastPlace]

@[simp] theorem roundTo_zero : roundTo p emin 0 = 0 := by
  simp [roundTo]

@[simp] theorem roundTo_neg (x : ℝ) : roundTo p emin (-x) = -roundTo p emin x := by
  simp [roundTo, neg_div, roundEven_neg]

theorem lastPlace_mono {x y : ℝ} (hx : x ≠ 0) (h : |x| ≤ |y|) :
    lastPlace p emin x ≤ lastPlace p emin y := by
  have := Int.log_mono_right (b := 2) (abs_pos.mpr hx) h
  unfold lastPlace
  omega

theorem lastPlace_le_of_abs_lt {x : ℝ} {e : ℤ} (hx : x ≠ 0) (he : emin ≤ e)
    (h : |x| < 2 ^ (e + p)) : lastPlace p emin x ≤ e := by
  have := log_lt_of_abs_lt hx h
  unfold lastPlace
  omega

/-- **Rounding fixes the numbers of the format.** -/
theorem roundTo_eq_self {x : ℝ} (h : RepresentableIn p emin x) : roundTo p emin x = x := by
  obtain ⟨m, e, hm, he, rfl⟩ := h
  rcases eq_or_ne m 0 with rfl | hm0
  · simp
  have hbound : |(m : ℝ) * 2 ^ e| < 2 ^ (e + p) := by
    rw [abs_mul, abs_of_pos (two_zpow_pos e), zpow_add₀ (by norm_num : (2 : ℝ) ≠ 0),
      zpow_natCast, mul_comm ((2 : ℝ) ^ e)]
    have : |(m : ℝ)| < 2 ^ p := by exact_mod_cast hm
    exact mul_lt_mul_of_pos_right this (two_zpow_pos e)
  have hq := lastPlace_le_of_abs_lt
    (mul_ne_zero (by exact_mod_cast hm0) (two_zpow_pos e).ne') he hbound
  unfold roundTo
  rw [intCast_mul_zpow_div hq, roundEven_intCast, ← intCast_mul_zpow_div hq, div_mul_zpow]

/-- On the grid of the last place of `x`, rounding stays on the same side of every point. -/
theorem roundTo_le_intCast_mul {x : ℝ} {k : ℤ} (h : x ≤ k * 2 ^ lastPlace p emin x) :
    roundTo p emin x ≤ k * 2 ^ lastPlace p emin x := by
  have hdiv : x / 2 ^ lastPlace p emin x ≤ k := by
    rwa [div_le_iff₀ (two_zpow_pos _)]
  have := roundEven_le_of_le hdiv
  unfold roundTo
  exact mul_le_mul_of_nonneg_right (by exact_mod_cast this) (two_zpow_pos _).le

theorem intCast_mul_le_roundTo {x : ℝ} {k : ℤ} (h : k * 2 ^ lastPlace p emin x ≤ x) :
    k * 2 ^ lastPlace p emin x ≤ roundTo p emin x := by
  have hdiv : (k : ℝ) ≤ x / 2 ^ lastPlace p emin x := by
    rwa [le_div_iff₀ (two_zpow_pos _)]
  have := le_roundEven_of_le hdiv
  unfold roundTo
  exact mul_le_mul_of_nonneg_right (by exact_mod_cast this) (two_zpow_pos _).le

theorem roundTo_nonneg {x : ℝ} (hx : 0 ≤ x) : 0 ≤ roundTo p emin x := by
  simpa using @intCast_mul_le_roundTo p emin x 0 (by simpa using hx)

theorem roundTo_nonpos {x : ℝ} (hx : x ≤ 0) : roundTo p emin x ≤ 0 := by
  simpa using @roundTo_le_intCast_mul p emin x 0 (by simpa using hx)

theorem roundTo_mono_of_nonneg (hp : 0 < p) {x y : ℝ} (hx : 0 ≤ x) (h : x ≤ y) :
    roundTo p emin x ≤ roundTo p emin y := by
  rcases hx.eq_or_lt with rfl | hx
  · simpa using roundTo_nonneg h
  have hy : 0 < y := lt_of_lt_of_le hx h
  have habs : |x| ≤ |y| := by rwa [abs_of_pos hx, abs_of_pos hy]
  rcases (@lastPlace_mono p emin x y hx.ne' habs).lt_or_eq with hlt | heq
  · -- `y` has a coarser grid: the power of two `P` at the top of `x`'s binade separates them
    have hlog : Int.log 2 |x| < Int.log 2 |y| := by
      unfold lastPlace at hlt
      omega
    have hx' : |x| = x := abs_of_pos hx
    have hy' : |y| = y := abs_of_pos hy
    set P : ℝ := 2 ^ Int.log 2 |y| with hP
    have hxP : x < P := by
      have h₁ := Int.lt_zpow_succ_log_self (b := 2) (by norm_num) |x|
      have h₂ : (2 : ℝ) ^ (Int.log 2 |x| + 1) ≤ P :=
        zpow_le_zpow_right₀ (by norm_num) (by omega)
      push_cast at h₁
      linarith
    have hPy : P ≤ y := by
      have := Int.zpow_log_le_self (b := 2) (by norm_num) (abs_pos.mpr hy.ne')
      push_cast at this
      linarith
    -- `P` is a point of both grids, below `y`'s last place only when the grids agree
    have hxr : roundTo p emin x ≤ P := by
      have hqx : lastPlace p emin x ≤ Int.log 2 |y| := by
        unfold lastPlace at hlt ⊢
        omega
      rw [hP, zpow_eq_intCast_mul hqx] at hxP ⊢
      exact roundTo_le_intCast_mul hxP.le
    have hPyr : P ≤ roundTo p emin y := by
      have hqy : lastPlace p emin y ≤ Int.log 2 |y| := by
        unfold lastPlace at hlt ⊢
        omega
      rw [hP, zpow_eq_intCast_mul hqy] at hPy ⊢
      exact intCast_mul_le_roundTo hPy
    linarith
  · -- the same grid: rounding the scaled values is monotone
    have hdiv : x / 2 ^ lastPlace p emin x ≤ y / 2 ^ lastPlace p emin y := by
      rw [heq]
      exact div_le_div_of_nonneg_right h (two_zpow_pos _).le
    unfold roundTo
    rw [heq] at hdiv ⊢
    exact mul_le_mul_of_nonneg_right (by exact_mod_cast roundEven_mono hdiv)
      (two_zpow_pos _).le

/-- **Rounding is monotone.** -/
theorem roundTo_mono (hp : 0 < p) {x y : ℝ} (h : x ≤ y) : roundTo p emin x ≤ roundTo p emin y := by
  rcases le_total 0 x with hx | hx
  · exact roundTo_mono_of_nonneg hp hx h
  rcases le_total y 0 with hy | hy
  · -- both sides negative: by symmetry
    have := @roundTo_mono_of_nonneg p emin hp _ _ (neg_nonneg.mpr hy) (neg_le_neg h)
    rw [roundTo_neg, roundTo_neg] at this
    linarith
  · exact le_trans (roundTo_nonpos hx) (roundTo_nonneg hy)

/-- The scaled value of a positive `x` is below `2 ^ p`: its integer part has at most `p`
bits. -/
theorem div_lastPlace_lt {x : ℝ} (hx : 0 < x) : x / 2 ^ lastPlace p emin x < 2 ^ p := by
  have hlt := Int.lt_zpow_succ_log_self (b := 2) (by norm_num) |x|
  have hpow : (2 : ℝ) ^ (Int.log 2 |x| + 1) ≤ 2 ^ ((p : ℤ) + lastPlace p emin x) :=
    zpow_le_zpow_right₀ (by norm_num) (by unfold lastPlace; omega)
  push_cast at hlt
  rw [div_lt_iff₀ (two_zpow_pos _)]
  calc x = |x| := (abs_of_pos hx).symm
    _ < 2 ^ (Int.log 2 |x| + 1) := hlt
    _ ≤ 2 ^ ((p : ℤ) + lastPlace p emin x) := hpow
    _ = 2 ^ p * 2 ^ lastPlace p emin x := by
      rw [zpow_add₀ (by norm_num : (2 : ℝ) ≠ 0), zpow_natCast]

/-- The rounded significand of a positive number has at most `p` bits. -/
theorem roundEven_div_lastPlace_le {x : ℝ} (hx : 0 < x) :
    roundEven (x / 2 ^ lastPlace p emin x) ≤ 2 ^ p :=
  roundEven_le_of_le (by exact_mod_cast (div_lastPlace_lt hx).le)

/-- The number of the format below a point `k * 2 ^ e` of a grid at least as fine as the
format's around it is at most the grid point before. -/
theorem RepresentableIn.le_sub_of_lt (hp : 0 < p) {r : ℝ} {k e : ℤ}
    (hr : RepresentableIn p emin r) (hk : 2 ^ (p - 1) < k) (h : r < k * 2 ^ e) :
    r ≤ (k - 1) * 2 ^ e := by
  obtain ⟨m, f, hm, -, rfl⟩ := hr
  rcases le_or_gt e f with hef | hfe
  · -- on the grid of `2 ^ e`: an integer multiple below `k`
    have hN := intCast_mul_zpow_div (m := m) hef
    have hlt : ((m * 2 ^ (f - e).toNat : ℤ) : ℝ) < k := by
      rw [← hN, div_lt_iff₀ (two_zpow_pos e)]
      exact h
    have hle : m * 2 ^ (f - e).toNat ≤ k - 1 := by
      have : m * 2 ^ (f - e).toNat < k := by exact_mod_cast hlt
      omega
    calc (m : ℝ) * 2 ^ f = ((m * 2 ^ (f - e).toNat : ℤ) : ℝ) * 2 ^ e := by
          rw [← hN, div_mul_zpow]
      _ ≤ ((k - 1 : ℤ) : ℝ) * 2 ^ e :=
          mul_le_mul_of_nonneg_right (by exact_mod_cast hle) (two_zpow_pos e).le
      _ = (k - 1) * 2 ^ e := by push_cast; ring
  · -- a finer exponent: `p` bits below `2 ^ e` reach only `2 ^ (p - 1) * 2 ^ e`
    have hm' : |(m : ℝ)| < 2 ^ p := by exact_mod_cast hm
    have hf : (2 : ℝ) ^ f ≤ 2 ^ (e - 1) := zpow_le_zpow_right₀ (by norm_num) (by omega)
    have hpow : (2 : ℝ) ^ p * 2 ^ (e - 1) = 2 ^ (p - 1) * 2 ^ e := by
      obtain ⟨q, rfl⟩ : ∃ q, p = q + 1 := ⟨p - 1, by omega⟩
      rw [zpow_sub₀ (by norm_num : (2 : ℝ) ≠ 0), zpow_one, pow_succ, Nat.add_sub_cancel]
      field_simp
    have hk' : (2 : ℝ) ^ (p - 1) ≤ k - 1 := by
      have : (2 : ℤ) ^ (p - 1) ≤ k - 1 := by omega
      exact_mod_cast this
    calc (m : ℝ) * 2 ^ f ≤ |(m : ℝ)| * 2 ^ f :=
          mul_le_mul_of_nonneg_right (le_abs_self _) (two_zpow_pos f).le
      _ ≤ 2 ^ p * 2 ^ (e - 1) := mul_le_mul hm'.le hf (two_zpow_pos f).le (by positivity)
      _ = 2 ^ (p - 1) * 2 ^ e := hpow
      _ ≤ (k - 1) * 2 ^ e := mul_le_mul_of_nonneg_right hk' (two_zpow_pos e).le

end Format

/-! ### Doubles -/

/-- The exponent of the last of the 53 significant bits of a double of the size of `x`, held
at `-1074` below the normal range. -/
def quantumExp (x : ℝ) : ℤ := max (Int.log 2 |x| - 52) (-1074)

/-- `x` rounded to a double, to nearest with ties to even, in an unbounded exponent range. -/
def round (x : ℝ) : ℝ := (roundEven (x / 2 ^ quantumExp x) : ℝ) * 2 ^ quantumExp x

/-- The finite doubles: `m * 2 ^ e` with at most 53 significant bits and `e ≥ -1074`. -/
def Representable (x : ℝ) : Prop :=
  ∃ m e : ℤ, |m| < 2 ^ 53 ∧ -1074 ≤ e ∧ x = m * 2 ^ e

theorem quantumExp_eq_lastPlace (x : ℝ) : quantumExp x = lastPlace 53 (-1074) x := by
  unfold quantumExp lastPlace
  push_cast
  omega

/-- Doubles are the binary format of 53 bits and least exponent `-1074`. -/
theorem round_eq_roundTo (x : ℝ) : round x = roundTo 53 (-1074) x := by
  rw [round, roundTo, quantumExp_eq_lastPlace]

theorem representable_iff_representableIn {x : ℝ} :
    Representable x ↔ RepresentableIn 53 (-1074) x :=
  Iff.rfl

@[simp] theorem round_zero : round 0 = 0 := by
  simp [round_eq_roundTo]

@[simp] theorem round_neg (x : ℝ) : round (-x) = -round x := by
  simp [round_eq_roundTo]

theorem quantumExp_le_of_abs_lt {x : ℝ} {e : ℤ} (hx : x ≠ 0) (he : -1074 ≤ e)
    (h : |x| < 2 ^ (e + 53)) : quantumExp x ≤ e := by
  rw [quantumExp_eq_lastPlace]
  exact lastPlace_le_of_abs_lt hx he (by exact_mod_cast h)

/-- **Rounding fixes the doubles.** -/
theorem round_eq_self {x : ℝ} (h : Representable x) : round x = x := by
  rw [round_eq_roundTo]
  exact roundTo_eq_self h

theorem round_nonneg {x : ℝ} (hx : 0 ≤ x) : 0 ≤ round x := by
  rw [round_eq_roundTo]
  exact roundTo_nonneg hx

theorem round_nonpos {x : ℝ} (hx : x ≤ 0) : round x ≤ 0 := by
  rw [round_eq_roundTo]
  exact roundTo_nonpos hx

/-- **Rounding is monotone.** -/
theorem round_mono {x y : ℝ} (h : x ≤ y) : round x ≤ round y := by
  rw [round_eq_roundTo, round_eq_roundTo]
  exact roundTo_mono (by norm_num) h

/-- Rounding does not cross a double from below. -/
theorem round_le_of_le {x d : ℝ} (hd : Representable d) (h : x ≤ d) : round x ≤ d :=
  round_eq_self hd ▸ round_mono h

/-- Rounding does not cross a double from above. -/
theorem le_round_of_le {x d : ℝ} (hd : Representable d) (h : d ≤ x) : d ≤ round x :=
  round_eq_self hd ▸ round_mono h

/-- The rounded significand of a positive number has at most 53 bits. -/
theorem roundEven_div_quantum_le {x : ℝ} (hx : 0 < x) :
    roundEven (x / 2 ^ quantumExp x) ≤ 2 ^ 53 := by
  rw [quantumExp_eq_lastPlace]
  exact roundEven_div_lastPlace_le hx

/-- The double below a point `k * 2 ^ e` of a grid at least as fine as the doubles' around it
is at most the grid point before. -/
theorem Representable.le_sub_of_lt {r : ℝ} {k e : ℤ} (hr : Representable r) (hk : 2 ^ 52 < k)
    (h : r < k * 2 ^ e) : r ≤ (k - 1) * 2 ^ e :=
  RepresentableIn.le_sub_of_lt (by norm_num) hr hk h

/-- In the normal range the rounded significand keeps its leading bit at `2 ^ 52`. -/
theorem two_pow_le_roundEven_div_quantum {x : ℝ} (hx : 0 < x) (hq : quantumExp x ≠ -1074) :
    2 ^ 52 ≤ roundEven (x / 2 ^ quantumExp x) := by
  have hqe : quantumExp x = Int.log 2 |x| - 52 := by
    unfold quantumExp at hq ⊢
    omega
  have hle := Int.zpow_log_le_self (b := 2) (by norm_num) (abs_pos.mpr hx.ne')
  push_cast at hle
  refine le_roundEven_of_le ?_
  rw [le_div_iff₀ (two_zpow_pos _), hqe, zpow_sub₀ (by norm_num : (2 : ℝ) ≠ 0)]
  calc ((2 ^ 52 : ℤ) : ℝ) * (2 ^ Int.log 2 |x| / 2 ^ 52) = 2 ^ Int.log 2 |x| := by
        push_cast
        field_simp
        norm_num
    _ ≤ |x| := hle
    _ = x := abs_of_pos hx

/-- **Rounding is off by at most half a last place.** -/
theorem abs_round_sub_le (x : ℝ) : |round x - x| ≤ 2 ^ quantumExp x / 2 := by
  have h := abs_roundEven_sub_le (x / 2 ^ quantumExp x)
  have hq := two_zpow_pos (quantumExp x)
  have hsplit : round x - x = ((roundEven (x / 2 ^ quantumExp x) : ℝ) - x / 2 ^ quantumExp x) *
      2 ^ quantumExp x := by
    unfold round
    rw [sub_mul, div_mul_zpow]
  rw [hsplit, abs_mul, abs_of_pos hq]
  nlinarith

/-! ### The values of doubles -/

section Values

open Float.Model
open Float.Model.UnpackedFloat (Sign ExtendedMantissa)

/-- The real value of a sign. -/
def signValue : Sign → ℝ
  | .positive => 1
  | .negative => -1

@[simp] theorem signValue_positive : signValue .positive = 1 := rfl

@[simp] theorem signValue_negative : signValue .negative = -1 := rfl

/-- The value of an unpacked double; NaN and the infinities count as zero. -/
def unpackedValue : UnpackedFloat → ℝ
  | .finite s m e _ => signValue s * (m * 2 ^ e)
  | _ => 0

/-- The real number a double stands for; NaN and the infinities stand for `0`. -/
def toReal (x : Float) : ℝ := unpackedValue x.toModel.unpack

/-- `z` is what rounding the real `v` to nearest gives: the finite double `round v` when that
lies below `2 ^ 1024` in magnitude, and otherwise the infinity of the sign of `v`. -/
def RoundsTo (v : ℝ) (z : Float) : Prop :=
  if |round v| < 2 ^ 1024 then z.isFinite = true ∧ toReal z = round v
  else z.toModel.unpack = .infinity (if 0 < v then .positive else .negative)

/-- `z` is what rounding the real `v` to the binary format of `p` bits and least exponent
`emin` gives, carried as a double: the finite double of value `roundTo p emin v` when that lies
below `2 ^ emax` in magnitude, and otherwise the infinity of the sign of `v`. -/
def RoundsToIn (p : ℕ) (emin : ℤ) (emax : ℕ) (v : ℝ) (z : Float) : Prop :=
  if |roundTo p emin v| < 2 ^ emax then z.isFinite = true ∧ toReal z = roundTo p emin v
  else z.toModel.unpack = .infinity (if 0 < v then .positive else .negative)

/-- Rounding to a double is rounding to the format of 53 bits, least exponent `-1074` and
overflow at `2 ^ 1024`. -/
theorem roundsTo_iff_roundsToIn {v : ℝ} {z : Float} : RoundsTo v z ↔ RoundsToIn 53 (-1074) 1024 v z := by
  unfold RoundsTo RoundsToIn
  rw [round_eq_roundTo]

/-- Where `x` lies against an extended mantissa: the mantissa is the integer part of `x`, the
round bit says whether the fraction reaches one half, and the sticky bit whether it is off
both zero and one half. -/
def Describes (em : ExtendedMantissa) (x : ℝ) : Prop :=
  match em.roundBit, em.stickyBit with
  | false, false => x = em.mantissa
  | false, true => (em.mantissa : ℝ) < x ∧ x < em.mantissa + 1 / 2
  | true, false => x = em.mantissa + 1 / 2
  | true, true => (em.mantissa : ℝ) + 1 / 2 < x ∧ x < em.mantissa + 1

end Values

end

end Binary64

end ArmReach
