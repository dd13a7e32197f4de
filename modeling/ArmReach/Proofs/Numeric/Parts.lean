import ArmReach.Proofs.Numeric.Operations
import ArmReach.Elementary.Remainder
/-!
# The exact parts of a double

`Binary64.parts`, `Binary64.classify` and `Binary64.signBit` read a double's fields off its
64-bit word; Lean's model of doubles reads the same fields when it unpacks the word. So a
finite double's value is its parts, signed by its sign bit (`toReal_eq_parts`).

On that rest the integer conversions: `ceil` gives the least integer not below a finite double
(`toReal_ceil`), a natural below `2 ^ 53` converts to a double exactly (`toReal_ofNat`), a
double that holds a natural converts back to it (`toNat_toUInt64`), and `ofExact` gives the
double of a value that has one (`toReal_ofExact`).
-/

namespace ArmReach

namespace Binary64

noncomputable section

open Float.Model
open Float.Model.UnpackedFloat (Sign)

/-! ### The fields of a word -/

theorem toNat_unpackExponent (b : BitVec 64) :
    (@UnpackedFloat.unpackExponent .binary64 b).toNat = exponentField b.toNat := by
  simp [UnpackedFloat.unpackExponent, Nat.shiftRight_eq_div_pow, exponentField, hiddenBit,
    fractionWidth]

theorem toNat_unpackMantissa (b : BitVec 64) :
    (@UnpackedFloat.unpackMantissa .binary64 b).toNat = fractionField b.toNat := by
  simp [UnpackedFloat.unpackMantissa, Nat.shiftRight_eq_div_pow, fractionField, hiddenBit,
    fractionWidth]

theorem signValue_unpackSign (b : BitVec 64) :
    signValue (Sign.ofBitVec (@UnpackedFloat.unpackSign .binary64 b)) =
      if signField b.toNat then -1 else 1 := by
  have hb := b.isLt
  have hsign : (@UnpackedFloat.unpackSign .binary64 b).toNat = b.toNat / 2 ^ 63 := by
    simp [UnpackedFloat.unpackSign, Nat.shiftRight_eq_div_pow]
    omega
  unfold Sign.ofBitVec signField
  rw [Nat.mod_eq_of_lt hb]
  by_cases h : 2 ^ 63 ≤ b.toNat
  · have hne : @UnpackedFloat.unpackSign .binary64 b ≠ 0#1 := fun h0 => by
      have := congrArg BitVec.toNat h0
      rw [hsign] at this
      simp at this
      omega
    rw [if_neg hne, if_pos (decide_eq_true h)]
    rfl
  · have heq : @UnpackedFloat.unpackSign .binary64 b = 0#1 :=
      BitVec.eq_of_toNat_eq (by rw [hsign]; simp; omega)
    rw [if_pos heq, if_neg (by simpa using h)]
    rfl

/-- The value of a word that is not NaN or infinite, read off its fields: a zero exponent
field holds a subnormal significand at `2 ^ -1074`, any other one the hidden bit too. -/
theorem unpackedValue_unpack {b : BitVec 64}
    (hfin : (UnpackedFloat.unpack .binary64 b).isFinite = true) :
    exponentField b.toNat ≠ 2047 ∧
    unpackedValue (UnpackedFloat.unpack .binary64 b) =
      (if signField b.toNat then -1 else 1) *
        (((if exponentField b.toNat = 0 then fractionField b.toNat
            else hiddenBit + fractionField b.toNat : ℕ) : ℝ) *
          2 ^ (if exponentField b.toNat = 0 then (-1074 : ℤ)
            else (exponentField b.toNat : ℤ) - 1075)) := by
  have hE := toNat_unpackExponent b
  have hF := toNat_unpackMantissa b
  have hS := signValue_unpackSign b
  unfold UnpackedFloat.unpack at hfin ⊢
  dsimp only at hfin ⊢
  by_cases hmax : @UnpackedFloat.unpackExponent .binary64 b = -1#_
  · rw [if_pos hmax] at hfin
    split at hfin <;> cases hfin
  have hEne : exponentField b.toNat ≠ 2047 := fun h =>
    hmax (BitVec.eq_of_toNat_eq (by rw [hE, h]; rfl))
  refine ⟨hEne, ?_⟩
  rw [if_neg hmax]
  by_cases hzero : @UnpackedFloat.unpackExponent .binary64 b = 0#_
  · -- a zero or a subnormal value
    have hE0 : exponentField b.toNat = 0 := by rw [← hE, hzero]; rfl
    rw [if_pos hzero]
    split
    · rename_i hm0
      have hF0 : fractionField b.toNat = 0 := by rw [← hF, hm0]; rfl
      simp [unpackedValue, hF0]
    · simp only [unpackedValue, hS, hF, hzero]
      simp [Format.exponentBias]
  · -- a normal value: the hidden bit above the fraction
    have hE0 : exponentField b.toNat ≠ 0 := fun h =>
      hzero (BitVec.eq_of_toNat_eq (by rw [hE, h]; rfl))
    rw [if_neg hzero]
    simp only [unpackedValue, hS, if_neg hE0, toNat_one_append, hF, hE]
    simp [Format.exponentBias, hiddenBit, fractionWidth]

/-- **A finite double's value is its exact parts, signed by its sign bit.** -/
theorem toReal_eq_parts {x : Float} (hx : x.isFinite = true) :
    toReal x = (if signBit x then -1 else 1) *
      ((parts x).significand * 2 ^ (parts x).exponent) := by
  obtain ⟨-, hv⟩ := unpackedValue_unpack (b := x.toModel.toBits.toBitVec) hx
  have hw : x.toBits.toNat = x.toModel.toBits.toBitVec.toNat := rfl
  rw [← hw] at hv
  unfold toReal Float.Model.unpack
  rw [hv]
  unfold parts signBit
  by_cases h0 : exponentField x.toBits.toNat = 0 <;> simp [h0]

/-- A finite double is classified finite, with its sign bit. -/
theorem classify_of_isFinite {x : Float} (hx : x.isFinite = true) :
    classify x = .finite (signBit x) := by
  obtain ⟨hE, -⟩ := unpackedValue_unpack (b := x.toModel.toBits.toBitVec) hx
  have hw : x.toBits.toNat = x.toModel.toBits.toBitVec.toNat := rfl
  unfold classify signBit
  rw [hw, if_neg hE]

/-- The significand of a double has at most 53 bits. -/
theorem significand_parts_lt (x : Float) : (parts x).significand < 2 ^ 53 := by
  have hf : fractionField x.toBits.toNat < 2 ^ 52 := by
    unfold fractionField hiddenBit fractionWidth
    exact Nat.mod_lt _ (by norm_num)
  unfold parts
  dsimp only
  split <;> simp only [hiddenBit, fractionWidth] <;> omega

/-- A finite double above zero has its sign bit clear. -/
theorem signBit_eq_false_of_pos {x : Float} (hx : x.isFinite = true) (h : 0 < toReal x) :
    signBit x = false := by
  rw [toReal_eq_parts hx] at h
  by_contra hs
  simp only [Bool.not_eq_false] at hs
  rw [if_pos hs] at h
  have : (0 : ℝ) ≤ (parts x).significand * 2 ^ (parts x).exponent :=
    mul_nonneg (Nat.cast_nonneg _) (two_zpow_pos _).le
  linarith

/-! ### Whole parts -/

/-- A natural number with `k` fraction bits splits into its whole part and its fraction. -/
theorem natCast_mul_zpow_neg (n k : ℕ) :
    (n : ℝ) * 2 ^ (-(k : ℤ)) = (n / 2 ^ k : ℕ) + ((n % 2 ^ k : ℕ) : ℝ) / 2 ^ k := by
  have hsplit : (n : ℝ) = 2 ^ k * (n / 2 ^ k : ℕ) + (n % 2 ^ k : ℕ) := by
    exact_mod_cast (Nat.div_add_mod n (2 ^ k)).symm
  rw [zpow_neg, zpow_natCast]
  conv_lhs => rw [hsplit]
  field_simp

theorem fraction_lt_one (n k : ℕ) : ((n % 2 ^ k : ℕ) : ℝ) / 2 ^ k < 1 := by
  rw [div_lt_one (by positivity)]
  exact_mod_cast Nat.mod_lt _ (by positivity)

theorem floor_natCast_mul_zpow_neg (n k : ℕ) :
    ⌊(n : ℝ) * 2 ^ (-(k : ℤ))⌋ = (n / 2 ^ k : ℕ) := by
  rw [Int.floor_eq_iff, natCast_mul_zpow_neg, Int.cast_natCast]
  have h0 : (0 : ℝ) ≤ ((n % 2 ^ k : ℕ) : ℝ) / 2 ^ k := by positivity
  have h1 := fraction_lt_one n k
  constructor <;> linarith

theorem ceil_natCast_mul_zpow_neg (n k : ℕ) :
    ⌈(n : ℝ) * 2 ^ (-(k : ℤ))⌉ =
      ((if n % 2 ^ k = 0 then n / 2 ^ k else n / 2 ^ k + 1 : ℕ) : ℤ) := by
  rw [Int.ceil_eq_iff, natCast_mul_zpow_neg, Int.cast_natCast]
  have h1 := fraction_lt_one n k
  by_cases hr : n % 2 ^ k = 0
  · rw [if_pos hr, hr]
    simp
  · -- a fraction is left: the ceiling is one above the whole part
    rw [if_neg hr, Nat.cast_add, Nat.cast_one]
    have h0 : (0 : ℝ) < ((n % 2 ^ k : ℕ) : ℝ) / 2 ^ k :=
      div_pos (by exact_mod_cast Nat.pos_of_ne_zero hr) (by positivity)
    constructor <;> linarith

/-! ### Conversions -/

/-- The double `1.0` as it is stored in the table of powers of ten. -/
theorem toModel_unpack_one :
    (Float.ofBits 0x3FF0000000000000).toModel.unpack =
      .finite .positive (2 ^ 52) (-52) (by decide) :=
  rfl

/-- **A natural below `2 ^ 53` converts to a double exactly.** -/
theorem toReal_ofNat {n : ℕ} (hn : n < 2 ^ 53) :
    (Float.ofNat n).isFinite = true ∧ toReal (Float.ofNat n) = n := by
  have hv : Representable (n : ℝ) := representable_natCast hn
  have hlt : |(n : ℝ)| < 2 ^ 1024 := by
    rw [abs_of_nonneg (Nat.cast_nonneg n)]
    calc (n : ℝ) < 2 ^ 53 := by exact_mod_cast hn
      _ ≤ 2 ^ 1024 := pow_le_pow_right₀ (by norm_num) (by norm_num)
  -- the word `n` converts through the model's normalization, then is multiplied by one
  have hword : n.toUInt64.toFloat.isFinite = true ∧ toReal n.toUInt64.toFloat = n := by
    have hn64 : n.toUInt64.toNat = n := UInt64.toNat_ofNat_of_lt' (lt_trans hn (by decide))
    obtain ⟨hc, hval⟩ := normalize_spec (n.toUInt64.toNat : ℤ) 0 .positive
    have hval' : unpackedValue (UnpackedFloat.normalize .binary64 (n.toUInt64.toNat : ℤ) 0
        .positive) = round n := by
      rw [hval, hn64, zpow_zero, mul_one, Int.cast_natCast]
    exact (roundsTo_pack hc hval').of_representable hv hlt
  have hone : (Float.ofBits 0x3FF0000000000000).isFinite = true ∧
      toReal (Float.ofBits 0x3FF0000000000000) = 1 := by
    refine ⟨by decide, ?_⟩
    unfold toReal
    rw [toModel_unpack_one]
    norm_num [unpackedValue]
  have hmul := mul_roundsTo hword.1 hone.1
  rw [hword.2, hone.2, mul_one] at hmul
  have hofNat : Float.ofNat n = n.toUInt64.toFloat * Float.ofBits 0x3FF0000000000000 := by
    unfold Float.ofNat
    show Float.ofScientific n false 0 = _
    unfold Float.ofScientific
    rw [dif_pos ⟨hn, by norm_num⟩]
    rfl
  rw [hofNat]
  exact hmul.of_representable hv hlt

/-- **`ceil` of a finite double is the least integer not below it**, and finite. -/
theorem toReal_ceil {x : Float} (hx : x.isFinite = true) :
    (ceil x).isFinite = true ∧ toReal (ceil x) = ⌈toReal x⌉ := by
  have hval := toReal_eq_parts hx
  have hsig := significand_parts_lt x
  unfold ceil
  rw [classify_of_isFinite hx]
  dsimp only
  by_cases he : 0 ≤ (parts x).exponent
  · -- no fraction bits: the value is an integer already
    rw [if_pos he]
    refine ⟨hx, ?_⟩
    obtain ⟨k, hk⟩ : ∃ k : ℕ, (parts x).exponent = k := ⟨_, (Int.toNat_of_nonneg he).symm⟩
    have hint : toReal x = (((if signBit x then -1 else 1) *
        ((parts x).significand * 2 ^ k : ℕ) : ℤ) : ℝ) := by
      rw [hval, hk, zpow_natCast]
      split <;> simp
    rw [hint, Int.ceil_intCast]
  · rw [if_neg he]
    obtain ⟨k, hk⟩ : ∃ k : ℕ, (parts x).exponent = -(k : ℤ) :=
      ⟨(-(parts x).exponent).toNat, by omega⟩
    have hk' : (-(parts x).exponent).toNat = k := by omega
    rw [hk']
    set n := (parts x).significand
    -- at least one fraction bit, so the whole part has at most 52 bits
    have hwhole : n / 2 ^ k < 2 ^ 52 := by
      have hk1 : 1 ≤ k := by omega
      calc n / 2 ^ k ≤ n / 2 ^ 1 := Nat.div_le_div_left (Nat.pow_le_pow_right (by norm_num) hk1)
            (by norm_num)
        _ < 2 ^ 52 := by omega
    cases hs : signBit x
    · -- a positive value goes up to the next integer when a fraction is left
      have hv : toReal x = n * 2 ^ (-(k : ℤ)) := by rw [hval, hs, hk]; simp
      obtain ⟨hf, hr⟩ := toReal_ofNat (n := if n % 2 ^ k = 0 then n / 2 ^ k else n / 2 ^ k + 1)
        (by split <;> omega)
      simp only [Bool.false_eq_true, if_false]
      refine ⟨hf, ?_⟩
      rw [hr, hv, ceil_natCast_mul_zpow_neg, Int.cast_natCast]
    · -- a negative value goes up to minus the whole part of its magnitude
      have hv : toReal x = -(n * 2 ^ (-(k : ℤ))) := by rw [hval, hs, hk]; simp
      obtain ⟨hf, hr⟩ := toReal_ofNat (n := n / 2 ^ k) (by omega)
      refine ⟨by simp only [if_true, isFinite_neg]; exact hf, ?_⟩
      simp only [if_true, toReal_neg]
      rw [hr, hv, Int.ceil_neg, floor_natCast_mul_zpow_neg]
      push_cast
      rfl

/-- The integer the model takes of a positive value is its floor. -/
theorem roundToInt_positive (m : ℕ) (e : ℤ) :
    UnpackedFloat.roundToInt .positive m e = ⌊(m : ℝ) * 2 ^ e⌋ := by
  simp only [UnpackedFloat.roundToInt, UnpackedFloat.decreaseExponent,
    UnpackedFloat.shiftToExponent, Sign.apply, mantissa_shiftRight,
    mantissa_ofMantissaAndAccuracy]
  by_cases he : 0 ≤ e
  · -- the mantissa is widened to exponent zero: an integer
    obtain ⟨k, rfl⟩ : ∃ k : ℕ, e = k := ⟨_, (Int.toNat_of_nonneg he).symm⟩
    have h0 : ((0 : ℤ) - ((k : ℤ) - ((k : ℤ) - 0).toNat)).toNat = 0 := by omega
    rw [h0, pow_zero, Nat.div_one, Nat.shiftLeft_eq, zpow_natCast,
      show ((k : ℤ) - 0).toNat = k by omega]
    rw [show (m : ℝ) * 2 ^ k = ((m * 2 ^ k : ℕ) : ℤ) by push_cast; ring, Int.floor_intCast]
  · -- the fraction bits are shifted out
    obtain ⟨k, hk⟩ : ∃ k : ℕ, e = -(k : ℤ) := ⟨(-e).toNat, by omega⟩
    have h0 : (e - 0).toNat = 0 := by omega
    have h1 : (0 - (e - ((0 : ℕ) : ℤ))).toNat = k := by omega
    rw [h0, Nat.shiftLeft_zero, h1, hk, floor_natCast_mul_zpow_neg]

/-- **A finite double holding a natural below `2 ^ 64` converts back to it.** -/
theorem toNat_toUInt64 {x : Float} (hx : x.isFinite = true) {n : ℕ} (h : toReal x = n)
    (hn : n < 2 ^ 64) : x.toUInt64.toNat = n := by
  show (UInt64.ofNatClamp (UnpackedFloat.toInt 0 (UInt64.size - 1) x.toModel.unpack).toNat).toNat = n
  have hc := canonical_of_isFinite hx
  unfold toReal at h
  cases hu : x.toModel.unpack with
  | notANumber | infinity _ => rw [hu] at hc; exact hc.elim
  | zero s =>
    rw [hu] at h
    have hn0 : n = 0 := by exact_mod_cast (show (0 : ℝ) = n from h).symm
    simp only [UnpackedFloat.toInt, hn0, Int.toNat_zero]
    exact UInt64.toNat_ofNatClamp_of_lt (by decide)
  | finite s m e hm =>
    rw [hu] at h
    have hpos := magnitude_pos m e hm
    cases s with
    | negative =>
      simp only [unpackedValue, signValue_negative] at h
      have : (0 : ℝ) ≤ n := Nat.cast_nonneg n
      linarith
    | positive =>
      simp only [unpackedValue, signValue_positive, one_mul] at h
      simp only [UnpackedFloat.toInt, roundToInt_positive, h, Int.floor_natCast, Int.toNat_natCast]
      exact UInt64.toNat_ofNatClamp_of_lt hn

/-- **`ofExact` gives the double of `±m * 2 ^ e` when that is a double below `2 ^ 1024`.** -/
theorem toReal_ofExact (neg : Bool) {m : ℕ} {e : ℤ} (hm : 0 < m)
    (hv : Representable ((m : ℝ) * 2 ^ e)) (hlt : (m : ℝ) * 2 ^ e < 2 ^ 1024) :
    (Elementary.ofExact neg m e).isFinite = true ∧
      toReal (Elementary.ofExact neg m e) = (if neg then -1 else 1) * (m * 2 ^ e) := by
  obtain ⟨hc, hval⟩ := round_spec .positive hm e
  rw [signValue_positive, one_mul] at hval
  have habs : |(m : ℝ) * 2 ^ e| < 2 ^ 1024 := by rwa [abs_of_pos (magnitude_pos m e hm)]
  obtain ⟨hf, hr⟩ := (roundsTo_pack hc hval).of_representable hv habs
  unfold Elementary.ofExact
  dsimp only
  cases neg
  · simp only [Bool.false_eq_true, if_false]
    exact ⟨hf, by rw [hr]; simp⟩
  · refine ⟨by simp only [if_true, isFinite_neg]; exact hf, ?_⟩
    simp only [if_true, toReal_neg]
    rw [hr]
    ring

end

end Binary64

end ArmReach
