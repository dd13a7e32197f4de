import ArmReach.Proofs.Kinematics.Representation
import ArmReach.Proofs.Numeric.Parts
/-!
# Negation and the symmetries of doubles

Negating a double flips its sign bit and nothing else, and the model's arithmetic treats the
two signs alike: the rounding steps carry the sign through (`roundWithAccuracy_neg`), and the
exact sums and differences the model forms before rounding are integers, so they obey the
laws of integers. On unpacked values:

* `add_comm_unpacked`, `add_neg_right`, `mul_neg_right`: addition is commutative, adding a
  negation is subtracting, and multiplying by a negation negates the product;
* `sub_swap`: `b - a` is the negation of `a - b`, except when both are `+0`;
* `mul_neg_one_left`: multiplying by `-1` negates every double, NaN and infinities included;
* `unpack_pack_neg`: packing commutes with negation, overflow included.

A double is determined by its unpacked form (`eq_of_unpack_eq`), since a valid word packs
back from it (`pack_unpack`). So the laws hold of doubles themselves: `-1 * x = -x`,
`x - -y = x + y`, `x + -y = x - y`, `x + y = y + x`, `x * -y = -(x * y)` and
`|x - y| = |y - x|`, for every `x` and `y`.

For the order, negation mirrors the order keys (`key_neg`), so `-x ≤ t ↔ -t ≤ x`
(`neg_le_comm`), and `y - x` has the key of `-(x - y)` (`key_sub_swap`): a bound on one
difference is a bound on the other, reversed (`sub_le_iff_neg_le_sub`).
-/

namespace ArmReach

namespace Binary64

open Float.Model
open Float.Model.UnpackedFloat (Sign roundWithAccuracy)

/-! ### Signs -/

@[simp] theorem neg_neg_sign (s : Sign) : -(-s) = s := by
  cases s <;> rfl

@[simp] theorem apply_neg_sign (s : Sign) (n : Int) : (-s).apply n = -s.apply n := by
  cases s <;> simp [Sign.apply]

theorem mul_neg_sign (s t : Sign) : s * -t = -(s * t) := by
  cases s <;> cases t <;> rfl

@[simp] theorem toBitVec_ofBitVec (v : BitVec 1) : (Sign.ofBitVec v).toBitVec = v := by
  unfold Sign.ofBitVec
  split
  · rename_i h
    rw [h]
    rfl
  · obtain rfl : v = 1#1 := by bv_omega
    rfl

/-! ### Unpacked values -/

@[simp] theorem unpacked_neg_neg (u : UnpackedFloat) : u.neg.neg = u := by
  cases u <;> simp [UnpackedFloat.neg]

@[simp] theorem unpacked_abs_neg (u : UnpackedFloat) : u.neg.abs = u.abs := by
  cases u <;> rfl

@[simp] theorem unpackedValue_neg (u : UnpackedFloat) : unpackedValue u.neg = -unpackedValue u := by
  cases u <;> simp [unpackedValue, UnpackedFloat.neg]

theorem unpackedValue_finite_ne_zero (s : Sign) {m : ℕ} (e : ℤ) (hm : 0 < m) :
    unpackedValue (.finite s m e hm) ≠ 0 := by
  have hs : signValue s ≠ 0 := by cases s <;> norm_num
  exact mul_ne_zero hs (magnitude_pos m e hm).ne'

/-- Rounding carries the sign through: the mantissa and exponent it picks do not read it. -/
theorem roundWithAccuracy_neg (s : Sign) (m : Nat) (e : Int) (acc : UnpackedFloat.Accuracy) :
    roundWithAccuracy .binary64 (-s) m e acc = (roundWithAccuracy .binary64 s m e acc).neg := by
  unfold roundWithAccuracy
  dsimp only
  split <;> rfl

theorem normalize_neg {n : Int} (hn : n ≠ 0) (e : Int) (z : Sign) :
    UnpackedFloat.normalize .binary64 (-n) e z = (UnpackedFloat.normalize .binary64 n e z).neg := by
  unfold UnpackedFloat.normalize UnpackedFloat.round
  rcases lt_or_gt_of_ne hn with hlt | hgt
  · rw [Int.compare_eq_gt.mpr (by omega), Int.compare_eq_lt.mpr hlt]
    exact roundWithAccuracy_neg .negative _ _ _
  · rw [Int.compare_eq_lt.mpr (by omega), Int.compare_eq_gt.mpr hgt, Int.neg_neg]
    exact roundWithAccuracy_neg .positive _ _ _

/-- The exact differences `x - y` and `y - x` round to negations of each other, or both
to `+0`. -/
theorem normalize_sub_swap (x y e : Int) :
    UnpackedFloat.normalize .binary64 (y - x) e .positive =
        (UnpackedFloat.normalize .binary64 (x - y) e .positive).neg ∨
      UnpackedFloat.normalize .binary64 (y - x) e .positive = .zero .positive ∧
        UnpackedFloat.normalize .binary64 (x - y) e .positive = .zero .positive := by
  by_cases h : x - y = 0
  · right
    rw [show y - x = 0 by omega, h]
    exact ⟨rfl, rfl⟩
  · left
    rw [show y - x = -(x - y) by omega]
    exact normalize_neg h e _

theorem add_neg_right (a b : UnpackedFloat) :
    UnpackedFloat.add .binary64 a b.neg = UnpackedFloat.sub .binary64 a b := by
  rcases a with _ | s₁ | s₁ | ⟨s₁, m₁, e₁, h₁⟩ <;> rcases b with _ | s₂ | s₂ | ⟨s₂, m₂, e₂, h₂⟩ <;>
    simp [UnpackedFloat.add, UnpackedFloat.sub, UnpackedFloat.neg, Int.sub_eq_add_neg]

theorem sub_neg_right (a b : UnpackedFloat) :
    UnpackedFloat.sub .binary64 a b.neg = UnpackedFloat.add .binary64 a b := by
  rw [← add_neg_right, unpacked_neg_neg]

/-- **Subtracting the other way round negates the difference**, except that two zeros of
one sign give `+0` both ways, as an exact difference of zero does. -/
theorem sub_swap (a b : UnpackedFloat) :
    UnpackedFloat.sub .binary64 b a = (UnpackedFloat.sub .binary64 a b).neg ∨
      UnpackedFloat.sub .binary64 b a = .zero .positive ∧
        UnpackedFloat.sub .binary64 a b = .zero .positive := by
  rcases a with s₁ | _ | s₁ | ⟨s₁, m₁, e₁, h₁⟩ <;> rcases b with s₂ | _ | s₂ | ⟨s₂, m₂, e₂, h₂⟩
  case infinity.infinity => left; cases s₁ <;> cases s₂ <;> rfl
  case zero.zero =>
    cases s₁ <;> cases s₂
    · exact .inr ⟨rfl, rfl⟩
    · exact .inl rfl
    · exact .inl rfl
    · exact .inr ⟨rfl, rfl⟩
  case finite.finite =>
    simp only [UnpackedFloat.sub, min_comm e₂ e₁]
    exact normalize_sub_swap _ _ _
  all_goals simp [UnpackedFloat.sub, UnpackedFloat.neg]

theorem add_comm_unpacked (a b : UnpackedFloat) :
    UnpackedFloat.add .binary64 a b = UnpackedFloat.add .binary64 b a := by
  rcases a with s₁ | _ | s₁ | ⟨s₁, m₁, e₁, h₁⟩ <;> rcases b with s₂ | _ | s₂ | ⟨s₂, m₂, e₂, h₂⟩
  case finite.finite =>
    -- both operands are brought down to the smaller exponent, and the exact sum commutes
    simp only [UnpackedFloat.add, min_comm e₂ e₁, Int.add_comm]
  case infinity.infinity => cases s₁ <;> cases s₂ <;> rfl
  case zero.zero => cases s₁ <;> cases s₂ <;> rfl
  all_goals rfl

theorem mul_neg_right (a b : UnpackedFloat) :
    UnpackedFloat.mul .binary64 a b.neg = (UnpackedFloat.mul .binary64 a b).neg := by
  rcases a with _ | s₁ | s₁ | ⟨s₁, m₁, e₁, h₁⟩ <;> rcases b with _ | s₂ | s₂ | ⟨s₂, m₂, e₂, h₂⟩ <;>
    simp [UnpackedFloat.mul, UnpackedFloat.neg, mul_neg_sign, roundWithAccuracy_neg]

/-- A canonical value other than zero is fixed by its value. -/
theorem Canonical.eq_of_value_eq {u v : UnpackedFloat} (hu : Canonical u) (hv : Canonical v)
    (h : unpackedValue u = unpackedValue v) (h0 : unpackedValue u ≠ 0) : u = v := by
  rcases u with _ | _ | s₁ | ⟨s₁, m₁, e₁, h₁⟩
  · exact hu.elim
  · exact hu.elim
  · exact absurd rfl h0
  rcases v with _ | _ | s₂ | ⟨s₂, m₂, e₂, h₂⟩
  · exact hv.elim
  · exact hv.elim
  · exact absurd h h0
  -- equal values have one sign and one magnitude, and canonical magnitudes one exponent
  have hp₁ := magnitude_pos m₁ e₁ h₁
  have hp₂ := magnitude_pos m₂ e₂ h₂
  obtain ⟨hmag, rfl⟩ : (m₁ : ℝ) * 2 ^ e₁ = m₂ * 2 ^ e₂ ∧ s₁ = s₂ := by
    cases s₁ <;> cases s₂ <;>
      simp only [unpackedValue, signValue_negative, signValue_positive, neg_mul, one_mul,
        neg_inj] at h
    · exact ⟨h, rfl⟩
    · linarith
    · linarith
    · exact ⟨h, rfl⟩
  have hcmp := compare_magnitude hu hv
  rw [hmag, compare_eq_iff_eq.mpr rfl, Ordering.then_eq_eq, Int.compare_eq_eq,
    Nat.compare_eq_eq] at hcmp
  obtain ⟨rfl, rfl⟩ := hcmp
  rfl

theorem unpack_neg_one :
    (-1 : Float).toModel.unpack = .finite .negative (2 ^ 52) (-52) (by decide) := by
  rw [unpack_neg]
  rfl

/-- **Multiplying by `-1` negates every unpacked double.** -/
theorem mul_neg_one_left {u : UnpackedFloat} (hu : u.isFinite = true → Canonical u) :
    UnpackedFloat.mul .binary64 (.finite .negative (2 ^ 52) (-52) (by decide)) u = u.neg := by
  rcases u with s | _ | s | ⟨s, m, e, hm⟩
  · cases s <;> rfl
  · rfl
  · cases s <;> rfl
  have hc := hu rfl
  have hone : Canonical (.finite .negative (2 ^ 52) (-52) (by decide)) :=
    ⟨by norm_num, by norm_num, Or.inl le_rfl⟩
  obtain ⟨hmc, hmv⟩ := mul_spec hone hc
  -- the exact product is `-v` for the value `v`, which a canonical value rounds to itself
  have hval : unpackedValue (UnpackedFloat.mul .binary64
      (.finite .negative (2 ^ 52) (-52) (by decide)) (.finite s m e hm)) =
        -unpackedValue (.finite s m e hm) := by
    have hminus : unpackedValue (.finite .negative (2 ^ 52) (-52) (by decide)) = -1 := by
      norm_num [unpackedValue]
    rw [hmv, hminus, neg_one_mul, round_neg, hc.round_value]
  refine Canonical.eq_of_value_eq hmc (canonical_finite_neg hc) ?_ ?_
  · rw [hval, unpackedValue_neg]
  · rw [hval, neg_ne_zero]
    exact unpackedValue_finite_ne_zero s e hm

/-! ### Words -/

theorem toNat_unpackSign (b : BitVec 64) :
    (@UnpackedFloat.unpackSign .binary64 b).toNat = b.toNat / 2 ^ 63 := by
  have hb := b.isLt
  simp [UnpackedFloat.unpackSign, Nat.shiftRight_eq_div_pow]
  omega

theorem toNat_packComponents (s : Sign) (E : BitVec 11) (M : BitVec 52) :
    (UnpackedFloat.packComponents .binary64 s E M).toNat =
      s.toBitVec.toNat * 2 ^ 63 + E.toNat * 2 ^ 52 + M.toNat := by
  show (s.toBitVec ++ E ++ M).toNat = _
  rw [BitVec.toNat_append, BitVec.toNat_append, ← Nat.shiftLeft_add_eq_or_of_lt M.isLt,
    ← Nat.shiftLeft_add_eq_or_of_lt E.isLt]
  simp only [Nat.shiftLeft_eq]
  ring

/-- A word is its three fields put back together. -/
theorem packComponents_unpack (b : BitVec Format.binary64.numBits) :
    UnpackedFloat.packComponents .binary64 (Sign.ofBitVec (UnpackedFloat.unpackSign b))
      (UnpackedFloat.unpackExponent b) (UnpackedFloat.unpackMantissa b) = b := by
  apply BitVec.eq_of_toNat_eq
  rw [toNat_packComponents, toBitVec_ofBitVec, toNat_unpackSign, toNat_unpackExponent,
    toNat_unpackMantissa]
  have hb := b.isLt
  simp only [exponentField, fractionField, hiddenBit, fractionWidth]
  omega

/-- **A valid word packs back from its unpacked form.** -/
theorem pack_unpack {b : BitVec Format.binary64.numBits} (hb : Format.binary64.Valid b) :
    UnpackedFloat.pack .binary64 (UnpackedFloat.unpack .binary64 b) = b := by
  have hmv := (@UnpackedFloat.unpackMantissa Format.binary64 b).isLt
  have hev := (@UnpackedFloat.unpackExponent Format.binary64 b).isLt
  change _ < 2 ^ 52 at hmv
  change _ < 2 ^ 11 at hev
  unfold UnpackedFloat.unpack
  dsimp only
  split
  · rename_i hE
    split
    · rename_i hM
      conv_rhs => rw [← packComponents_unpack b, hE, hM]
      rfl
    · -- a valid word with a NaN's exponent field is the canonical NaN
      rename_i hM
      exact (hb.eq_packedNaN hE hM).symm
  split
  · rename_i hE0
    split
    · rename_i hM
      conv_rhs => rw [← packComponents_unpack b, hE0, hM]
      rfl
    · -- a subnormal: the exponent field stays zero, the fraction is the significand
      rename_i hM
      have hM0 : (@UnpackedFloat.unpackMantissa Format.binary64 b).toNat ≠ 0 :=
        fun h => hM (BitVec.eq_of_toNat_eq h)
      have hlog : (@UnpackedFloat.unpackMantissa Format.binary64 b).toNat.log2 < 52 :=
        (Nat.log2_lt hM0).mpr hmv
      unfold UnpackedFloat.pack
      dsimp only
      split
      · rename_i hbig
        simp [hE0, Format.exponentBias] at hbig
      split
      · rename_i hnormal
        simp only [Format.mantissaBits] at hnormal
        omega
      conv_rhs => rw [← packComponents_unpack b, hE0]
      rw [BitVec.ofNat_toNat, BitVec.setWidth_eq]
  · -- a normal word: the implicit bit is dropped again, the exponent field comes back
    rename_i hE hE0
    have hev0 : (@UnpackedFloat.unpackExponent Format.binary64 b).toNat ≠ 0 :=
      fun h => hE0 (BitVec.eq_of_toNat_eq h)
    have hevmax : (@UnpackedFloat.unpackExponent Format.binary64 b).toNat ≠ 2047 :=
      fun h => hE (BitVec.eq_of_toNat_eq (by rw [h]; rfl))
    have hlog : (1#1 ++ @UnpackedFloat.unpackMantissa Format.binary64 b).toNat.log2 = 52 := by
      rw [toNat_one_append, Nat.log2_eq_iff (by omega)]
      exact ⟨by omega, by omega⟩
    unfold UnpackedFloat.pack
    dsimp only
    split
    · rename_i hbig
      simp [Format.exponentBias] at hbig
      omega
    split
    · conv_rhs => rw [← packComponents_unpack b]
      congr 1
      · apply BitVec.eq_of_toNat_eq
        simp [Format.exponentBias]
        omega
      · apply BitVec.eq_of_toNat_eq
        rw [BitVec.toNat_ofNat, toNat_one_append]
        omega
    · rename_i hsub
      simp [hlog, Format.mantissaBits] at hsub

/-- The sign bit of a word is all that negation changes. -/
theorem unpack_packComponents_neg (s : Sign) (E : BitVec 11) (M : BitVec 52) :
    UnpackedFloat.unpack .binary64 (UnpackedFloat.packComponents .binary64 (-s) E M) =
      (UnpackedFloat.unpack .binary64 (UnpackedFloat.packComponents .binary64 s E M)).neg := by
  unfold UnpackedFloat.unpack
  simp only [UnpackedFloat.unpackExponent_packComponents,
    UnpackedFloat.unpackMantissa_packComponents, unpackSign_packComponents, ofBitVec_toBitVec]
  split_ifs <;> rfl

/-- Packing commutes with negation, overflow to an infinity included. -/
theorem unpack_pack_neg (u : UnpackedFloat) :
    UnpackedFloat.unpack .binary64 (UnpackedFloat.pack .binary64 u.neg) =
      (UnpackedFloat.unpack .binary64 (UnpackedFloat.pack .binary64 u)).neg := by
  rcases u with s | _ | s | ⟨s, m, e, hm⟩
  · exact unpack_packComponents_neg s _ _
  · rfl
  · exact unpack_packComponents_neg s _ _
  · -- whether the value overflows, is normal or subnormal does not depend on its sign
    simp only [UnpackedFloat.neg, UnpackedFloat.pack]
    split_ifs <;> exact unpack_packComponents_neg s _ _

/-! ### Doubles -/

/-- **A double is determined by its unpacked form.** -/
theorem eq_of_unpack_eq {x y : Float} (h : x.toModel.unpack = y.toModel.unpack) : x = y := by
  obtain ⟨⟨bx, hvx⟩⟩ := x
  obtain ⟨⟨bits, hvy⟩⟩ := y
  have hbits : bx.toBitVec = bits.toBitVec :=
    calc bx.toBitVec = UnpackedFloat.pack .binary64 (UnpackedFloat.unpack .binary64 bx.toBitVec) :=
          (pack_unpack hvx).symm
      _ = UnpackedFloat.pack .binary64 (UnpackedFloat.unpack .binary64 bits.toBitVec) :=
          congrArg _ h
      _ = bits.toBitVec := pack_unpack hvy
  obtain rfl := UInt64.toBitVec_inj.mp hbits
  rfl

section Unpack

variable (x y : Float)

theorem unpack_add : (x + y).toModel.unpack =
    UnpackedFloat.unpack .binary64 (UnpackedFloat.pack .binary64
      (UnpackedFloat.add .binary64 x.toModel.unpack y.toModel.unpack)) :=
  rfl

theorem unpack_sub : (x - y).toModel.unpack =
    UnpackedFloat.unpack .binary64 (UnpackedFloat.pack .binary64
      (UnpackedFloat.sub .binary64 x.toModel.unpack y.toModel.unpack)) :=
  rfl

theorem unpack_mul : (x * y).toModel.unpack =
    UnpackedFloat.unpack .binary64 (UnpackedFloat.pack .binary64
      (UnpackedFloat.mul .binary64 x.toModel.unpack y.toModel.unpack)) :=
  rfl

theorem unpack_div : (x / y).toModel.unpack =
    UnpackedFloat.unpack .binary64 (UnpackedFloat.pack .binary64
      (UnpackedFloat.div .binary64 x.toModel.unpack y.toModel.unpack)) :=
  rfl

theorem unpack_abs : x.abs.toModel.unpack =
    UnpackedFloat.unpack .binary64 (UnpackedFloat.pack .binary64 x.toModel.unpack.abs) :=
  rfl

end Unpack

section Laws

variable (x y : Float)

protected theorem neg_neg : -(-x) = x := by
  apply eq_of_unpack_eq
  rw [unpack_neg, unpack_neg, unpacked_neg_neg]

protected theorem neg_one_mul : -1 * x = -x := by
  have hx : x.toModel.unpack.isFinite = true → Canonical x.toModel.unpack := canonical_unpack _
  apply eq_of_unpack_eq
  rw [unpack_mul, unpack_neg_one, mul_neg_one_left hx]
  rfl

protected theorem sub_neg_eq_add : x - -y = x + y := by
  apply eq_of_unpack_eq
  rw [unpack_sub, unpack_add, unpack_neg, sub_neg_right]

protected theorem add_neg_eq_sub : x + -y = x - y := by
  apply eq_of_unpack_eq
  rw [unpack_sub, unpack_add, unpack_neg, add_neg_right]

protected theorem add_comm : x + y = y + x := by
  apply eq_of_unpack_eq
  rw [unpack_add, unpack_add, add_comm_unpacked]

protected theorem mul_neg : x * -y = -(x * y) := by
  apply eq_of_unpack_eq
  rw [unpack_mul, unpack_neg, mul_neg_right, unpack_pack_neg, unpack_neg, unpack_mul]

/-- **The distance between two doubles does not depend on their order.** -/
protected theorem abs_sub_comm : (x - y).abs = (y - x).abs := by
  apply eq_of_unpack_eq
  rw [unpack_abs, unpack_abs, unpack_sub, unpack_sub]
  rcases sub_swap x.toModel.unpack y.toModel.unpack with h | ⟨h₁, h₂⟩
  · rw [h, unpack_pack_neg, unpacked_abs_neg]
  · rw [h₁, h₂]

end Laws

@[simp] theorem isInf_neg (x : Float) : (-x).isInf = x.isInf := by
  show (-x).toModel.unpack.isInf = x.toModel.unpack.isInf
  rw [unpack_neg]
  cases x.toModel.unpack <;> rfl

@[simp] theorem isNaN_neg (x : Float) : (-x).isNaN = x.isNaN := by
  show (-x).toModel.unpack.isNaN = x.toModel.unpack.isNaN
  rw [unpack_neg]
  cases x.toModel.unpack <;> rfl

/-! ### The order -/

/-- The key of the negation of a double: every component negated, so the order reversed. -/
def negKey (k : Int ×ₗ Int ×ₗ Int) : Int ×ₗ Int ×ₗ Int :=
  toLex (-(ofLex k).1, toLex (-(ofLex (ofLex k).2).1, -(ofLex (ofLex k).2).2))

theorem negKey_le_negKey {a b : Int ×ₗ Int ×ₗ Int} : negKey a ≤ negKey b ↔ b ≤ a := by
  obtain ⟨a₁, a₂, a₃⟩ := a
  obtain ⟨b₁, b₂, b₃⟩ := b
  change toLex (-a₁, toLex (-a₂, -a₃)) ≤ toLex (-b₁, toLex (-b₂, -b₃)) ↔
    toLex (b₁, toLex (b₂, b₃)) ≤ toLex (a₁, toLex (a₂, a₃))
  simp only [Prod.Lex.toLex_le_toLex]
  omega

theorem negKey_lt_negKey {a b : Int ×ₗ Int ×ₗ Int} : negKey a < negKey b ↔ b < a := by
  rw [lt_iff_le_not_ge, lt_iff_le_not_ge, negKey_le_negKey, negKey_le_negKey]

@[simp] theorem negKey_negKey (k : Int ×ₗ Int ×ₗ Int) : negKey (negKey k) = k := by
  simp [negKey]

@[simp] theorem negKey_zero : negKey (toLex (0, toLex (0, 0))) = toLex (0, toLex (0, 0)) := rfl

theorem key_neg (x : Float) : key (-x) = (key x).map negKey := by
  unfold key
  rw [unpack_neg]
  rcases x.toModel.unpack with (_ | _) | _ | (_ | _) | ⟨_ | _, m, e, _⟩ <;>
    simp [orderKey, negKey, UnpackedFloat.neg]

/-- `y - x` stands where `-(x - y)` does in the order: they differ at most in the sign of
a zero. -/
theorem key_sub_swap (x y : Float) : key (y - x) = key (-(x - y)) := by
  unfold key
  rw [unpack_neg, unpack_sub, unpack_sub]
  rcases sub_swap x.toModel.unpack y.toModel.unpack with h | ⟨h₁, h₂⟩
  · rw [h, unpack_pack_neg]
  · rw [h₁, h₂, unpack_pack_zero]
    rfl

section Congr

variable {x x' y y' : Float}

/-- Comparisons read only the keys of their operands. -/
theorem le_congr_key (hx : key x = key x') (hy : key y = key y') : x ≤ y ↔ x' ≤ y' := by
  rw [le_iff_key, le_iff_key, hx, hy]

theorem lt_congr_key (hx : key x = key x') (hy : key y = key y') : x < y ↔ x' < y' := by
  rw [lt_iff_key, lt_iff_key, hx, hy]

theorem beq_congr_key (hx : key x = key x') (hy : key y = key y') : (x == y) = (x' == y') :=
  Bool.eq_iff_iff.mpr (by rw [beq_iff_key, beq_iff_key, hx, hy])

/-- Only the two zeros share a key: doubles of one key other than zero's are equal. -/
theorem eq_of_key_eq (h : key x = key y) (hx : key x ≠ some (toLex (0, toLex (0, 0)))) :
    x = y := by
  apply eq_of_unpack_eq
  unfold key at h hx
  generalize x.toModel.unpack = a at h hx ⊢
  generalize y.toModel.unpack = b at h ⊢
  rcases a with (_ | _) | _ | (_ | _) | ⟨_ | _, m₁, e₁, h₁⟩ <;>
    rcases b with (_ | _) | _ | (_ | _) | ⟨_ | _, m₂, e₂, h₂⟩ <;>
    simp [orderKey] at h hx ⊢ <;> omega

theorem exists_zero_of_key_eq (h : key x = some (toLex (0, toLex (0, 0)))) :
    ∃ s, x.toModel.unpack = .zero s := by
  unfold key at h
  rcases hu : x.toModel.unpack with (_ | _) | _ | s | ⟨_ | _, m, e, hm⟩ <;>
    rw [hu] at h <;> simp [orderKey] at h
  exact ⟨s, rfl⟩

end Congr

theorem neg_le_comm (x t : Float) : -x ≤ t ↔ -t ≤ x := by
  rcases hx : key x with _ | a
  · simp [le_iff_key, key_neg, hx]
  rcases ht : key t with _ | b
  · simp [le_iff_key, key_neg, ht]
  -- with both keys known this is `negKey a ≤ b ↔ negKey b ≤ a`, `negKey` reversing the order
  rw [le_iff_of_key (by rw [key_neg, hx]; rfl) ht, le_iff_of_key (by rw [key_neg, ht]; rfl) hx]
  conv_lhs => rw [← negKey_negKey b]
  exact negKey_le_negKey

protected theorem neg_le_neg_iff (x y : Float) : -x ≤ -y ↔ y ≤ x := by
  rw [neg_le_comm, Binary64.neg_neg]

/-- A bound above on `y - x` is the same bound below on `x - y`. -/
theorem sub_le_iff_neg_le_sub (x y t : Float) : y - x ≤ t ↔ -t ≤ x - y := by
  rw [le_congr_key (key_sub_swap x y) rfl]
  exact neg_le_comm _ _

/-- A bound below on `y - x` is the same bound above on `x - y`. -/
theorem neg_le_sub_iff_sub_le (x y t : Float) : -t ≤ y - x ↔ x - y ≤ t := by
  rw [le_congr_key rfl (key_sub_swap x y)]
  exact Binary64.neg_le_neg_iff _ _

end Binary64

end ArmReach
