import ArmReach.Proofs.Numeric.Negation
import ArmReach.Proofs.Spatial.Norm
import ArmReach.Spatial.Pose
/-!
# Comparing within a tolerance

Points are compared per axis, `-eps ≤ a - b ≤ eps`; rotations by their normalized quaternions,
per component `|q₁ - q₂| ≤ eps`, where `q₂` may also be taken negated, since `q` and `-q` are
the same rotation. The main statement, `almostEqual_symmetric`: every one of these relations
is symmetric, and the one on rotations does not see a negated quaternion, for every tolerance
and every double in the components, NaN and the infinities included.

It rests on exact facts of doubles, not on their values (`Proofs/Numeric/Negation`):
`b - a` is `-(a - b)` up to the sign of a zero, `a - -b = a + b = b + a`, and `|a - b| =
|b - a|`. The norm of a quaternion does not see its sign (`abs_scale_neg_one`): negating the
components leaves their magnitudes as they are up to the sign of a zero, and the norm does not
read that sign. So normalizing a negated quaternion gives the negated unit quaternion, or the
identity for both (`normalize_scale_neg_one`).
-/

namespace ArmReach

open Binary64

namespace Quaternion

/-! ### The norm does not see the sign -/

/-- The key of the magnitude `abs` takes of a component is the same for the component and
its negation. -/
theorem key_magnitude_neg (v : Float) :
    key (if -v < 0 then -(-v) else -v) = key (if v < 0 then -v else v) := by
  rw [Binary64.neg_neg]
  rcases hv : key v with _ | k
  · -- NaN is below nothing
    have h₁ : ¬v < 0 := by simp [lt_iff_key, hv]
    have h₂ : ¬-v < 0 := by simp [lt_iff_key, key_neg, hv]
    rw [if_neg h₁, if_neg h₂, key_neg, hv]
    rfl
  have hneg : key (-v) = some (negKey k) := by rw [key_neg, hv]; rfl
  by_cases h₁ : v < 0
  · -- a negative `v` has a positive negation
    have hk := (lt_iff_of_key hv key_zero).mp h₁
    have h₂ : ¬-v < 0 := by
      rw [lt_iff_of_key hneg key_zero, ← negKey_zero, negKey_lt_negKey]
      exact not_lt.mpr hk.le
    rw [if_neg h₂, if_pos h₁]
  by_cases h₂ : -v < 0
  · rw [if_pos h₂, if_neg h₁]
  · -- neither is negative: `v` is a zero, which negation keeps in the order
    have hk : k = toLex (0, toLex (0, 0)) := by
      rw [lt_iff_of_key hv key_zero, not_lt] at h₁
      rw [lt_iff_of_key hneg key_zero, ← negKey_zero, negKey_lt_negKey, not_lt] at h₂
      exact le_antisymm h₂ h₁
    rw [if_neg h₂, if_neg h₁, hneg, hv, hk, negKey_zero]

/-- `largerFirst` reads only the keys of its arguments. -/
theorem key_largerFirst {a a' b b' : Float} (ha : key a = key a') (hb : key b = key b') :
    key (largerFirst a b).1 = key (largerFirst a' b').1 ∧
      key (largerFirst a b).2 = key (largerFirst a' b').2 := by
  unfold largerFirst
  by_cases h : a < b
  · rw [if_pos h, if_pos ((lt_congr_key ha hb).mp h)]
    exact ⟨hb, ha⟩
  · rw [if_neg h, if_neg (mt (lt_congr_key ha hb).mpr h)]
    exact ⟨ha, hb⟩

theorem scale_neg_one (q : Quaternion) : q.scale (-1) = ⟨-q.re, -q.i, -q.j, -q.k⟩ := by
  simp only [scale, Binary64.neg_one_mul]

theorem key_sortedMagnitudes_scale_neg_one (q : Quaternion) :
    key (sortedMagnitudes (q.scale (-1))).1 = key (sortedMagnitudes q).1 ∧
      key (sortedMagnitudes (q.scale (-1))).2.1 = key (sortedMagnitudes q).2.1 ∧
        key (sortedMagnitudes (q.scale (-1))).2.2.1 = key (sortedMagnitudes q).2.2.1 ∧
          key (sortedMagnitudes (q.scale (-1))).2.2.2 = key (sortedMagnitudes q).2.2.2 := by
  rw [scale_neg_one]
  obtain ⟨h₁, h₁'⟩ := key_largerFirst (key_magnitude_neg q.re) (key_magnitude_neg q.i)
  obtain ⟨h₂, h₂'⟩ := key_largerFirst h₁ (key_magnitude_neg q.j)
  obtain ⟨h₃, h₃'⟩ := key_largerFirst h₂ (key_magnitude_neg q.k)
  exact ⟨h₃, h₁', h₂', h₃'⟩

theorem mul_self_zero (a : Float.Model.UnpackedFloat.Sign) :
    Float.Model.UnpackedFloat.mul .binary64 (.zero a) (.zero a) = .zero .positive := by
  cases a <;> rfl

/-- Doubles of one key square to one double after the same division: they are equal, or two
zeros, whose quotients are both NaN or zeros, and a zero squares to `+0`. -/
theorem div_mul_self_congr {x x' : Float} (h : key x = key x') (r : Float) :
    x / r * (x / r) = x' / r * (x' / r) := by
  by_cases hz : key x = some (toLex (0, toLex (0, 0)))
  · obtain ⟨s, hs⟩ := exists_zero_of_key_eq hz
    obtain ⟨s', hs'⟩ := exists_zero_of_key_eq (h ▸ hz)
    apply eq_of_unpack_eq
    rw [unpack_mul, unpack_mul, unpack_div, unpack_div, hs, hs']
    rcases r.toModel.unpack with t | _ | t | ⟨t, m, e, hm⟩ <;>
      simp only [Float.Model.UnpackedFloat.div, unpack_pack_zero, mul_self_zero]
  · rw [eq_of_key_eq h hz]

/-- `normOf` reads only the keys of the largest magnitude and of the other three. -/
theorem normOf_congr {r r' x₁ x₁' x₂ x₂' x₃ x₃' : Float} (hr : key r = key r')
    (h₁ : key x₁ = key x₁') (h₂ : key x₂ = key x₂') (h₃ : key x₃ = key x₃') :
    normOf r x₁ x₂ x₃ = normOf r' x₁' x₂' x₃' := by
  unfold normOf
  by_cases h0 : (r == 0) = true
  · rw [if_pos h0, if_pos (beq_congr_key hr rfl ▸ h0)]
  · have hr0 : key r ≠ some (toLex (0, toLex (0, 0))) :=
      fun hz => h0 ((beq_iff_key r 0).mpr ⟨_, hz, key_zero⟩)
    obtain rfl := eq_of_key_eq hr hr0
    rw [div_mul_self_congr h₁, div_mul_self_congr h₂, div_mul_self_congr h₃]

theorem hasInf_scale_neg_one (q : Quaternion) : (q.scale (-1)).hasInf = q.hasInf := by
  simp only [scale_neg_one, hasInf, isInf_neg]

theorem hasNaN_scale_neg_one (q : Quaternion) : (q.scale (-1)).hasNaN = q.hasNaN := by
  simp only [scale_neg_one, hasNaN, isNaN_neg]

/-- With no infinite and no NaN component, every component is finite. -/
theorem forall_isFinite_of_hasInf_hasNaN {q : Quaternion} (hinf : q.hasInf = false)
    (hnan : q.hasNaN = false) : ∀ c ∈ q.toList, c.isFinite = true := by
  simp only [hasInf, hasNaN, Bool.or_eq_false_iff] at hinf hnan
  simp only [toList, List.mem_cons, List.not_mem_nil, or_false]
  rintro c (rfl | rfl | rfl | rfl)
  · exact isFinite_of_isInf_eq_false_of_isNaN_eq_false hinf.1.1.1 hnan.1.1.1
  · exact isFinite_of_isInf_eq_false_of_isNaN_eq_false hinf.1.1.2 hnan.1.1.2
  · exact isFinite_of_isInf_eq_false_of_isNaN_eq_false hinf.1.2 hnan.1.2
  · exact isFinite_of_isInf_eq_false_of_isNaN_eq_false hinf.2 hnan.2

/-- **The norm of a quaternion does not see its sign.** -/
theorem abs_scale_neg_one (q : Quaternion) : (q.scale (-1)).abs = q.abs := by
  cases hinf : q.hasInf
  · cases hnan : q.hasNaN
    · -- finite components: both norms are `normOf` of magnitudes with the same keys
      have hq := forall_isFinite_of_hasInf_hasNaN hinf hnan
      have hq' := forall_isFinite_of_hasInf_hasNaN (by rw [hasInf_scale_neg_one, hinf])
        (by rw [hasNaN_scale_neg_one, hnan])
      obtain ⟨h₀, h₁, h₂, h₃⟩ := key_sortedMagnitudes_scale_neg_one q
      rw [abs_eq_normOf hq, abs_eq_normOf hq']
      exact normOf_congr h₀ h₁ h₂ h₃
    · -- a NaN component and no infinite one: NaN both ways
      unfold Quaternion.abs
      rw [hasInf_scale_neg_one, hasNaN_scale_neg_one, hinf, hnan, if_neg Bool.false_ne_true,
        if_neg Bool.false_ne_true, if_pos rfl, if_pos rfl]
  · -- an infinite component: `+∞` both ways
    unfold Quaternion.abs
    rw [hasInf_scale_neg_one, hinf, if_pos rfl, if_pos rfl]

/-- Normalizing a negated quaternion gives the negated unit quaternion, or the identity, as
for the quaternion itself. -/
theorem normalize_scale_neg_one (q : Quaternion) :
    (q.scale (-1)).normalize = q.normalize ∨
      (q.scale (-1)).normalize = q.normalize.scale (-1) := by
  unfold normalize
  dsimp only
  rw [abs_scale_neg_one]
  by_cases h : (q.abs == 0) = true
  · left
    rw [if_pos h, if_pos h]
  · right
    rw [if_neg h, if_neg h]
    simp only [scale, Binary64.neg_one_mul, Binary64.mul_neg]

/-! ### Comparing quaternions -/

theorem almostEqual_comm (a b : Quaternion) (tol : Float) :
    a.almostEqual b tol = b.almostEqual a tol := by
  rw [almostEqual, almostEqual, Binary64.abs_sub_comm a.re, Binary64.abs_sub_comm a.i,
    Binary64.abs_sub_comm a.j, Binary64.abs_sub_comm a.k]

/-- Comparing with the other negated is symmetric: `|a - -b| = |a + b| = |b - -a|`. -/
theorem almostEqual_scale_neg_one_comm (a b : Quaternion) (tol : Float) :
    a.almostEqual (b.scale (-1)) tol = b.almostEqual (a.scale (-1)) tol := by
  simp only [almostEqual, scale_neg_one, Binary64.sub_neg_eq_add]
  rw [Binary64.add_comm a.re, Binary64.add_comm a.i, Binary64.add_comm a.j,
    Binary64.add_comm a.k]

/-- Negating both sides changes no distance: `|-a - -b| = |b - a|`. -/
theorem almostEqual_scale_neg_one_scale_neg_one (a b : Quaternion) (tol : Float) :
    (a.scale (-1)).almostEqual (b.scale (-1)) tol = a.almostEqual b tol := by
  simp only [almostEqual, scale_neg_one, Binary64.sub_neg_eq_add]
  rw [Binary64.add_comm (-a.re), Binary64.add_comm (-a.i), Binary64.add_comm (-a.j),
    Binary64.add_comm (-a.k)]
  simp only [Binary64.add_neg_eq_sub]
  rw [Binary64.abs_sub_comm b.re, Binary64.abs_sub_comm b.i, Binary64.abs_sub_comm b.j,
    Binary64.abs_sub_comm b.k]

end Quaternion

/-! ### Comparing rotations, points and poses -/

namespace Orientation

theorem almostEqual_comm (o₁ o₂ : Orientation) (eps : Float) :
    o₁.almostEqual o₂ eps = o₂.almostEqual o₁ eps := by
  unfold almostEqual
  dsimp only
  rw [Quaternion.almostEqual_comm o₁.toQuaternion.normalize,
    Quaternion.almostEqual_scale_neg_one_comm o₁.toQuaternion.normalize]

/-- Negating the quaternion of the first rotation changes nothing. -/
theorem almostEqual_neg_left (o₁ o₂ : Orientation) (eps : Float) :
    (Orientation.quaternion (o₁.toQuaternion.scale (-1))).almostEqual o₂ eps =
      o₁.almostEqual o₂ eps := by
  have hq : (Orientation.quaternion (o₁.toQuaternion.scale (-1))).toQuaternion =
      o₁.toQuaternion.scale (-1) := rfl
  unfold almostEqual
  dsimp only
  rw [hq]
  rcases Quaternion.normalize_scale_neg_one o₁.toQuaternion with h | h
  · rw [h]
  · -- the two comparisons trade places
    rw [h, Quaternion.almostEqual_scale_neg_one_scale_neg_one, Quaternion.almostEqual_comm,
      Quaternion.almostEqual_scale_neg_one_comm, Bool.or_comm]

theorem almostEqual_neg_right (o₁ o₂ : Orientation) (eps : Float) :
    o₁.almostEqual (.quaternion (o₂.toQuaternion.scale (-1))) eps = o₁.almostEqual o₂ eps := by
  rw [almostEqual_comm, almostEqual_neg_left, almostEqual_comm]

end Orientation

namespace Vec3

theorem almostEqual_comm (a b : Vec3) (eps : Float) :
    a.almostEqual b eps = b.almostEqual a eps := by
  apply Bool.eq_iff_iff.mpr
  simp only [almostEqual, Bool.and_eq_true, decide_eq_true_eq, ge_iff_le]
  simp only [sub]
  rw [sub_le_iff_neg_le_sub a.x b.x, neg_le_sub_iff_sub_le a.x b.x,
    sub_le_iff_neg_le_sub a.y b.y, neg_le_sub_iff_sub_le a.y b.y,
    sub_le_iff_neg_le_sub a.z b.z, neg_le_sub_iff_sub_le a.z b.z]
  -- each axis gives the same two bounds, in the other order
  constructor <;> rintro ⟨⟨⟨⟨⟨h₁, h₂⟩, h₃⟩, h₄⟩, h₅⟩, h₆⟩ <;> exact ⟨⟨⟨⟨⟨h₂, h₁⟩, h₄⟩, h₃⟩, h₆⟩, h₅⟩

end Vec3

namespace Pose

theorem almostEqual_comm (a b : Pose) (eps : Float) :
    a.almostEqual b eps = b.almostEqual a eps := by
  rw [almostEqual, almostEqual, Vec3.almostEqual_comm, Orientation.almostEqual_comm]

theorem almostCoincident_comm (a b : Pose) (eps : Float) :
    a.almostCoincident b eps = b.almostCoincident a eps := by
  rw [almostCoincident, almostCoincident, Vec3.almostEqual_comm]

end Pose

/-- **The almost-equal relations are symmetric**, and the one on rotations does not see a
negated quaternion, for every tolerance and all components. -/
theorem almostEqual_symmetric :
    (∀ (o₁ o₂ : Orientation) (eps : Float),
      o₁.almostEqual o₂ eps = o₂.almostEqual o₁ eps ∧
        (Orientation.quaternion (o₁.toQuaternion.scale (-1))).almostEqual o₂ eps =
          o₁.almostEqual o₂ eps ∧
        o₁.almostEqual (.quaternion (o₂.toQuaternion.scale (-1))) eps =
          o₁.almostEqual o₂ eps) ∧
    (∀ (a b : Vec3) (eps : Float), a.almostEqual b eps = b.almostEqual a eps) ∧
    (∀ (a b : Pose) (eps : Float),
      a.almostEqual b eps = b.almostEqual a eps ∧
        a.almostCoincident b eps = b.almostCoincident a eps) :=
  ⟨fun o₁ o₂ eps => ⟨Orientation.almostEqual_comm o₁ o₂ eps,
      Orientation.almostEqual_neg_left o₁ o₂ eps, Orientation.almostEqual_neg_right o₁ o₂ eps⟩,
    Vec3.almostEqual_comm,
    fun a b eps => ⟨Pose.almostEqual_comm a b eps, Pose.almostCoincident_comm a b eps⟩⟩

end ArmReach
