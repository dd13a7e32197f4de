import ArmReach.Proofs.Numeric.Remainder
import ArmReach.Proofs.Elementary.Arc
import ArmReach.Proofs.Solver.RestartLoop
/-!
# Nearest turns

`nearestAngles` moves each free joint of a candidate by whole turns towards a reference:
`nearestCongruent r c` is `r + remainder (c - r) 2π`. The remainder is exact
(`Elementary.remainder_spec`), so the offset `ρ` it adds to `r` is the double difference
`c - r` less whole turns, at most `π` in size; only the subtraction before it and the
addition after it round. So the new value is the double nearest `r + ρ`: within `π` of `r`
up to the rounding of that addition (`NearestTurn`, `nearestTurn_nearestCongruent`), and
finite even next to the largest double. When the difference overflows, the remainder of an
infinity is NaN and so is the new value (`isNaN_nearestCongruent`).

`nearestAngles_double_spec` puts the joints together: lists of different lengths give the
wrapped degrees-of-freedom error, equal ones a list with each joint as `RepairedJoint` says:
bounded joints unchanged, free ones moved as above.
-/

namespace ArmReach

open Binary64 Float.Model

/-! ### One free joint -/

/-- `c'` is `c` moved by whole turns to within half a turn of `r`, up to one rounding: it is
finite, it is the double nearest `r + ρ` for an offset `ρ` that is the double difference
`c - r` less whole turns `2π` and at most `π` in size, and so it is within `π` of `r` up to
the error of rounding `r + ρ`. -/
structure NearestTurn (r c c' : Float) : Prop where
  isFinite : c'.isFinite = true
  exists_offset : ∃ ρ : ℝ, (∃ k : ℤ, ρ = toReal (c - r) - k * (2 * toReal Elementary.pi)) ∧
    |ρ| ≤ toReal Elementary.pi ∧ RoundsTo (toReal r + ρ) c'
  abs_sub_le : |toReal c' - toReal r| ≤
    toReal Elementary.pi + 2 ^ (-53 : ℤ) * (|toReal r| + toReal Elementary.pi) + 2 ^ (-1075 : ℤ)

/-- **A free joint goes to the nearest turn**, when the reference and the difference are
finite. -/
theorem nearestTurn_nearestCongruent {r c : Float} (hr : r.isFinite = true)
    (hd : (c - r).isFinite = true) : NearestTurn r c (nearestCongruent .double r c) := by
  obtain ⟨h2f, h2v⟩ := toReal_two_mul_pi
  obtain ⟨hp3, hp4⟩ := toReal_pi_bounds
  have h2 : toReal (2 * Elementary.pi) ≠ 0 := by rw [h2v]; linarith
  obtain ⟨hf, ⟨k, hk⟩, hhalf⟩ := Elementary.remainder_spec hd h2f h2
  set ρ := toReal (Elementary.remainder (c - r) (2 * Elementary.pi))
  have hρ : |ρ| ≤ toReal Elementary.pi := by
    rw [h2v, abs_of_pos (show (0 : ℝ) < 2 * toReal Elementary.pi by linarith)] at hhalf
    linarith
  have hround : RoundsTo (toReal r + ρ) (nearestCongruent .double r c) := add_roundsTo hr hf
  have hv : |toReal r + ρ| ≤ |toReal r| + toReal Elementary.pi :=
    (abs_add_le _ _).trans (add_le_add le_rfl hρ)
  -- next to the largest double the offset is far below the half place of `2 ^ 970`
  have hfin := hround.isFinite_of_abs_le_add (by
    refine hv.trans (add_le_add (abs_toReal_le hr) (hp4.le.trans ?_))
    exact le_trans (by norm_num) (pow_le_pow_right₀ (by norm_num) (by norm_num : 2 ≤ 969)))
  refine ⟨hfin, ⟨ρ, ⟨k, by rw [hk, h2v]⟩, hρ, hround⟩, ?_⟩
  -- the rounding of `r + ρ` is the only error
  have herr := abs_round_sub_le_mul (toReal r + ρ)
  rw [← hround.toReal_eq hfin] at herr
  have hscale : 2 ^ (-53 : ℤ) * |toReal r + ρ| ≤ 2 ^ (-53 : ℤ) * (|toReal r| + toReal Elementary.pi) :=
    mul_le_mul_of_nonneg_left hv (two_zpow_pos _).le
  calc |toReal (nearestCongruent .double r c) - toReal r|
      = |(toReal (nearestCongruent .double r c) - (toReal r + ρ)) + ρ| := by ring_nf
    _ ≤ |toReal (nearestCongruent .double r c) - (toReal r + ρ)| + |ρ| := abs_add_le _ _
    _ ≤ _ := by linarith

/-- When the difference overflows, the remainder and so the new value are NaN. -/
theorem isNaN_nearestCongruent {r c : Float} (hd : (c - r).isFinite = false) :
    (nearestCongruent .double r c).isNaN = true :=
  isNaN_add_of_isNaN r (Elementary.isNaN_remainder_of_isFinite_eq_false _ hd)

/-! ### All joints -/

/-- What one joint becomes, from candidate `c`, reference `r` and limit `l`: a bounded joint
keeps its candidate; a free one goes to the nearest turn of a finite reference when the
difference is finite, and is NaN when the difference is not finite. -/
structure RepairedJoint (c r : Float) (l : Limit) (c' : Float) : Prop where
  bounded : l.continuous = false → c' = c
  nearest : l.continuous = true → r.isFinite = true → (c - r).isFinite = true →
    NearestTurn r c c'
  overflow : l.continuous = true → (c - r).isFinite = false → c'.isNaN = true

theorem repairedJoint (c r : Float) (l : Limit) :
    RepairedJoint c r l (if l.continuous then nearestCongruent .double r c else c) := by
  cases hl : l.continuous
  · have hfree (h : l.continuous = true) : False := Bool.false_ne_true (hl.symm.trans h)
    exact ⟨fun _ => if_neg Bool.false_ne_true, fun h => (hfree h).elim, fun h => (hfree h).elim⟩
  · rw [if_pos rfl]
    exact ⟨fun h => (Bool.false_ne_true (hl.symm.trans h).symm).elim,
      fun _ hr hd => nearestTurn_nearestCongruent hr hd, fun _ hd => isNaN_nearestCongruent hd⟩

/-- **Nearest turns for every free joint**: lists of different lengths give the wrapped
degrees-of-freedom error; equal ones give, joint by joint, the bounded candidate values
unchanged, the free ones moved to the nearest turn of the reference whenever the reference
and the difference are finite, and NaN when the difference overflows. -/
theorem nearestAngles_double_spec (reference candidate : List Float) (limits : List Limit) :
    (¬(reference.length = limits.length ∧ candidate.length = limits.length) →
      nearestAngles .double reference candidate limits =
        .error (.wrap s!"reference has {reference.length} values"
          (.incorrectDof candidate.length limits.length))) ∧
    (reference.length = limits.length → candidate.length = limits.length →
      ∃ out, nearestAngles .double reference candidate limits = .ok out ∧
        List.Forall₂ (fun (j : Float × Float × Limit) c' => RepairedJoint j.1 j.2.1 j.2.2 c')
          (candidate.zip (reference.zip limits)) out) := by
  refine ⟨fun h => ?_, fun hr hc => ⟨_, nearestAngles_of_length hr hc, ?_⟩⟩
  · unfold nearestAngles
    rw [if_pos (by rwa [not_and_or] at h)]
  · rw [List.forall₂_map_right_iff, List.forall₂_same]
    rintro ⟨c, r, l⟩ -
    exact repairedJoint c r l

theorem nearestAngles_double_spec_of_one_turn :
    ∃ out, nearestAngles .double [0] [7] [Limit.free] = .ok out ∧
      List.Forall₂ (fun (j : Float × Float × Limit) c' => RepairedJoint j.1 j.2.1 j.2.2 c')
        ([7].zip ([0].zip [Limit.free])) out :=
  (nearestAngles_double_spec [0] [7] [Limit.free]).2 rfl rfl

/-- Two free joints with finite values that do not end within half a turn. Next to `3` the
rounding of the last addition carries a joint past half a turn: the offset is exactly `π`,
and `3.000000000000003 + π` rounds up, so the new value is more than `π` from the reference,
also when the difference is taken as a double. And from `-1.7e308` to `1.7e308` the
difference overflows, so the new value is NaN. -/
theorem nearestAngles_past_half_turn :
    (nearestAngles .double [3.000000000000003] [18.70796326794897] [Limit.free] =
        .ok [nearestCongruent .double 3.000000000000003 18.70796326794897] ∧
      (nearestCongruent .double 3.000000000000003 18.70796326794897).toBits =
        (6.141592653589797 : Float).toBits ∧
      Elementary.pi <
        Float.abs (nearestCongruent .double 3.000000000000003 18.70796326794897 - 3.000000000000003)) ∧
    (nearestAngles .double [-1.7e308] [1.7e308] [Limit.free] =
        .ok [nearestCongruent .double (-1.7e308) 1.7e308] ∧
      (nearestCongruent .double (-1.7e308) 1.7e308).isNaN = true) :=
  ⟨⟨nearestAngles_of_length rfl rfl, by decide +kernel, by decide +kernel⟩,
    nearestAngles_of_length rfl rfl, isNaN_nearestCongruent (by decide +kernel)⟩

end ArmReach
