import ArmReach.Proofs.Random.Redraw
import ArmReach.Proofs.Solver.Precision
import ArmReach.Proofs.Elementary.Arc
import ArmReach.Proofs.Kinematics.Representation
import Mathlib.Data.List.Forall2
/-!
# Where random joint values fall

`randomPositions` takes one uniform number from the source per joint, in order, and turns it
into a value for the joint (`Limit.sample`): `-π + 2πu` for a free joint, `min + (max - min)u`
clamped into the range for a bounded one, then rounds it to the precision
(`randomPositions_eq`). Every uniform number lies in `[0, 1 - 2 ^ -53]`, since the source's
redraws always end (`Random.Source.float_bounds`).

The clamp keeps every number within a range whose bounds are in order, but it keeps NaN: `maxOf`
and `minOf` let NaN win over a finite bound. The value `min + (max - min)u` is a number when the
span `max - min` is finite (`isNaN_unclamped_eq_false`), and it then lies within the range
(`Limit.sample_within`). A free joint's value lies in `[-π, π)`: `2πu` rounds to at most the
double before `2π`, and adding `-π` cannot reach `π` (`Limit.sample_free`). Rounding to single
precision keeps the order of doubles (`roundSingle_mono`), so single-precision values lie
between the bounds rounded to single precision.

The main statement, `randomPositions_within_bounds`, puts these together as `Limit.Holds`. Two
things escape it. From `min = -∞` to `max = 0` the span is `+∞`, and `-∞ + ∞u` is NaN for every
positive `u`, so the joint gets NaN; and in single precision a free joint can reach `π` rounded
to single precision, which lies above `π` (`randomPositions_outside_range`).
-/

namespace ArmReach

open Binary64

namespace Random.Source

/-- The next `n` uniform numbers of the source, and the source after them. -/
def floats : Nat → Source → List Float × Source
  | 0, s => ([], s)
  | n + 1, s =>
    let (u, s) := s.float
    let (us, s) := floats n s
    (u :: us, s)

@[simp] theorem length_floats (n : Nat) (s : Source) : (floats n s).1.length = n := by
  induction n generalizing s with
  | zero => rfl
  | succ n ih => simp [floats, ih]

/-- **The source's next uniform numbers lie in `[0, 1)`**, at most `1 - 2 ^ -53`. -/
theorem bounds_of_mem_floats {n : Nat} {s : Source} {u : Float} (h : u ∈ (floats n s).1) :
    u.isFinite = true ∧ 0 ≤ toReal u ∧ toReal u ≤ 1 - 2 ^ (-53 : ℤ) := by
  induction n generalizing s with
  | zero => cases h
  | succ n ih =>
    simp only [floats, List.mem_cons] at h
    rcases h with rfl | h
    · exact float_bounds s
    · exact ih h

/-- A fold that, for each item, draws the source's next uniform number and appends `g` of the
item and the number draws the source's next numbers, one per item and in order. -/
theorem foldl_draws {β : Type} (g : β → Float → Float)
    {f : List Float × Source → β → List Float × Source}
    (hf : ∀ acc s b, f (acc, s) b = (acc ++ [g b s.float.1], s.float.2))
    (items : List β) (acc : List Float) (s : Source) :
    items.foldl f (acc, s) =
      (acc ++ List.zipWith g items (floats items.length s).1, (floats items.length s).2) := by
  induction items generalizing acc s with
  | nil => simp [floats]
  | cons b items ih => simp [floats, hf, ih]

end Random.Source

/-- The value of a joint of range `l` drawn from the uniform number `u`: `-π + 2πu` for a free
joint, `min + (max - min)u` clamped into the range for a bounded one. -/
def Limit.sample (l : Limit) (u : Float) : Float :=
  if l.continuous then -Elementary.pi + 2 * Elementary.pi * u
  else l.clamp (l.min + (l.max - l.min) * u)

/-- **Random joint values are samples of the source's next numbers**, one per joint and in
order, rounded to the precision. -/
theorem randomPositions_eq (p : Precision) (limits : List Limit) (src : Random.Source) :
    randomPositions p limits src =
      (List.zipWith (fun l u => p.round (l.sample u)) limits (src.floats limits.length).1,
        (src.floats limits.length).2) := by
  unfold randomPositions
  simpa using Random.Source.foldl_draws (fun l u => p.round (l.sample u)) (fun _ _ _ => rfl)
    limits [] src

/-- The span of a range is finite only between finite bounds, and then the unclamped value
of a finite uniform number is a number. -/
theorem Limit.isNaN_unclamped_eq_false {l : Limit} {u : Float}
    (hspan : (l.max - l.min).isFinite = true) (hu : u.isFinite = true) :
    (l.min + (l.max - l.min) * u).isNaN = false :=
  Binary64.isNaN_add_eq_false (Binary64.isFinite_of_isFinite_sub hspan).2
    (Binary64.isNaN_mul_eq_false hspan hu)

/-- **A bounded joint's sample lies within its range** when the bounds are in order and the
span and the uniform number are finite. -/
theorem Limit.sample_within {l : Limit} {u : Float} (hbounded : l.continuous = false)
    (hle : l.min ≤ l.max) (hspan : (l.max - l.min).isFinite = true) (hu : u.isFinite = true) :
    l.min ≤ l.sample u ∧ l.sample u ≤ l.max := by
  have hin := Limit.contains_clamp (fun _ => hle) (isNaN_unclamped_eq_false hspan hu)
  simp only [Limit.contains, hbounded, Bool.false_or, Bool.and_eq_true, decide_eq_true_eq] at hin
  simpa [Limit.sample, hbounded] using hin

/-- `2π` as a double is `K * 2 ^ -50` for `K = 7074237752028440`, a point of the grid of the
doubles in `[4, 8)`. -/
theorem toReal_two_mul_pi_eq :
    toReal (2 * Elementary.pi) = (7074237752028440 : ℤ) * 2 ^ (-50 : ℤ) := by
  rw [toReal_two_mul_pi.2, toReal_pi.2, show (2 : ℝ) ^ (-50 : ℤ) = 2 * 2 ^ (-51 : ℤ) by
    rw [show (-50 : ℤ) = 1 + -51 by norm_num, zpow_add₀ two_ne_zero, zpow_one]]
  push_cast
  ring

/-- `2πu` for `u` in `[0, 1 - 2 ^ -53]` rounds to a double in `[0, 2π)`, so to at most the double
before `2π`: `2πu` is at least `2π · 2 ^ -53` below `2π`, more than the half place `2 ^ -51`. -/
theorem two_pi_mul_bounds {u : Float} (hu : u.isFinite = true) (h0 : 0 ≤ toReal u)
    (h1 : toReal u ≤ 1 - 2 ^ (-53 : ℤ)) :
    (2 * Elementary.pi * u).isFinite = true ∧ 0 ≤ toReal (2 * Elementary.pi * u) ∧
      toReal (2 * Elementary.pi * u) ≤ ((7074237752028440 : ℤ) - 1) * 2 ^ (-50 : ℤ) := by
  obtain ⟨h2f, h2v⟩ := toReal_two_mul_pi
  have hK := toReal_two_mul_pi_eq
  have hp := toReal_pi_bounds
  have ht := mul_roundsTo h2f hu
  have h0rep : Representable 0 := ⟨0, 0, by norm_num, by norm_num, by simp⟩
  have hx0 : 0 ≤ toReal (2 * Elementary.pi) * toReal u := mul_nonneg (by rw [h2v]; linarith) h0
  have hx2 : toReal (2 * Elementary.pi) * toReal u ≤ toReal (2 * Elementary.pi) :=
    mul_le_of_le_one_right (by rw [h2v]; linarith) (h1.trans (by linarith [two_zpow_pos (-53)]))
  -- `2πu` is at least `2π · 2 ^ -53 = π · 2 ^ -52` below `2π`
  have h53 : (2 : ℝ) ^ (-53 : ℤ) = 2 ^ (-52 : ℤ) / 2 := by
    rw [show (-53 : ℤ) = -52 + -1 by norm_num, zpow_add₀ two_ne_zero, zpow_neg_one]
    ring
  have hmul := mul_le_mul_of_nonneg_left h1 (by rw [h2v]; linarith : 0 ≤ toReal (2 * Elementary.pi))
  obtain ⟨htf, ht0, -⟩ := ht.between h0rep (representable_toReal h2f) (by norm_num)
    (abs_toReal_lt h2f) hx0 hx2
  refine ⟨htf, ht0, ?_⟩
  have hrep := representable_toReal htf
  rw [ht.toReal_eq htf] at hrep ⊢
  rw [h53, h2v] at hmul
  rw [h2v] at hx0 hx2 hK hrep ⊢
  generalize toReal Elementary.pi = P at hp hmul hx0 hx2 hK hrep ⊢
  generalize toReal u = v at hmul hx0 hx2 hrep ⊢
  -- `x` is more than half a place of `[4, 8)` below `2π`, so it rounds below `2π`
  have hlt : Binary64.round (2 * P * v) < (7074237752028440 : ℤ) * 2 ^ (-50 : ℤ) := by
    rw [← hK]
    rcases hx0.eq_or_lt with h | h
    · rw [← h, round_zero]
      linarith
    have hq : quantumExp (2 * P * v) ≤ -50 := by
      refine quantumExp_le_of_abs_lt h.ne' (by norm_num) ?_
      rw [abs_of_pos h]
      calc 2 * P * v ≤ 2 * P := hx2
        _ < 2 ^ (-50 + 53 : ℤ) := by norm_num; linarith
    have hc : (2 : ℝ) ^ (-50 : ℤ) = 4 * 2 ^ (-52 : ℤ) := by
      rw [show (-50 : ℤ) = 2 + -52 by norm_num, zpow_add₀ two_ne_zero]
      norm_num
    have hhalf : (2 : ℝ) ^ quantumExp (2 * P * v) / 2 ≤ 2 * 2 ^ (-52 : ℤ) := by
      rw [div_le_iff₀ (by norm_num : (0 : ℝ) < 2)]
      calc (2 : ℝ) ^ quantumExp (2 * P * v) ≤ 2 ^ (-50 : ℤ) :=
            zpow_le_zpow_right₀ (by norm_num) hq
        _ = 2 * 2 ^ (-52 : ℤ) * 2 := by rw [hc]; ring
    have herr := (abs_le.mp (abs_round_sub_le (2 * P * v))).2
    have hP : 2 * 2 ^ (-52 : ℤ) < P * 2 ^ (-52 : ℤ) :=
      mul_lt_mul_of_pos_right (by linarith) (two_zpow_pos _)
    nlinarith
  have h := hrep.le_sub_of_lt (by norm_num) hlt
  push_cast at h ⊢
  exact h

/-- **A free joint's sample lies in `[-π, π)`** for every uniform number in `[0, 1 - 2 ^ -53]`:
`2πu` rounds to at most the double before `2π`, and adding `-π` stops at the double
`π - 2 ^ -50`. -/
theorem Limit.sample_free {u : Float} (hu : u.isFinite = true) (h0 : 0 ≤ toReal u)
    (h1 : toReal u ≤ 1 - 2 ^ (-53 : ℤ)) :
    (-Elementary.pi + 2 * Elementary.pi * u).isFinite = true ∧
      -Elementary.pi ≤ -Elementary.pi + 2 * Elementary.pi * u ∧
      -Elementary.pi + 2 * Elementary.pi * u < Elementary.pi := by
  obtain ⟨hpf, hpv⟩ := toReal_pi
  obtain ⟨htf, ht0, htK⟩ := two_pi_mul_bounds hu h0 h1
  have hnf : (-Elementary.pi).isFinite = true := by rw [isFinite_neg]; exact hpf
  have hv := add_roundsTo hnf htf
  rw [toReal_neg] at hv
  have h51 : (2 : ℝ) ^ (-51 : ℤ) = 2 ^ (-50 : ℤ) / 2 := by
    rw [show (-51 : ℤ) = -50 + -1 by norm_num, zpow_add₀ two_ne_zero, zpow_neg_one]
    ring
  -- the double `π - 2 ^ -50` is the greatest sum
  have hhi : -toReal Elementary.pi + toReal (2 * Elementary.pi * u) ≤
      (3537118876014219 : ℤ) * 2 ^ (-50 : ℤ) := by
    rw [hpv, h51]
    push_cast at htK ⊢
    generalize (2 : ℝ) ^ (-50 : ℤ) = c at htK ⊢
    linarith
  have hrep : Representable ((3537118876014219 : ℤ) * 2 ^ (-50 : ℤ)) :=
    ⟨3537118876014219, -50, by norm_num, by norm_num, rfl⟩
  have hrepn : Representable (-toReal Elementary.pi) := by
    have := representable_toReal hnf
    rwa [toReal_neg] at this
  obtain ⟨hvf, hlo, hup⟩ := hv.between hrepn hrep (by rw [abs_neg]; exact abs_toReal_lt hpf)
    (lt_two_pow_1024 (by norm_num)) (by linarith) hhi
  refine ⟨hvf, (le_iff_toReal_le hnf hvf).mpr (by rw [toReal_neg]; exact hlo),
    (lt_iff_toReal_lt hvf hpf).mpr ?_⟩
  rw [hpv, h51]
  push_cast at hup
  have hc := two_zpow_pos (-50)
  generalize (2 : ℝ) ^ (-50 : ℤ) = c at hup hc ⊢
  linarith

/-! ### Every joint -/

/-- Where the value of a joint of range `l` lies in precision `p`. A bounded range whose bounds
are in order and whose span is finite holds its value between its bounds rounded to the
precision. A free joint's value lies between `-π` and `π` rounded to the precision, and in
double precision below `π`. -/
structure Limit.Holds (p : Precision) (l : Limit) (v : Float) : Prop where
  bounded : l.continuous = false → l.min ≤ l.max → (l.max - l.min).isFinite = true →
    p.round l.min ≤ v ∧ v ≤ p.round l.max
  free : l.continuous = true → p.round (-Elementary.pi) ≤ v ∧ v ≤ p.round Elementary.pi
  free_double : l.continuous = true → p = .double → v < Elementary.pi

/-- A sample of a uniform number in `[0, 1 - 2 ^ -53]`, rounded to the precision, holds where its
range says: rounding to single precision keeps the order of the double bounds. -/
theorem Limit.holds_round_sample (p : Precision) (l : Limit) {u : Float} (hu : u.isFinite = true)
    (h0 : 0 ≤ toReal u) (h1 : toReal u ≤ 1 - 2 ^ (-53 : ℤ)) :
    l.Holds p (p.round (l.sample u)) where
  bounded hb hle hspan := by
    obtain ⟨hlo, hhi⟩ := l.sample_within hb hle hspan hu
    obtain ⟨hmax, hmin⟩ := isFinite_of_isFinite_sub hspan
    have hs := isFinite_of_le_of_le hmin hmax hlo hhi
    cases p with
    | double => exact ⟨hlo, hhi⟩
    | single => exact ⟨roundSingle_mono hmin hs hlo, roundSingle_mono hs hmax hhi⟩
  free hc := by
    obtain ⟨hf, hlo, hhi⟩ := Limit.sample_free hu h0 h1
    have hpf := toReal_pi.1
    have hnf : (-Elementary.pi).isFinite = true := by rw [isFinite_neg]; exact hpf
    have hle : -Elementary.pi + 2 * Elementary.pi * u ≤ Elementary.pi :=
      (le_iff_toReal_le hf hpf).mpr ((lt_iff_toReal_lt hf hpf).mp hhi).le
    rw [Limit.sample, if_pos hc]
    cases p with
    | double => exact ⟨hlo, hle⟩
    | single => exact ⟨roundSingle_mono hnf hf hlo, roundSingle_mono hf hpf hle⟩
  free_double hc hp := by
    subst hp
    rw [Limit.sample, if_pos hc]
    exact (Limit.sample_free hu h0 h1).2.2

theorem forall₂_holds_zipWith_sample (p : Precision) {limits : List Limit} {us : List Float}
    (hlen : us.length = limits.length)
    (hus : ∀ u ∈ us, u.isFinite = true ∧ 0 ≤ toReal u ∧ toReal u ≤ 1 - 2 ^ (-53 : ℤ)) :
    List.Forall₂ (Limit.Holds p) limits
      (List.zipWith (fun l u => p.round (l.sample u)) limits us) := by
  induction limits generalizing us with
  | nil => simp
  | cons l limits ih =>
    cases us with
    | nil => cases hlen
    | cons u us =>
      obtain ⟨hu, h0, h1⟩ := hus u (by simp)
      exact .cons (l.holds_round_sample p hu h0 h1)
        (ih (by simpa using hlen) (fun u' hu' => hus u' (by simp [hu'])))

/-- **Random joint values**, in either precision and from every state of the source: the
source's next uniform numbers, one per joint, are finite and in `[0, 1)`; the values are their
samples rounded to the precision, one per joint and in order; and each value lies where its
range says (`Limit.Holds`): for a bounded joint whose bounds are in order and whose span is
finite, between its bounds rounded to the precision; for a free joint, in `[-π, π)` in double
precision and between `-π` and `π` rounded to single precision in single precision. -/
theorem randomPositions_within_bounds (p : Precision) (limits : List Limit)
    (src : Random.Source) :
    let us := (src.floats limits.length).1
    let vs := (randomPositions p limits src).1
    (∀ u ∈ us, u.isFinite = true ∧ 0 ≤ toReal u ∧ toReal u < 1) ∧
      vs = List.zipWith (fun l u => p.round (l.sample u)) limits us ∧
      List.Forall₂ (Limit.Holds p) limits vs := by
  intro us vs
  have hus : ∀ u ∈ us, u.isFinite = true ∧ 0 ≤ toReal u ∧ toReal u ≤ 1 - 2 ^ (-53 : ℤ) :=
    fun u hu => Random.Source.bounds_of_mem_floats hu
  have hvs : vs = List.zipWith (fun l u => p.round (l.sample u)) limits us := by
    simp only [vs, us, randomPositions_eq]
  refine ⟨fun u hu => ?_, hvs, ?_⟩
  · obtain ⟨hf, h0, h1⟩ := hus u hu
    exact ⟨hf, h0, h1.trans_lt (by linarith [two_zpow_pos (-53 : ℤ)])⟩
  · rw [hvs]
    exact forall₂_holds_zipWith_sample p (by simp [us]) hus

/-- Two ways out of the range. From `-∞` to `0` the span is `+∞`: a source whose next word is
`2` draws `2 ^ -62`, and `-∞ + ∞ · 2 ^ -62` is NaN, which the clamp keeps. And in single
precision a free joint reaches `π` rounded to single precision, which lies above `π`: a source
whose next word has the low bits `2 ^ 63 - 2 ^ 10` draws `1 - 2 ^ -53`, the free value is then
the double `π - 2 ^ -50`, and that rounds up to the single nearest to `π`. -/
theorem randomPositions_outside_range :
    (randomPositions .double [⟨-(1.0 / 0.0), 0, false⟩]
      ⟨Vector.replicate 607 1, ⟨0, by decide⟩, ⟨334, by decide⟩, by decide⟩).1.map Float.isNaN =
      [true] ∧
    (randomPositions .single [Limit.free]
      ⟨Vector.replicate 607 0x3FFFFFFFFFFFFE00, ⟨0, by decide⟩, ⟨334, by decide⟩,
        by decide⟩).1.map Float.toBits = [(Precision.roundSingle Elementary.pi).toBits] ∧
    Elementary.pi < Precision.roundSingle Elementary.pi :=
  ⟨by decide +kernel, by decide +kernel, by decide +kernel⟩

end ArmReach
