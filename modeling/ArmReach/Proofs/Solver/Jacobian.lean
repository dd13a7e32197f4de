import Mathlib
import ArmReach.Proofs.Solver.Contract
import ArmReach.Solver.Jacobian
/-!
# The damped least-squares search on a serial chain

`JacobianSolver.solve` reads the chain, evaluates poses, and writes the joint values once, at
the end, through the checked setting. The main statement, `solve_contract`, holds for every
chain, goal, constraints, number of iterations and cancellation:

* a success leaves the chain holding joint values within the ranges of its bounded joints,
  which put the end effector within the tolerances of the goal on the enforced components;
* every failure leaves the chain exactly as it was;
* a non-convergence reports one attempt, and the residuals of joint values that are the
  clamped start or have a score strictly below the clamped start's.

The proof carries an invariant through the search (`Search.Describes`): its pose, difference
and score are those of its joint values. An accepted step lowers the score; a rejected step
and a failed damped solve only change the damping, so the values the search ends with are its
start's or strictly better (`Search.KeepsOrLowers`). Chaining strict decreases needs the
order of doubles to be transitive (`Binary64.lt_trans`); it is, in Lean's model of doubles,
because non-NaN doubles compare as keys of a lexicographic order (`Binary64.orderKey`).
-/

namespace ArmReach

/-! ### The order of doubles is transitive -/

namespace Binary64

open Float.Model.UnpackedFloat in
/-- Where a double other than NaN stands in the order of doubles: the infinities at the
ends, the two zeros together, finite values by exponent and then significand, mirrored
below zero. -/
def orderKey : Float.Model.UnpackedFloat → Option (Int ×ₗ Int ×ₗ Int)
  | .notANumber => none
  | .infinity .negative => some (toLex (-2, toLex (0, 0)))
  | .finite .negative m e _ => some (toLex (-1, toLex (-e, -(m : Int))))
  | .zero _ => some (toLex (0, toLex (0, 0)))
  | .finite .positive m e _ => some (toLex (1, toLex (e, (m : Int))))
  | .infinity .positive => some (toLex (2, toLex (0, 0)))

/-- Finite magnitudes compare by exponent, then significand. -/
theorem then_compare_eq_lt {e₁ e₂ : Int} {m₁ m₂ : Nat} :
    (compare e₁ e₂).then (compare m₁ m₂) = .lt ↔ e₁ < e₂ ∨ e₁ = e₂ ∧ m₁ < m₂ := by
  simp [Ordering.then_eq_lt, Int.compare_eq_lt, Nat.compare_eq_lt]

theorem then_compare_eq_gt {e₁ e₂ : Int} {m₁ m₂ : Nat} :
    (compare e₁ e₂).then (compare m₁ m₂) = .gt ↔ e₂ < e₁ ∨ e₁ = e₂ ∧ m₂ < m₁ := by
  simp [Ordering.then_eq_gt, Int.compare_eq_gt, Nat.compare_eq_gt]

/-- One double is below another exactly when neither is NaN and its key is below the
other's. -/
theorem lt_iff_orderKey (a b : Float.Model.UnpackedFloat) :
    a.lt b = true ↔ ∃ x y, orderKey a = some x ∧ orderKey b = some y ∧ x < y := by
  rcases a with (_ | _) | _ | (_ | _) | ⟨_ | _, m₁, e₁, _⟩ <;>
    rcases b with (_ | _) | _ | (_ | _) | ⟨_ | _, m₂, e₂, _⟩ <;>
    simp [Float.Model.UnpackedFloat.lt, Float.Model.UnpackedFloat.compare, orderKey,
      Prod.Lex.toLex_lt_toLex, then_compare_eq_lt, then_compare_eq_gt]
  -- the two infinities compare by their signs
  rfl

theorem unpacked_lt_trans {a b c : Float.Model.UnpackedFloat} (hab : a.lt b = true)
    (hbc : b.lt c = true) : a.lt c = true := by
  obtain ⟨x, y, hx, hy, hxy⟩ := (lt_iff_orderKey a b).1 hab
  obtain ⟨y', z, hy', hz, hyz⟩ := (lt_iff_orderKey b c).1 hbc
  rw [hy, Option.some.injEq] at hy'
  subst hy'
  exact (lt_iff_orderKey a c).2 ⟨x, z, hx, hz, lt_trans hxy hyz⟩

/-- `<` on doubles is the comparison of their unpacked models. -/
theorem lt_iff_unpack_lt (a b : Float) : a < b ↔ a.toModel.unpack.lt b.toModel.unpack = true := by
  show Float.lt a b = true ↔ _
  unfold Float.lt
  simp only [decide_eq_true_eq]
  rfl

/-- **The order of doubles is transitive.** -/
theorem lt_trans {a b c : Float} (hab : a < b) (hbc : b < c) : a < c := by
  rw [lt_iff_unpack_lt] at *
  exact unpacked_lt_trans hab hbc

end Binary64

/-! ### What the chain's operations give -/

namespace Chain

theorem arm_transform (c : Chain) (q : List Float) : Arm.transform c q = (c, c.transform q) :=
  rfl

/-- Evaluating a pose leaves the chain as it is. -/
theorem arm_transform_eq {c c' : Chain} {q : List Float} {r : Except Failure Pose}
    (h : Arm.transform c q = (c', r)) : c' = c ∧ c.transform q = r := by
  rw [arm_transform, Prod.mk.injEq] at h
  exact ⟨h.1.symm, h.2⟩

theorem arm_setPositions (c : Chain) (q : List Float) :
    Arm.setPositions c q = c.orKeep (c.setPositions q) :=
  rfl

/-- A value out of range is no non-convergence. -/
theorem isNotConverged_of_outOfRange {i : Nat} {ls : List Limit} {vs : List Float} {e : Failure}
    (h : outOfRange i ls vs = .error e) : e.isNotConverged = false := by
  fun_induction outOfRange i ls vs with
  | case1 i l ls v vs hl ih => exact ih h
  | case2 i l ls v vs hl => cases h; rfl
  | case3 => cases h

/-- When no value is out of range, every joint's range contains its value. -/
theorem contains_of_outOfRange {i : Nat} {ls : List Limit} {vs : List Float}
    (h : outOfRange i ls vs = .ok ()) : ∀ p ∈ ls.zip vs, p.1.contains p.2 = true := by
  fun_induction outOfRange i ls vs with
  | case1 i l ls v vs hl ih =>
    intro p hp
    rcases List.mem_cons.1 hp with rfl | hp
    · exact hl
    · exact ih h p hp
  | case2 => cases h
  | case3 ls i vs hnil =>
    intro p hp
    -- one of the lists is empty, so there are no pairs
    cases ls with
    | nil => simp at hp
    | cons l ls =>
      cases vs with
      | nil => simp at hp
      | cons v vs => exact absurd rfl (hnil l ls v vs rfl)

/-- Checking values: the count first, then, when asked, the ranges. -/
theorem checkValues_eq (c : Chain) (q : List Float) (b : Bool) :
    c.checkValues q b =
      if q.length = c.joints.length then (if b then outOfRange 0 c.limits q else .ok ())
      else .error (.incorrectDof q.length c.joints.length) := by
  by_cases h : q.length = c.joints.length <;> cases b <;> simp [checkValues, h] <;> rfl

theorem isNotConverged_of_checkValues {c : Chain} {q : List Float} {b : Bool} {e : Failure}
    (h : c.checkValues q b = .error e) : e.isNotConverged = false := by
  rw [checkValues_eq] at h
  split at h
  · cases b with
    | false => cases h
    | true => exact isNotConverged_of_outOfRange h
  · cases h
    rfl

theorem isNotConverged_of_transform {c : Chain} {q : List Float} {e : Failure}
    (h : c.transform q = .error e) : e.isNotConverged = false := by
  unfold transform at h
  cases hcheck : c.checkValues q false with
  | error e' =>
    rw [hcheck] at h
    cases h
    exact isNotConverged_of_checkValues hcheck
  | ok u => rw [hcheck] at h; cases h

theorem isNotConverged_of_setPositions {c : Chain} {q : List Float} {e : Failure}
    (h : c.setPositions q = .error e) : e.isNotConverged = false := by
  unfold setPositions at h
  cases hcheck : c.checkValues q true with
  | error e' =>
    rw [hcheck] at h
    cases h
    exact isNotConverged_of_checkValues hcheck
  | ok u => rw [hcheck] at h; cases h

/-- A checked setting that succeeds had every value within its joint's range. -/
theorem contains_of_setPositions {c c' : Chain} {q : List Float}
    (h : c.setPositions q = .ok c') : ∀ p ∈ c.limits.zip q, p.1.contains p.2 = true := by
  unfold setPositions at h
  cases hcheck : c.checkValues q true with
  | error e => rw [hcheck] at h; cases h
  | ok u =>
    rw [checkValues_eq] at hcheck
    split at hcheck
    · exact contains_of_outOfRange hcheck
    · cases hcheck

end Chain

/-! ### The search keeps describing its joint values -/

namespace JacobianSolver

/-- `st` describes its joint values on `arm`: its pose is where they put the end effector, and
its difference to the goal and its score are those of that pose. -/
structure Search.Describes (arm : Chain) (goal : Pose) (c : Option Constraints) (st : Search) :
    Prop where
  pose : arm.transform st.q = .ok st.pose
  delta : st.delta = Constraints.maskedDelta (Constraints.mask c) st.pose goal
  score : st.score = Constraints.squaredNormMetric goal c st.pose

/-- `st'` holds the joint values and the score of `st`, or a strictly lower score. -/
def Search.KeepsOrLowers (st st' : Search) : Prop :=
  st'.q = st.q ∧ st'.score = st.score ∨ st'.score < st.score

/-- A search that starts strictly below `st` ends strictly below it. -/
theorem Search.KeepsOrLowers.of_lower {st st' r : Search} (h : st'.KeepsOrLowers r)
    (hlow : st'.score < st.score) : st.KeepsOrLowers r := by
  right
  rcases h with ⟨-, hscore⟩ | hlt
  · rw [hscore]
    exact hlow
  · exact Binary64.lt_trans hlt hlow

/-- The damping is no part of what a search describes. -/
theorem Search.Describes.withLambda {arm : Chain} {goal : Pose} {c : Option Constraints}
    {st : Search} (h : st.Describes arm goal c) (l : Float) :
    ({ st with lambda := l } : Search).Describes arm goal c :=
  ⟨h.pose, h.delta, h.score⟩

/-- How a search on `arm` from `st` may end: on the same chain, either with joint values it
describes that keep or lower the start's score, or with a failure other than a
non-convergence. -/
def Ends (arm : Chain) (goal : Pose) (c : Option Constraints) (st : Search) :
    Chain × Except Failure Search → Prop
  | (arm', .ok st') => arm' = arm ∧ st'.Describes arm goal c ∧ st.KeepsOrLowers st'
  | (arm', .error e) => arm' = arm ∧ e.isNotConverged = false

/-- The finite-difference Jacobian of a chain leaves the chain alone, and fails only as the
chain's pose does. -/
theorem jacobian_chain {mask : List Bool} {arm arm' : Chain} {q : List Float} {at_ : Pose}
    {r : Except Failure Matrix} (h : jacobian mask arm q at_ = (arm', r)) :
    arm' = arm ∧ ∀ e, r = .error e → e.isNotConverged = false := by
  suffices hp : (jacobian mask arm q at_).1 = arm ∧
      ∀ e, (jacobian mask arm q at_).2 = .error e → e.isNotConverged = false by
    rw [h] at hp
    exact hp
  unfold jacobian
  dsimp only
  generalize hfold : List.foldl _ (arm, Except.ok []) (List.range q.length) = acc
  -- column by column, the chain stays and only its pose can fail
  have hacc : acc.1 = arm ∧ ∀ e, acc.2 = .error e → e.isNotConverged = false := by
    subst hfold
    refine List.foldlRecOn (motive := fun acc : Chain × Except Failure (List (List Float)) =>
      acc.1 = arm ∧ ∀ e, acc.2 = .error e → e.isNotConverged = false) _ _
      ⟨rfl, fun e h => nomatch h⟩ ?_
    rintro ⟨a, e | cols⟩ ⟨rfl, hr⟩ j -
    · exact ⟨rfl, hr⟩
    · dsimp only
      rw [Chain.arm_transform]
      cases ht : a.transform (q.set j (q.getD j 0 + 1e-6)) with
      | error e =>
        exact ⟨rfl, fun e' he' => by cases he'; exact Chain.isNotConverged_of_transform ht⟩
      | ok moved => exact ⟨rfl, fun e' he' => nomatch he'⟩
  rcases acc with ⟨a, e | cols⟩ <;> dsimp only
  · exact ⟨hacc.1, fun e' h => hacc.2 e' (by cases h; rfl)⟩
  · exact ⟨hacc.1, fun e h => nomatch h⟩

/-- A search that only changed its damping ends as the search before it. -/
theorem Ends.of_withLambda {arm : Chain} {goal : Pose} {c : Option Constraints} {st : Search}
    {l : Float} {r : Chain × Except Failure Search} (h : Ends arm goal c { st with lambda := l } r) :
    Ends arm goal c st r := by
  rcases r with ⟨a, e | st'⟩ <;> exact h

/-- A search that started strictly below `st` ends as a search from `st` may. -/
theorem Ends.of_lower {arm : Chain} {goal : Pose} {c : Option Constraints} {st st' : Search}
    {r : Chain × Except Failure Search} (h : Ends arm goal c st' r)
    (hlow : st'.score < st.score) : Ends arm goal c st r := by
  rcases r with ⟨a, e | r⟩
  · exact h
  · exact ⟨h.1, h.2.1, h.2.2.of_lower hlow⟩

variable (s : JacobianSolver) (cancelled : Bool) (goal : Pose) (c : Option Constraints)
  (limits : List Limit) (distTol angleTol : Float)

/-- **The search loop keeps its invariant.** From joint values it describes, the search on a
chain leaves the chain as it is, and ends with joint values it describes that keep or lower
the start's score, or with a failure other than a non-convergence. -/
theorem iterate_ends (fuel : Nat) (arm : Chain) (st : Search) :
    st.Describes arm goal c →
      Ends arm goal c st (iterate s cancelled goal c limits distTol angleTol fuel arm st) := by
  fun_induction iterate s cancelled goal c limits distTol angleTol fuel arm st with
  | case1 arm st => exact fun hst => ⟨rfl, hst, .inl ⟨rfl, rfl⟩⟩
  | case2 fuel arm st _ => exact fun hst => ⟨rfl, hst, .inl ⟨rfl, rfl⟩⟩
  | case3 => exact fun _ => ⟨rfl, rfl⟩
  | case4 fuel arm st _ _ mask arm' e hjac =>
    intro _
    exact jacobian_chain hjac |>.imp id (· e rfl)
  | case5 fuel arm st _ _ mask arm' jac hjac _ ih =>
    -- a failed damped solve only raises the damping
    intro hst
    obtain ⟨rfl, -⟩ := jacobian_chain hjac
    exact (ih (hst.withLambda _)).of_withLambda
  | case6 fuel arm st _ _ mask arm' jac hjac dq _ candidate arm'' e ht =>
    intro _
    obtain ⟨rfl, -⟩ := jacobian_chain hjac
    obtain ⟨rfl, ht⟩ := Chain.arm_transform_eq ht
    exact ⟨rfl, Chain.isNotConverged_of_transform ht⟩
  | case7 fuel arm st _ _ mask arm' jac hjac dq _ candidate arm'' moved ht nextScore hlower
      lambda ih =>
    -- an accepted step describes the candidate, whose score is strictly lower
    intro _
    obtain ⟨rfl, -⟩ := jacobian_chain hjac
    obtain ⟨rfl, hpose⟩ := Chain.arm_transform_eq ht
    exact (ih ⟨hpose, rfl, rfl⟩).of_lower hlower
  | case8 fuel arm st _ _ mask arm' jac hjac dq _ candidate arm'' moved ht _ _ _ _ =>
    intro hst
    obtain ⟨rfl, -⟩ := jacobian_chain hjac
    obtain ⟨rfl, -⟩ := Chain.arm_transform_eq ht
    exact ⟨rfl, hst.withLambda _, .inl ⟨rfl, rfl⟩⟩
  | case9 fuel arm st _ _ mask arm' jac hjac dq _ candidate arm'' moved ht _ _ _ _ ih =>
    -- a rejected step only raises the damping
    intro hst
    obtain ⟨rfl, -⟩ := jacobian_chain hjac
    obtain ⟨rfl, -⟩ := Chain.arm_transform_eq ht
    exact (ih (hst.withLambda _)).of_withLambda

/-! ### What a solve leaves -/

/-- The contract of a solve on `arm` toward `goal`, with tolerances `tol` and the start `q₀`
clamped into the ranges, as a property of the chain and outcome it leaves: a success holds
joint values within the ranges of the bounded joints that reach the goal within the
tolerances; a failure leaves `arm`; a non-convergence reports one attempt and the residuals of
joint values that are `q₀` or score strictly below it. -/
def Settled (arm : Chain) (goal : Pose) (c : Option Constraints) (tol : Float × Float)
    (q₀ : List Float) (r : Chain × Except Failure Unit) : Prop :=
  let residuals := fun pose => Constraints.residuals (Constraints.maskedDelta (Constraints.mask c) pose goal)
  (r.2 = .ok () → ∃ q pose, r.1 = { arm with positions := q } ∧ arm.transform q = .ok pose ∧
      (residuals pose).1.norm ≤ tol.1 ∧ (residuals pose).2.norm ≤ tol.2 ∧
      ∀ p ∈ arm.limits.zip q, p.1.continuous = false → p.1.min ≤ p.2 ∧ p.2 ≤ p.1.max) ∧
  (∀ e, r.2 = .error e → r.1 = arm) ∧
  (∀ e, r.2 = .error e → e.isNotConverged = true → ∃ q pose, arm.transform q = .ok pose ∧
      e = .notConverged ⟨1, (residuals pose).1, (residuals pose).2⟩ ∧
      (q = q₀ ∨ ∃ pose₀, arm.transform q₀ = .ok pose₀ ∧
        Constraints.squaredNormMetric goal c pose < Constraints.squaredNormMetric goal c pose₀))

section Settled

variable {arm : Chain} {goal : Pose} {c : Option Constraints} {tol : Float × Float}
  {q₀ : List Float}

/-- A failure other than a non-convergence, with the chain left alone, keeps the contract. -/
theorem settled_of_error {e : Failure} (he : e.isNotConverged = false) :
    Settled arm goal c tol q₀ (arm, .error e) := by
  dsimp only [Settled]
  refine ⟨fun h => (nomatch h), fun _ _ => rfl, ?_⟩
  rintro e' ⟨⟩ hnc
  rw [he] at hnc
  cases hnc

/-- Setting the chain to values whose difference is within the tolerances keeps the contract:
the checked setting either succeeds, with every value in range, or fails and leaves the chain. -/
theorem settled_of_converged {st : Search} (hst : st.Describes arm goal c)
    (hconv : converged st.delta tol.1 tol.2 = true) :
    Settled arm goal c tol q₀ (Arm.setPositions arm st.q) := by
  rw [Chain.arm_setPositions]
  cases hset : arm.setPositions st.q with
  | error e => exact settled_of_error (Chain.isNotConverged_of_setPositions hset)
  | ok arm' =>
    dsimp only [Chain.orKeep, Settled]
    have hin := Chain.contains_of_setPositions hset
    simp only [converged, hst.delta, Bool.and_eq_true, decide_eq_true_eq] at hconv
    refine ⟨fun _ => ⟨st.q, st.pose, Chain.eq_of_setPositions_eq_ok hset, hst.pose, hconv.1,
      hconv.2, fun p hp hbounded => ?_⟩, fun e h => (nomatch h), fun e h => (nomatch h)⟩
    -- a bounded joint's range contains its value only between the bounds
    have hp := hin p hp
    simp only [Limit.contains, hbounded, Bool.false_or, Bool.and_eq_true, decide_eq_true_eq] at hp
    exact hp

/-- Reporting the residuals of a search that ended unconverged keeps the contract. -/
theorem settled_of_missed {pose₀ : Pose} {lambda : Float} {st : Search}
    (hpose₀ : arm.transform q₀ = .ok pose₀) (hst : st.Describes arm goal c)
    (hk : Search.KeepsOrLowers ⟨q₀, pose₀, Constraints.maskedDelta (Constraints.mask c) pose₀ goal,
      Constraints.squaredNormMetric goal c pose₀, lambda⟩ st) :
    Settled arm goal c tol q₀
      (arm, .error (.notConverged ⟨1, (Constraints.residuals st.delta).1,
        (Constraints.residuals st.delta).2⟩)) := by
  dsimp only [Settled]
  refine ⟨fun h => (nomatch h), fun _ _ => rfl, ?_⟩
  rintro e ⟨⟩ -
  refine ⟨st.q, st.pose, hst.pose, by rw [hst.delta], ?_⟩
  -- the values are the start's, or their score is strictly below the start's
  rcases hk with ⟨hq, -⟩ | hlow
  · exact .inl hq
  · rw [hst.score] at hlow
    exact .inr ⟨pose₀, hpose₀, hlow⟩

end Settled

/-- **The contract of the damped least-squares search**, on every chain, for every goal,
constraints, number of iterations and cancellation. With `tol` the tolerances (the defaults
`1e-3` and `5e-3`, each replaced by a positive tolerance of the constraints) and `q₀` the
chain's values clamped into their ranges:

* on success the chain holds values `q` that put the end effector within `tol` of the goal on
  the enforced components, and every bounded joint's value lies between its bounds;
* on every failure the chain is as it was;
* a non-convergence reports one attempt and the residuals of values `q` that are `q₀` or
  whose score is strictly below that of `q₀`. -/
theorem solve_contract (iterations : Int) (cancelled : Bool) (arm : Chain) (goal : Pose)
    (c : Option Constraints) :
    let r := (create iterations).solve cancelled arm goal c
    let tol := Constraints.tolerances c 1e-3 5e-3
    let q₀ := clampAll arm.positions arm.limits
    let residuals := fun pose =>
      Constraints.residuals (Constraints.maskedDelta (Constraints.mask c) pose goal)
    (r.2 = .ok () → ∃ q pose, r.1 = { arm with positions := q } ∧ arm.transform q = .ok pose ∧
        (residuals pose).1.norm ≤ tol.1 ∧ (residuals pose).2.norm ≤ tol.2 ∧
        ∀ p ∈ arm.limits.zip q, p.1.continuous = false → p.1.min ≤ p.2 ∧ p.2 ≤ p.1.max) ∧
    (∀ e, r.2 = .error e → r.1 = arm) ∧
    (∀ e, r.2 = .error e → e.isNotConverged = true → ∃ q pose, arm.transform q = .ok pose ∧
        e = .notConverged ⟨1, (residuals pose).1, (residuals pose).2⟩ ∧
        (q = q₀ ∨ ∃ pose₀, arm.transform q₀ = .ok pose₀ ∧
          Constraints.squaredNormMetric goal c pose < Constraints.squaredNormMetric goal c pose₀)) := by
  show Settled arm goal c _ _ _
  unfold JacobianSolver.solve
  dsimp only
  -- the solver's tolerances are the defaults
  have htol : Constraints.tolerances c (create iterations).distanceTolerance
      (create iterations).angleTolerance = Constraints.tolerances c 1e-3 5e-3 := rfl
  rw [htol, Chain.arm_transform]
  -- the clamped start's pose, then the search, then the check of where it ended
  cases hpose₀ : arm.transform (clampAll (Arm.positions arm) (Arm.limits arm)) with
  | error e => exact settled_of_error (Chain.isNotConverged_of_transform hpose₀)
  | ok pose₀ =>
    dsimp only
    have hends := iterate_ends (create iterations) cancelled goal c (Arm.limits arm)
      (Constraints.tolerances c 1e-3 5e-3).1 (Constraints.tolerances c 1e-3 5e-3).2
      (create iterations).maxIterations arm
      ⟨clampAll (Arm.positions arm) (Arm.limits arm), pose₀,
        Constraints.maskedDelta (Constraints.mask c) pose₀ goal,
        Constraints.squaredNormMetric goal c pose₀, (create iterations).damping⟩ ⟨hpose₀, rfl, rfl⟩
    revert hends
    generalize iterate _ cancelled goal c _ _ _ _ arm _ = res
    rcases res with ⟨a, e | st⟩
    · rintro ⟨rfl, he⟩
      exact settled_of_error he
    · rintro ⟨rfl, hst, hk⟩
      dsimp only
      split
      · exact settled_of_converged hst ‹_›
      · exact settled_of_missed hpose₀ hst hk

end JacobianSolver

end ArmReach
