import ArmReach.Proofs.Solver.Jacobian
import ArmReach.Proofs.Kinematics.Representation
/-!
# The damped least-squares search multiplies matching matrices

A pass of the search loop takes the Jacobian of the enforced components at the current joint
values, one column per joint value, solves the damped system `(J Jᵀ + λ² I) y = e` for the
enforced rows `e` of the difference to the goal, and adds the step `Jᵀ y` to the joint
values. Dense matrices have at least one row and one column, and a product or a solve needs
factors of matching sizes. The main statement, `pass_dimensions_agree`, says that every pass a
solve runs on a chain with a joint meets these needs, whatever the goal, the constraints, the
number of iterations and the cancellation:

* some component is enforced, and there are joint values;
* the Jacobian is made of one column per joint value, each with one entry per enforced
  component;
* the right-hand side has one entry per enforced component;
* the step has one entry per joint value.

The first point is the one that takes an argument. Constraints that enforce nothing make the
difference zero, and zero is within every pair of tolerances the search uses, since these are
positive (`Constraints.tolerances_pos`): such a search has converged before its first pass.
The others follow from an invariant of the loop, that the search describes its joint values
(`Search.Describes`), carried along the passes the loop runs (`Continues`, built on `pass`,
one round of `iterate`).
-/

namespace ArmReach

/-! ### Two facts of the order of doubles -/

namespace Binary64

theorem le_of_lt {x y : Float} (h : x < y) : x ≤ y := by
  obtain ⟨a, b, hx, hy, hab⟩ := (lt_iff_key x y).1 h
  exact (le_iff_key x y).2 ⟨a, b, hx, hy, hab.le⟩

/-- Doubles of one key compare alike. -/
theorem le_of_key_eq {x y z : Float} (h : key x = key y) (hyz : y ≤ z) : x ≤ z := by
  obtain ⟨a, b, hy, hz, hab⟩ := (le_iff_key y z).1 hyz
  exact (le_iff_key x z).2 ⟨a, b, h.trans hy, hz, hab⟩

end Binary64

/-! ### Sizes of the pieces of a pass -/

@[simp] theorem Pose.length_delta (src dst : Pose) : (Pose.delta src dst).length = 6 := rfl

namespace Constraints

@[simp] theorem length_mask (c : Option Constraints) : (mask c).length = 6 := by
  cases c <;> rfl

@[simp] theorem length_maskedDelta (c : Option Constraints) (src dst : Pose) :
    (maskedDelta (mask c) src dst).length = 6 := by
  simp [maskedDelta]

/-- The enforced rows of a difference that has a component for every entry of the mask: one
per enforced component. -/
theorem length_rowsOf {mask : List Bool} {delta : List Float} (h : mask.length ≤ delta.length) :
    (rowsOf mask delta).length = (mask.filter id).length := by
  induction mask generalizing delta with
  | nil => simp [rowsOf]
  | cons keep mask ih =>
    cases delta with
    | nil => simp at h
    | cons d delta =>
      have hrest : (rowsOf mask delta).length = (mask.filter id).length :=
        ih (by simpa using h)
      cases keep <;> simpa [rowsOf, List.filter_cons] using hrest

/-- The tolerances are positive when the defaults are: an override replaces a default only
when it is positive itself. -/
theorem tolerances_pos (c : Option Constraints) {p o : Float} (hp : 0 < p) (ho : 0 < o) :
    0 < (tolerances c p o).1 ∧ 0 < (tolerances c p o).2 := by
  cases c with
  | none => exact ⟨hp, ho⟩
  | some c =>
    dsimp only [tolerances]
    constructor <;> split <;> assumption

/-- Constraints that enforce no component turn all six off. -/
theorem mask_eq_of_count_eq_zero {c : Option Constraints} (h : ((mask c).filter id).length = 0) :
    mask c = List.replicate 6 false := by
  have hoff : ∀ k ∈ mask c, k = false := by
    simpa using List.length_eq_zero_iff.1 h
  cases c with
  | none => simp [mask] at hoff
  | some c =>
    simp only [mask, List.mem_cons, List.not_mem_nil, or_false, forall_eq_or_imp, forall_eq]
      at hoff
    simp [mask, hoff, List.replicate]

end Constraints

/-- Joint values a chain evaluates are one per joint. -/
theorem Chain.length_of_transform_eq_ok {c : Chain} {q : List Float} {p : Pose}
    (h : c.transform q = .ok p) : q.length = c.joints.length := by
  unfold Chain.transform at h
  cases hcheck : c.checkValues q false with
  | error e => rw [hcheck] at h; cases h
  | ok u =>
    rw [Chain.checkValues_eq] at hcheck
    split at hcheck
    · assumption
    · cases hcheck

namespace Matrix

@[simp] theorem length_row (a : Matrix) (i : Nat) : (a.row i).length = a.cols := by
  simp [row]

/-- `Aᵀ x` has one entry per column of `A`. -/
theorem length_mulTransposeVec (a : Matrix) (x : List Float) :
    (a.mulTransposeVec x).length = a.cols := by
  unfold mulTransposeVec
  refine List.foldlRecOn (motive := fun y : List Float => y.length = a.cols) _ _ (by simp) ?_
  intro y hy i _
  simp [hy]

end Matrix

namespace JacobianSolver

open Constraints

/-- The zero difference is within every pair of tolerances that are not negative. -/
theorem converged_zero {distTol angleTol : Float} (hd : 0 ≤ distTol) (ha : 0 ≤ angleTol) :
    converged (List.replicate 6 0) distTol angleTol = true := by
  -- the kernel takes the square root: the norm of the zero vector is zero
  have hnorm : Binary64.key (Vec3.norm ⟨0, 0, 0⟩) = Binary64.key 0 := by decide +kernel
  simp [converged, residuals, Binary64.le_of_key_eq hnorm hd, Binary64.le_of_key_eq hnorm ha]

/-- **A search that has not converged enforces a component.** With nothing enforced the
masked difference is zero, which positive tolerances accept. -/
theorem count_pos_of_not_converged {c : Option Constraints} {pose goal : Pose} {p o : Float}
    (hp : 0 < p) (ho : 0 < o)
    (h : converged (maskedDelta (mask c) pose goal) (tolerances c p o).1 (tolerances c p o).2 =
      false) :
    0 < ((mask c).filter id).length := by
  refine Nat.pos_of_ne_zero fun hzero => ?_
  have hdelta : maskedDelta (mask c) pose goal = List.replicate 6 0 := by
    rw [mask_eq_of_count_eq_zero hzero]
    rfl
  have htol := tolerances_pos c hp ho
  rw [hdelta, converged_zero (Binary64.le_of_lt htol.1) (Binary64.le_of_lt htol.2)] at h
  cases h

/-- A damped step has one entry per column of the Jacobian. -/
theorem length_of_dampedStep {jac : Matrix} {e dq : List Float} {lambda : Float}
    (h : dampedStep jac e lambda = some dq) : dq.length = jac.cols := by
  unfold dampedStep at h
  dsimp only at h
  split at h
  · cases h
  · split at h
    · cases h
    · cases h
      split <;> simp [Matrix.length_mulTransposeVec]

/-! ### The Jacobian -/

section Columns

variable {α : Type} [Arm α]

/-- A fold that, on the columns so far, appends one column of `rows` entries or fails, and that
keeps a failure, adds one column per item. -/
theorem foldl_columns {β ε : Type} (rows : Nat)
    {f : β × Except ε (List (List Float)) → Nat → β × Except ε (List (List Float))}
    (hok : ∀ a cols j, (∃ a' e, f (a, .ok cols) j = (a', .error e)) ∨
      ∃ a' col, col.length = rows ∧ f (a, .ok cols) j = (a', .ok (cols ++ [col])))
    (herr : ∀ a e j, ∃ a', f (a, .error e) j = (a', .error e)) (js : List Nat)
    {acc : β × Except ε (List (List Float))} {n : Nat}
    (hacc : ∀ cols, acc.2 = .ok cols → cols.length = n ∧ ∀ col ∈ cols, col.length = rows)
    {cols : List (List Float)} (h : (js.foldl f acc).2 = .ok cols) :
    cols.length = n + js.length ∧ ∀ col ∈ cols, col.length = rows := by
  induction js generalizing acc n with
  | nil => simpa using hacc cols h
  | cons j js ih =>
    -- one item more: the accumulator after it has one column more, or has failed
    have hnext : ∀ cols, (f acc j).2 = .ok cols →
        cols.length = n + 1 ∧ ∀ col ∈ cols, col.length = rows := by
      intro cols' hcols'
      rcases acc with ⟨a, e | cols₀⟩
      · obtain ⟨a', he⟩ := herr a e j
        rw [he] at hcols'
        cases hcols'
      · obtain ⟨hlen, hrows⟩ := hacc cols₀ rfl
        rcases hok a cols₀ j with ⟨a', e, he⟩ | ⟨a', col, hcol, he⟩
        · rw [he] at hcols'
          cases hcols'
        · rw [he] at hcols'
          cases hcols'
          refine ⟨by simp [hlen], fun c hc => ?_⟩
          rcases List.mem_append.1 hc with hc | hc
          · exact hrows c hc
          · rw [List.mem_singleton.1 hc, hcol]
    have := ih hnext h
    simpa [Nat.add_assoc, Nat.add_comm 1] using this

/-- **The Jacobian is made of one column per joint value, each with one entry per enforced
component.** -/
theorem jacobian_columns {mask : List Bool} {arm arm' : α} {q : List Float} {at_ : Pose}
    {jac : Matrix} (hmask : mask.length ≤ 6) (h : jacobian mask arm q at_ = (arm', .ok jac)) :
    ∃ cols, jac = Matrix.ofColumns (mask.filter id).length cols ∧ cols.length = q.length ∧
      ∀ col ∈ cols, col.length = (mask.filter id).length := by
  unfold jacobian at h
  dsimp only at h
  split at h
  · rename_i cols hfold
    cases h
    refine ⟨cols, rfl, ?_⟩
    -- every column is the enforced rows of a pose difference, scaled
    have hcols := foldl_columns (mask.filter id).length
      (fun a cols j => by
        dsimp only
        rcases Arm.transform a (q.set j (q.getD j 0 + 1e-6)) with ⟨a', e | moved⟩
        · exact .inl ⟨a', e, rfl⟩
        · refine .inr ⟨a', _, ?_, rfl⟩
          simpa using length_rowsOf (by simpa using hmask))
      (fun a e j => ⟨a, rfl⟩) (List.range q.length) (n := 0)
      (fun cols h => by cases h; simp) (congrArg Prod.snd hfold)
    simpa using hcols
  · cases h

end Columns

/-! ### One pass of the loop -/

section Pass

variable {α : Type} [Arm α] (s : JacobianSolver) (cancelled : Bool) (goal : Pose)
  (c : Option Constraints) (limits : List Limit) (distTol angleTol : Float)

/-- One pass of the search loop from `st` on `arm`: what the loop returns, or the arm and the
search it goes on with. -/
def pass (arm : α) (st : Search) : (α × Except Failure Search) ⊕ (α × Search) :=
  let mask := mask c
  match jacobian mask arm st.q st.pose with
  | (arm, .error e) => .inl (arm, .error e)
  | (arm, .ok jac) =>
    match dampedStep jac (rowsOf mask st.delta) st.lambda with
    | none => .inr (arm, { st with lambda := st.lambda * 10 })
    | some dq =>
      let candidate := clampAll (st.q.zipWith (· + ·) dq) limits
      match Arm.transform arm candidate with
      | (arm, .error e) => .inl (arm, .error e)
      | (arm, .ok next) =>
        let nextScore := squaredNormMetric goal c next
        if nextScore < st.score then
          let lambda := if st.lambda / 10 < s.damping then s.damping else st.lambda / 10
          .inr (arm, ⟨candidate, next, maskedDelta mask next goal, nextScore, lambda⟩)
        else
          let lambda := st.lambda * 10
          if lambda > 1000 then .inl (arm, .ok { st with lambda := lambda })
          else .inr (arm, { st with lambda := lambda })

/-- A round of the loop with fuel left: stop when converged or cancelled, else run a pass. -/
theorem iterate_succ (fuel : Nat) (arm : α) (st : Search) :
    iterate s cancelled goal c limits distTol angleTol (fuel + 1) arm st =
      if converged st.delta distTol angleTol then (arm, .ok st)
      else if cancelled then (arm, .error .canceled)
      else match pass s goal c limits arm st with
        | .inl r => r
        | .inr (arm', st') => iterate s cancelled goal c limits distTol angleTol fuel arm' st' := by
  rw [iterate]
  split
  · rfl
  split
  · rfl
  unfold pass
  dsimp only
  rcases jacobian (mask c) arm st.q st.pose with ⟨a, e | jac⟩
  · rfl
  dsimp only
  cases dampedStep jac (rowsOf (mask c) st.delta) st.lambda with
  | none => rfl
  | some dq =>
    dsimp only
    rcases Arm.transform a (clampAll (st.q.zipWith (· + ·) dq) limits) with ⟨a', e | next⟩
    · rfl
    dsimp only
    split
    · rfl
    split <;> rfl

/-- The loop goes on from `st` on `arm` with `fuel + 1` rounds left to `st'` on `arm'` with
`fuel` left: `st` has not converged, the solve is not cancelled, and the pass at `st` goes
on. -/
inductive Continues : Nat × α × Search → Nat × α × Search → Prop
  | step {fuel : Nat} {arm arm' : α} {st st' : Search}
      (hconv : converged st.delta distTol angleTol = false) (hlive : cancelled = false)
      (hpass : pass s goal c limits arm st = .inr (arm', st')) :
      Continues (fuel + 1, arm, st) (fuel, arm', st')

end Pass

/-! ### The passes of a solve -/

/-- The solve of `goal` on `arm` runs a pass of its loop at `st` on `arm'`: the start's pose is
evaluated, the loop goes on from the start to `st` with a round left, `st` has not converged,
and the solve is not cancelled. -/
def RunsPass {α : Type} [Arm α] (s : JacobianSolver) (cancelled : Bool) (arm : α) (goal : Pose)
    (c : Option Constraints) (arm' : α) (st : Search) : Prop :=
  let limits := Arm.limits arm
  let tol := tolerances c s.distanceTolerance s.angleTolerance
  let q₀ := clampAll (Arm.positions arm) limits
  ∃ arm₀ pose₀ fuel, Arm.transform arm q₀ = (arm₀, .ok pose₀) ∧
    Relation.ReflTransGen (Continues s cancelled goal c limits tol.1 tol.2)
      (s.maxIterations, arm₀,
        ⟨q₀, pose₀, maskedDelta (mask c) pose₀ goal, squaredNormMetric goal c pose₀,
          s.damping⟩)
      (fuel + 1, arm', st) ∧
    converged st.delta tol.1 tol.2 = false ∧ cancelled = false

/-- What the linear algebra of a pass at `st` on `arm` needs: some component enforced and some
joint value; a Jacobian of one column per joint value, each with one entry per enforced
component; a right-hand side of one entry per enforced component; and a step of one entry per
joint value. -/
structure PassFits (mask : List Bool) (arm : Chain) (st : Search) : Prop where
  rows_pos : 0 < (mask.filter id).length
  cols_pos : 0 < st.q.length
  columns : ∀ arm' jac, jacobian mask arm st.q st.pose = (arm', .ok jac) →
    ∃ cols, jac = Matrix.ofColumns (mask.filter id).length cols ∧ cols.length = st.q.length ∧
      ∀ col ∈ cols, col.length = (mask.filter id).length
  rhs : (rowsOf mask st.delta).length = (mask.filter id).length
  step : ∀ arm' jac dq, jacobian mask arm st.q st.pose = (arm', .ok jac) →
    dampedStep jac (rowsOf mask st.delta) st.lambda = some dq → dq.length = st.q.length

section Chain

variable {s : JacobianSolver} {cancelled : Bool} {goal : Pose} {c : Option Constraints}
  {limits : List Limit} {distTol angleTol : Float}

/-- A pass that goes on leaves the chain as it is and goes on with a search that describes its
joint values. -/
theorem pass_describes {arm arm' : Chain} {st st' : Search} (hst : st.Describes arm goal c)
    (h : pass s goal c limits arm st = .inr (arm', st')) :
    arm' = arm ∧ st'.Describes arm goal c := by
  unfold pass at h
  dsimp only at h
  split at h
  · cases h
  rename_i a jac hjac
  obtain ⟨rfl, -⟩ := jacobian_chain hjac
  split at h
  · -- a failed damped solve raises the damping
    cases h
    exact ⟨rfl, hst.withLambda _⟩
  split at h
  · cases h
  rename_i a' next ht
  obtain ⟨rfl, hpose⟩ := Chain.arm_transform_eq ht
  split at h
  · -- an accepted step describes the candidate
    cases h
    exact ⟨rfl, hpose, rfl, rfl⟩
  · -- a rejected step raises the damping
    split at h
    · cases h
    · cases h
      exact ⟨rfl, hst.withLambda _⟩

/-- **Along the loop the search describes its joint values on the chain it started on.** -/
theorem describes_of_reaches {x y : Nat × Chain × Search}
    (h : Relation.ReflTransGen (Continues s cancelled goal c limits distTol angleTol) x y)
    (hx : x.2.2.Describes x.2.1 goal c) : y.2.1 = x.2.1 ∧ y.2.2.Describes x.2.1 goal c := by
  induction h with
  | refl => exact ⟨rfl, hx⟩
  | tail _ hstep ih =>
    cases hstep with
    | step _ _ hpass =>
      obtain ⟨harm, hmid⟩ := ih
      dsimp only at harm hmid
      subst harm
      obtain ⟨rfl, hnext⟩ := pass_describes hmid hpass
      exact ⟨rfl, hnext⟩

/-- A search on a chain with a joint that describes its values and has not converged within
positive tolerances fits the linear algebra of a pass. -/
theorem PassFits.of_describes {arm : Chain} {st : Search} {p o : Float}
    (hjoint : arm.joints ≠ []) (hst : st.Describes arm goal c) (hp : 0 < p) (ho : 0 < o)
    (hconv : converged st.delta (tolerances c p o).1 (tolerances c p o).2 = false) :
    PassFits (mask c) arm st := by
  have hrows := count_pos_of_not_converged hp ho (hst.delta ▸ hconv)
  have hcols : 0 < st.q.length := by
    rw [Chain.length_of_transform_eq_ok hst.pose]
    exact List.length_pos_iff.2 hjoint
  have hrhs : (rowsOf (mask c) st.delta).length = ((mask c).filter id).length := by
    rw [hst.delta]
    exact length_rowsOf (by simp)
  refine ⟨hrows, hcols, fun arm' jac hjac => jacobian_columns (by simp) hjac, hrhs, ?_⟩
  intro arm' jac dq hjac hstep
  obtain ⟨cols, rfl, hlen, -⟩ := jacobian_columns (by simp) hjac
  rw [length_of_dampedStep hstep, ← hlen]
  rfl

end Chain

/-- **The linear algebra of every pass of a solve sees matching sizes.** On every chain with a
joint, for every goal, constraints, number of iterations and cancellation, each pass that the
solve runs has some component enforced and some joint value, builds the Jacobian from one
column per joint value with one entry per enforced component, solves for a right-hand side of
one entry per enforced component, and adds a step of one entry per joint value. -/
theorem pass_dimensions_agree (iterations : Int) (cancelled : Bool) (arm : Chain) (goal : Pose)
    (c : Option Constraints) (hjoint : arm.joints ≠ []) {arm' : Chain} {st : Search}
    (hrun : (create iterations).RunsPass cancelled arm goal c arm' st) :
    PassFits (mask c) arm' st := by
  obtain ⟨arm₀, pose₀, fuel, hpose₀, hreach, hconv, -⟩ := hrun
  obtain ⟨rfl, hpose₀⟩ := Chain.arm_transform_eq hpose₀
  -- the start describes the clamped values, and the passes keep describing
  obtain ⟨rfl, hst⟩ := describes_of_reaches hreach ⟨hpose₀, rfl, rfl⟩
  -- the solver's tolerances are the positive defaults
  have hdist : (0 : Float) < (create iterations).distanceTolerance := by
    show (0 : Float) < 1e-3
    decide
  have hangle : (0 : Float) < (create iterations).angleTolerance := by
    show (0 : Float) < 5e-3
    decide
  exact PassFits.of_describes hjoint hst hdist hangle hconv

/-- A solve on an arm of one joint toward a point one unit away, with only the position
enforced, runs a pass at its start, and that pass fits. -/
theorem pass_dimensions_agree_at_start :
    let arm : Chain :=
      ⟨"arm", [⟨"j", ⟨0, 0, 1⟩, ⟨0, 0, 1⟩, Limit.free⟩], ⟨0, 0, 0⟩, [0]⟩
    let goal := Pose.ofPoint ⟨1, 0, 0⟩
    let c := some Constraints.positionOnly
    let pose := (Pose.zero.compose (Pose.ofAxisAngle ⟨0, 0, 1⟩ ⟨0, 0, 1⟩ 0)).compose
      (Pose.ofPoint ⟨0, 0, 0⟩)
    let st : Search := ⟨[0], pose, maskedDelta (mask c) pose goal, squaredNormMetric goal c pose,
      1e-3⟩
    arm.joints ≠ [] ∧ (create 1).RunsPass false arm goal c arm st ∧
      PassFits (mask c) arm st := by
  intro arm goal c pose st
  have hjoint : arm.joints ≠ [] := by simp [arm]
  -- the kernel evaluates the pose: the end effector is one unit from the goal
  have hconv : converged st.delta 1e-3 5e-3 = false := by decide +kernel
  have hrun : (create 1).RunsPass false arm goal c arm st :=
    ⟨arm, pose, 0, rfl, .refl, hconv, rfl⟩
  exact ⟨hjoint, hrun, pass_dimensions_agree 1 false arm goal c hjoint hrun⟩

end JacobianSolver

end ArmReach
