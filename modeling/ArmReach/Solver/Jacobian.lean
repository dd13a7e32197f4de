import ArmReach.Linear.Condition
import ArmReach.Solver.Basic
/-!
# Damped least-squares inverse kinematics

`JacobianSolver.solve` moves an arm's joints until its end effector reaches a goal pose within
the tolerances, by damped Gauss–Newton steps (Levenberg–Marquardt):

* the Jacobian of the enforced pose components is taken by forward differences with a step
  of `1e-6` per joint;
* the step is `Jᵀ (J Jᵀ + λ² I)⁻¹ e` for the current residual `e`, shortened to length `0.5`
  when longer; a system that is singular or worse conditioned than `1e16` is not solved, and
  `λ` grows tenfold instead;
* a step is kept only when it lowers `Constraints.squaredNormMetric`; then `λ` shrinks tenfold
  (not below its start `1e-3`), else it grows tenfold and the search stops beyond `1e3`.

Joint values are clamped into their ranges before every evaluation. On success the arm is set
to the solution; otherwise it is left as it was and the residuals are reported.
-/

namespace ArmReach

/-- The settings of the damped least-squares search. -/
structure JacobianSolver where
  maxIterations : Nat
  distanceTolerance : Float := 1e-3
  angleTolerance : Float := 5e-3
  damping : Float := 1e-3
  deriving Inhabited

namespace JacobianSolver

/-- A solver doing at most `iterations` steps; fewer than one means a hundred. -/
def create (iterations : Int) : JacobianSolver :=
  ⟨if iterations < 1 then 100 else iterations.toNat, 1e-3, 5e-3, 1e-3⟩

/-- Each value clamped into its joint's range (values beyond the ranges are kept). -/
def clampAll (q : List Float) (limits : List Limit) : List Float :=
  q.zipIdx.map fun (v, i) => match limits[i]? with
    | some l => l.clamp v
    | none => v

/-- Whether both residuals of a difference are within their tolerances. -/
def converged (delta : List Float) (distTol angleTol : Float) : Bool :=
  let (pos, rot) := Constraints.residuals delta
  pos.norm ≤ distTol && rot.norm ≤ angleTol

/-- The largest condition number a solved system may have. -/
def conditionLimit : Float := 1e16

/-- The damped least-squares step `Jᵀ (J Jᵀ + λ² I)⁻¹ e`, at most `0.5` long, or none when
the system is singular or too badly conditioned. -/
def dampedStep (jac : Matrix) (e : List Float) (lambda : Float) : Option (List Float) :=
  let g0 := jac.gram
  let n := g0.rows
  let damped := (List.range n).foldl
    (fun d i => d.set! (i * n + i) (d.getD (i * n + i) 0 + lambda * lambda)) g0.data
  let g : Matrix := ⟨n, n, damped⟩
  let f := LU.factor g
  let cond := 1 / f.reciprocalCondition g.maxRowSum
  if f.isSingular then none
  else
    let y := f.solve e
    if cond > conditionLimit then none
    else
      let dq := jac.mulTransposeVec y
      let norm := euclideanNorm dq
      some (if norm > 0.5 then dq.map (· * (0.5 / norm)) else dq)

variable {α : Type} [Arm α]

/-- The forward-difference Jacobian of the enforced components at `q`, whose pose is `at`:
column `j` is the change of the pose difference when joint `j` moves by `1e-6`, times `1e6`. -/
def jacobian (mask : List Bool) (arm : α) (q : List Float) (at_ : Pose) :
    α × Except Failure Matrix :=
  let rows := (mask.filter id).length
  let step := fun (acc : α × Except Failure (List (List Float))) (j : Nat) =>
    match acc with
    | (arm, .error e) => (arm, .error e)
    | (arm, .ok cols) =>
      let probe := q.set j (q.getD j 0 + 1e-6)
      match Arm.transform arm probe with
      | (arm, .error e) => (arm, .error e)
      | (arm, .ok moved) =>
        let col := (Constraints.rowsOf mask (Pose.delta at_ moved)).map (· * 1000000.0)
        (arm, .ok (cols ++ [col]))
  match (List.range q.length).foldl step (arm, .ok []) with
  | (arm, .ok cols) => (arm, .ok (Matrix.ofColumns rows cols))
  | (arm, .error e) => (arm, .error e)

/-- Where the search stands: joint values, their pose, the masked difference to the goal,
the score and the damping. -/
structure Search where
  q : List Float
  pose : Pose
  delta : List Float
  score : Float
  lambda : Float

/-- At most `fuel` steps of the search. -/
def iterate (s : JacobianSolver) (cancelled : Bool) (goal : Pose) (c : Option Constraints)
    (limits : List Limit) (distTol angleTol : Float) :
    Nat → α → Search → α × Except Failure Search
  | 0, arm, st => (arm, .ok st)
  | fuel + 1, arm, st =>
    if converged st.delta distTol angleTol then (arm, .ok st)
    else if cancelled then (arm, .error .canceled)
    else
      let mask := Constraints.mask c
      match jacobian mask arm st.q st.pose with
      | (arm, .error e) => (arm, .error e)
      | (arm, .ok jac) =>
        match dampedStep jac (Constraints.rowsOf mask st.delta) st.lambda with
        | none => iterate s cancelled goal c limits distTol angleTol fuel arm
            { st with lambda := st.lambda * 10 }
        | some dq =>
          let candidate := clampAll (st.q.zipWith (· + ·) dq) limits
          match Arm.transform arm candidate with
          | (arm, .error e) => (arm, .error e)
          | (arm, .ok next) =>
            let nextScore := Constraints.squaredNormMetric goal c next
            if nextScore < st.score then
              let lambda := if st.lambda / 10 < s.damping then s.damping else st.lambda / 10
              iterate s cancelled goal c limits distTol angleTol fuel arm
                ⟨candidate, next, Constraints.maskedDelta mask next goal, nextScore, lambda⟩
            else
              let lambda := st.lambda * 10
              if lambda > 1000 then (arm, .ok { st with lambda := lambda })
              else iterate s cancelled goal c limits distTol angleTol fuel arm
                { st with lambda := lambda }

/-- Solves for `goal` from the arm's current values. `cancelled` says whether the run is
cancelled; it is looked at before every step. -/
def solve (s : JacobianSolver) (cancelled : Bool) (arm : α) (goal : Pose)
    (c : Option Constraints) : α × Except Failure Unit :=
  let limits := Arm.limits arm
  let mask := Constraints.mask c
  let (distTol, angleTol) := Constraints.tolerances c s.distanceTolerance s.angleTolerance
  let q := clampAll (Arm.positions arm) limits
  match Arm.transform arm q with
  | (arm, .error e) => (arm, .error e)
  | (arm, .ok pose) =>
    let start : Search :=
      ⟨q, pose, Constraints.maskedDelta mask pose goal,
        Constraints.squaredNormMetric goal c pose, s.damping⟩
    match iterate s cancelled goal c limits distTol angleTol s.maxIterations arm start with
    | (arm, .error e) => (arm, .error e)
    | (arm, .ok st) =>
      if converged st.delta distTol angleTol then Arm.setPositions arm st.q
      else
        let (pos, rot) := Constraints.residuals st.delta
        (arm, .error (.notConverged ⟨1, pos, rot⟩))

end JacobianSolver

/-- The damped least-squares search keeps no state between solves and never cancels. -/
instance : Solver JacobianSolver where
  solve s cancelled arm goal c :=
    let (arm, outcome) := s.solve cancelled arm goal c
    ⟨s, arm, cancelled, outcome⟩

end ArmReach
