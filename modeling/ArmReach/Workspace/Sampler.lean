import ArmReach.Workspace.Grid
import ArmReach.Solver.Basic
import ArmReach.Parallel.Groups
/-!
# Sampling the reachable workspace

`Sampler.sample` tries a solver on every point of a grid over the box `[min, max)` (see
`Workspace.Grid`), keeping the orientation of a reference pose, and returns the poses it
reached, ordered by z, then y, then x.

* The z values are dealt to work groups (`Parallel.groups`), each with its own copy of the arm;
  a group takes its z slices in order and each slice its points by y, then x. The groups are
  dealt by the integer quotient: an accepted box has at most `2³¹ - 1` z values, where the
  quotient in doubles of the work groups is exact.
* Before every point the copy is put back, unchecked, in the configuration the arm had at the
  start; a refusal ends the group with that failure.
* A point the solver does not converge on is left out. Once the request is cancelled a group
  stops taking points. Any other failure of the solver ends its group with the message
  `failed to sample point (x, y, z): …`, and a failing group stops the others from taking
  further points.
* The result is the combined failure of the groups if any, else a cancellation of the request,
  else the reached poses of all groups in group order.

The given arm is never changed: only its copies are.
-/

namespace ArmReach

namespace Workspace

/-- Samples with a solver, with the given number of work groups (zero or less: `factor`). -/
structure Sampler (σ : Type) where
  solver : σ
  parallelism : Int
  factor : Nat

/-- The state of a sampling run between points. -/
structure SampleState (σ α : Type) where
  solver : σ
  /-- Whether the request has been cancelled. -/
  requestCancelled : Bool
  /-- Whether the groups have been told to stop: by the request, or by a failed group. -/
  groupsStopped : Bool
  worker : α
  reached : List Pose

namespace Sampler

variable {σ α : Type}

/-- What ends a z slice early. -/
inductive SliceEnd where
  /-- The request was cancelled: the slice stops quietly. -/
  | quiet
  /-- The group fails. -/
  | failure (f : Failure)

/-- Tries the points of one slice, in order. -/
def tryPoints [Solver σ] [Arm α] (initial : List Float) (rotation : Quaternion)
    (c : Option Constraints) :
    List Vec3 → SampleState σ α → SampleState σ α × Option SliceEnd
  | [], st => (st, none)
  | p :: ps, st =>
    if st.groupsStopped then (st, some .quiet) else
    match Arm.setUnchecked st.worker initial with
    | (worker, .error e) => ({ st with worker }, some (.failure e))
    | (worker, .ok ()) =>
      let target := Pose.make p (some (.quaternion rotation))
      let s := Solver.solve st.solver st.groupsStopped worker target c
      let cancelledNow := s.cancelled && !st.groupsStopped
      let st := { st with solver := s.solver, worker := s.arm,
                          requestCancelled := st.requestCancelled || cancelledNow,
                          groupsStopped := st.groupsStopped || s.cancelled }
      match s.outcome with
      | .ok () => tryPoints initial rotation c ps { st with reached := st.reached ++ [target] }
      | .error e =>
        if e.isNotConverged then tryPoints initial rotation c ps st
        else if st.groupsStopped then (st, some .quiet)
        else (st, some (.failure (.wrap ("failed to sample point " ++ target.point.render) e)))

/-- Tries the slices of one group in order: the state after it, and the failure that ended it. -/
def trySlices [Solver σ] [Arm α] (initial : List Float) (rotation : Quaternion)
    (c : Option Constraints) (xs ys : List Float) :
    List Float → SampleState σ α → SampleState σ α × Option Failure
  | [], st => (st, none)
  | z :: zs, st =>
    let points := ys.flatMap fun y => xs.map fun x => (⟨x, y, z⟩ : Vec3)
    match tryPoints initial rotation c points st with
    | (st, some (.failure f)) => (st, some f)
    | (st, _) => trySlices initial rotation c xs ys zs st

/-- Runs the groups in order; a failed group stops the later ones from taking points. -/
def runGroups [Solver σ] [Arm α] (arm : α) (initial : List Float) (rotation : Quaternion)
    (c : Option Constraints) (xs ys zs : List Float) :
    List Parallel.Group → σ × Bool × Bool → List Pose × List Failure →
    σ × Bool × List Pose × List Failure
  | [], (solver, requestCancelled, _), (reached, failures) =>
    (solver, requestCancelled, reached, failures)
  | g :: gs, (solver, requestCancelled, stopped), (reached, failures) =>
    let slices := (zs.drop g.first).take g.size
    let st : SampleState σ α := ⟨solver, requestCancelled, stopped, Arm.clone arm, []⟩
    match trySlices initial rotation c xs ys slices st with
    | (st, some f) =>
      runGroups arm initial rotation c xs ys zs gs (st.solver, st.requestCancelled, true)
        (reached, failures ++ [f])
    | (st, none) =>
      runGroups arm initial rotation c xs ys zs gs
        (st.solver, st.requestCancelled, st.groupsStopped) (reached ++ st.reached, failures)

/-- Samples the box `[lo, hi)` with spacing `step`, keeping the orientation of `reference`: the
solver afterwards, the caller's arm afterwards, whether the request is now cancelled, and the
reached poses. -/
def sample [Solver σ] [Arm α] (s : Sampler σ) (cancelled : Bool) (arm : α) (reference : Pose)
    (c : Option Constraints) (lo hi : Vec3) (step : Float) :
    σ × α × Bool × Except Failure (List Pose) :=
  match checkBox lo hi step with
  | .error f => (s.solver, arm, cancelled, .error f)
  | .ok () =>
    let xs := gridPoints lo.x hi.x step
    let ys := gridPoints lo.y hi.y step
    let zs := gridPoints lo.z hi.z step
    let count := Parallel.groupCount s.factor zs.length s.parallelism
    let groups := Parallel.groups zs.length count.toNat
    let (solver, cancelled, reached, failures) :=
      runGroups arm (Arm.positions arm) reference.rotation c xs ys zs groups
        (s.solver, cancelled, cancelled) ([], [])
    match Parallel.combine failures with
    | some f => (solver, arm, cancelled, .error f)
    | none =>
      if cancelled then (solver, arm, cancelled, .error .canceled)
      else (solver, arm, cancelled, .ok reached)

end Sampler

end Workspace

end ArmReach
