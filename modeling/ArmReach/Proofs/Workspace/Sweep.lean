import ArmReach.Workspace.Sampler
import ArmReach.Proofs.Solver.Contract
import ArmReach.Proofs.Parallel.Cover
/-!
# Sampling a box is one sweep of its grid

`Sampler.sample` deals the z slices of a box to work groups, each trying the points of its
slices on its own copy of the arm, reset before every point. This file proves that on a
request that is never cancelled the groups together do exactly what one sweep does: try every
point of the grid in z, then y, then x order on the arm itself, until the first failure that
is not a non-convergence.

* `visit` is one point of the sweep and `sweep` the whole run, a fold of `visit`;
* `Follows arm st w` says that the state of a group is in step with a sweep;
* `tryPoints_follows`, `trySlices_follows` and `runGroups_follows` carry that invariant
  through a slice, a group and all groups, and `runGroups_of_stopped` says that stopped
  groups do nothing;
* `sample_eq_sweep` is the result: the sample is the sweep of `boxPoints`, whatever the number
  of groups;
* `sweep_of_good` and `sweep_append_of_aborted` evaluate a sweep by a solver whose outcomes
  are a function of the goal: without an abort it calls the solver on every point and keeps
  the points reached; otherwise it stops at the first abort.
-/

namespace ArmReach

namespace Workspace

/-! ### The grid -/

/-- The points of the slice at height `z`: by y, then x. -/
def slicePoints (xs ys : List Float) (z : Float) : List Vec3 :=
  ys.flatMap fun y => xs.map fun x => ⟨x, y, z⟩

/-- The points of a grid: by z, then y, then x. -/
def gridOf (xs ys zs : List Float) : List Vec3 := zs.flatMap (slicePoints xs ys)

/-- The grid of the box `[lo, hi)` with spacing `step`. -/
def boxPoints (lo hi : Vec3) (step : Float) : List Vec3 :=
  gridOf (gridPoints lo.x hi.x step) (gridPoints lo.y hi.y step) (gridPoints lo.z hi.z step)

@[simp] theorem gridOf_nil (xs ys : List Float) : gridOf xs ys [] = [] := rfl

theorem gridOf_cons (xs ys : List Float) (z : Float) (zs : List Float) :
    gridOf xs ys (z :: zs) = slicePoints xs ys z ++ gridOf xs ys zs :=
  List.flatMap_cons

theorem gridOf_append (xs ys zs zs' : List Float) :
    gridOf xs ys (zs ++ zs') = gridOf xs ys zs ++ gridOf xs ys zs' :=
  List.flatMap_append

/-- A grid holds one point per x, y and z. -/
theorem length_gridOf (xs ys zs : List Float) :
    (gridOf xs ys zs).length = xs.length * ys.length * zs.length := by
  induction zs with
  | nil => simp
  | cons z zs ih =>
    have hslice : (slicePoints xs ys z).length = xs.length * ys.length := by
      simp only [slicePoints, List.length_flatMap, List.length_map, List.map_const',
        List.sum_replicate_nat, Nat.mul_comm]
    rw [gridOf_cons, List.length_append, ih, hslice, List.length_cons, Nat.mul_succ]
    omega

/-- The goal at a grid point: the point, with the given rotation. -/
def target (rotation : Quaternion) (p : Vec3) : Pose := Pose.make p (some (.quaternion rotation))

/-! ### The sweep -/

/-- What a sweep has done so far: the solver, the targets reached, and the failure that
ended it, if any. -/
structure Swept (σ : Type) where
  solver : σ
  reached : List Pose
  failure : Option Failure

variable {σ α : Type} [Solver σ]

section Sweep

variable (arm : Chain) (rotation : Quaternion) (c : Option Constraints)

/-- One point of a sweep: unless the sweep has failed, the solver tries the point's goal on
`arm` for a live request. A non-convergence leaves the point out; any other failure ends the
sweep with the message `failed to sample point (x, y, z): …`. -/
def visit (w : Swept σ) (p : Vec3) : Swept σ :=
  match w.failure with
  | some _ => w
  | none =>
    let s := Solver.solve w.solver false arm (target rotation p) c
    match s.outcome with
    | .ok () => ⟨s.solver, w.reached ++ [target rotation p], none⟩
    | .error e =>
      if e.isNotConverged then ⟨s.solver, w.reached, none⟩
      else ⟨s.solver, w.reached, some (.wrap ("failed to sample point " ++ p.render) e)⟩

/-- The points tried in order from the solver `t`, each on `arm`. -/
def sweep (t : σ) (ps : List Vec3) : Swept σ := ps.foldl (visit arm rotation c) ⟨t, [], none⟩

theorem visit_of_failed {w : Swept σ} {f : Failure} (hw : w.failure = some f) (p : Vec3) :
    visit arm rotation c w p = w := by
  simp [visit, hw]

theorem foldl_visit_of_failed (w : Swept σ) {f : Failure} (hw : w.failure = some f)
    (ps : List Vec3) : ps.foldl (visit arm rotation c) w = w := by
  induction ps with
  | nil => rfl
  | cons p ps ih => rw [List.foldl_cons, visit_of_failed arm rotation c hw, ih]

/-- A point the solver reaches is kept. -/
theorem visit_of_ok {t : σ} {R : List Pose} {p : Vec3}
    (ho : (Solver.solve t false arm (target rotation p) c).outcome = .ok ()) :
    visit arm rotation c ⟨t, R, none⟩ p =
      ⟨(Solver.solve t false arm (target rotation p) c).solver, R ++ [target rotation p], none⟩ := by
  simp [visit, ho]

/-- A point the solver does not converge on is left out. -/
theorem visit_of_missed {t : σ} {R : List Pose} {p : Vec3} {e : Failure}
    (ho : (Solver.solve t false arm (target rotation p) c).outcome = .error e)
    (he : e.isNotConverged = true) :
    visit arm rotation c ⟨t, R, none⟩ p =
      ⟨(Solver.solve t false arm (target rotation p) c).solver, R, none⟩ := by
  simp [visit, ho, he]

/-- Any other failure ends the sweep. -/
theorem visit_of_aborted {t : σ} {R : List Pose} {p : Vec3} {e : Failure}
    (ho : (Solver.solve t false arm (target rotation p) c).outcome = .error e)
    (he : e.isNotConverged = false) :
    visit arm rotation c ⟨t, R, none⟩ p =
      ⟨(Solver.solve t false arm (target rotation p) c).solver, R,
        some (.wrap ("failed to sample point " ++ p.render) e)⟩ := by
  simp [visit, ho, he]

/-- The targets reached before a sweep stand in front of those it reaches. -/
theorem foldl_visit_reached (ps : List Vec3) (t : σ) (R : List Pose) :
    ps.foldl (visit arm rotation c) ⟨t, R, none⟩ =
      let w := sweep arm rotation c t ps
      ⟨w.solver, R ++ w.reached, w.failure⟩ := by
  induction ps generalizing t R with
  | nil => simp [sweep]
  | cons p ps ih =>
    simp only [sweep, List.foldl_cons]
    cases ho : (Solver.solve t false arm (target rotation p) c).outcome with
    | ok u =>
      rw [visit_of_ok arm rotation c ho, visit_of_ok arm rotation c ho, ih, ih]
      simp
    | error e =>
      cases he : e.isNotConverged with
      | true =>
        rw [visit_of_missed arm rotation c ho he, visit_of_missed arm rotation c ho he]
        exact ih _ R
      | false =>
        rw [visit_of_aborted arm rotation c ho he, visit_of_aborted arm rotation c ho he,
          foldl_visit_of_failed arm rotation c ⟨_, _, _⟩ rfl,
          foldl_visit_of_failed arm rotation c ⟨_, _, _⟩ rfl]
        simp

/-- The solvers a sweep passes through are reached by calls on `arm`. -/
theorem reachable_foldl_visit {s₀ : σ} (ps : List Vec3) (w : Swept σ)
    (h : Solver.Reachable s₀ w.solver) :
    Solver.Reachable s₀ (ps.foldl (visit arm rotation c) w).solver := by
  induction ps generalizing w with
  | nil => exact h
  | cons p ps ih =>
    apply ih
    -- a visit keeps the solver or makes one call
    simp only [visit]
    split
    · exact h
    · split
      · exact .call false arm _ c h
      · split <;> exact .call false arm _ c h

end Sweep

/-! ### Sweeps by a deterministic solver -/

section Evaluation

variable (arm : Chain) (rotation : Quaternion) (c : Option Constraints) {t₀ : σ}
  (hdet : Solver.Deterministic t₀)
include hdet

/-- Over points where no call aborts, a sweep calls the solver on every point in turn and
keeps the points whose call succeeds. -/
theorem foldl_visit_of_good (ps : List Vec3)
    (hgood : ∀ p ∈ ps, (Solver.solve t₀ false arm (target rotation p) c).aborted = false)
    (t : σ) (ht : Solver.Reachable t₀ t) (R : List Pose) :
    ps.foldl (visit arm rotation c) ⟨t, R, none⟩ =
      ⟨ps.foldl (fun t p => (Solver.solve t false arm (target rotation p) c).solver) t,
        R ++ (ps.filter fun p => (Solver.solve t₀ false arm (target rotation p) c).succeeded).map
          (target rotation), none⟩ := by
  induction ps generalizing t R with
  | nil => simp
  | cons p ps ih =>
    have hp := hgood p List.mem_cons_self
    have hrest : ∀ q ∈ ps, (Solver.solve t₀ false arm (target rotation q) c).aborted = false :=
      fun q hq => hgood q (List.mem_cons_of_mem p hq)
    -- the call at `t` answers as the call at `t₀`
    have hout := hdet t ht arm (target rotation p) c
    have ht' := Solver.Reachable.call false arm (target rotation p) c ht
    rw [List.foldl_cons, List.foldl_cons]
    cases ho : (Solver.solve t₀ false arm (target rotation p) c).outcome with
    | ok u =>
      have hs : (Solver.solve t₀ false arm (target rotation p) c).succeeded = true := by
        simp [Solved.succeeded, ho]
      rw [visit_of_ok arm rotation c (hout.trans ho), ih hrest _ ht']
      simp [hs]
    | error e =>
      have he : e.isNotConverged = true := by simpa [Solved.aborted, ho] using hp
      have hs : (Solver.solve t₀ false arm (target rotation p) c).succeeded = false := by
        simp [Solved.succeeded, ho]
      rw [visit_of_missed arm rotation c (hout.trans ho) he, ih hrest _ ht']
      simp [hs]

/-- **A sweep without aborts** calls the solver on every point in turn and returns the
targets of the points whose call succeeds, in order. -/
theorem sweep_of_good (ps : List Vec3)
    (hgood : ∀ p ∈ ps, (Solver.solve t₀ false arm (target rotation p) c).aborted = false)
    (t : σ) (ht : Solver.Reachable t₀ t) :
    sweep arm rotation c t ps =
      ⟨ps.foldl (fun t p => (Solver.solve t false arm (target rotation p) c).solver) t,
        (ps.filter fun p => (Solver.solve t₀ false arm (target rotation p) c).succeeded).map
          (target rotation), none⟩ := by
  rw [sweep, foldl_visit_of_good arm rotation c hdet ps hgood t ht, List.nil_append]

/-- **A sweep stops at its first abort.** When the points before `p` do not abort and `p`
does, the sweep calls the solver on the points up to `p` and on `p`, and ends with `p`'s
failure in context. -/
theorem sweep_append_of_aborted (qs rest : List Vec3) (p : Vec3) {e : Failure}
    (hgood : ∀ q ∈ qs, (Solver.solve t₀ false arm (target rotation q) c).aborted = false)
    (ho : (Solver.solve t₀ false arm (target rotation p) c).outcome = .error e)
    (he : e.isNotConverged = false) (t : σ) (ht : Solver.Reachable t₀ t) :
    sweep arm rotation c t (qs ++ p :: rest) =
      ⟨(qs ++ [p]).foldl (fun t p => (Solver.solve t false arm (target rotation p) c).solver) t,
        (qs.filter fun q => (Solver.solve t₀ false arm (target rotation q) c).succeeded).map
          (target rotation),
        some (.wrap ("failed to sample point " ++ p.render) e)⟩ := by
  have hbefore := foldl_visit_of_good arm rotation c hdet qs hgood t ht []
  -- the solver after the points before `p` is still reached from `t₀`
  have hreach : Solver.Reachable t₀
      (qs.foldl (fun t p => (Solver.solve t false arm (target rotation p) c).solver) t) := by
    have h := reachable_foldl_visit arm rotation c qs ⟨t, [], none⟩ ht
    rw [hbefore] at h
    exact h
  have hout := hdet _ hreach arm (target rotation p) c
  rw [sweep, List.foldl_append, hbefore, List.foldl_cons,
    visit_of_aborted arm rotation c (hout.trans ho) he,
    foldl_visit_of_failed arm rotation c ⟨_, _, _⟩ rfl, List.foldl_append, List.nil_append]
  rfl

end Evaluation

/-! ### The groups follow the sweep -/

namespace Sampler

/-- The state `st` of a group is in step with the sweep `w`: the same solver and reached
targets, the group not stopped, and a worker that is `arm` with other joint values. -/
structure Follows (arm : Chain) (st : SampleState σ Chain) (w : Swept σ) : Prop where
  solver : st.solver = w.solver
  reached : st.reached = w.reached
  live : st.groupsStopped = false
  worker : arm.Reconfigured st.worker

section Equations

variable [Arm α] (initial : List Float) (rotation : Quaternion) (c : Option Constraints)
  (xs ys zs : List Float)

theorem trySlices_cons (z : Float) (zs' : List Float) (st : SampleState σ α) :
    trySlices initial rotation c xs ys (z :: zs') st =
      match tryPoints initial rotation c (slicePoints xs ys z) st with
      | (st, some (.failure f)) => (st, some f)
      | (st, _) => trySlices initial rotation c xs ys zs' st :=
  rfl

theorem runGroups_cons (arm : α) (g : Parallel.Group) (gs : List Parallel.Group) (t : σ)
    (cancelled stopped : Bool) (R : List Pose) (F : List Failure) :
    runGroups arm initial rotation c xs ys zs (g :: gs) (t, cancelled, stopped) (R, F) =
      match trySlices initial rotation c xs ys (g.slice zs)
          ⟨t, cancelled, stopped, Arm.clone arm, []⟩ with
      | (st, some f) =>
        runGroups arm initial rotation c xs ys zs gs (st.solver, st.requestCancelled, true)
          (R, F ++ [f])
      | (st, none) =>
        runGroups arm initial rotation c xs ys zs gs
          (st.solver, st.requestCancelled, st.groupsStopped) (R ++ st.reached, F) :=
  rfl

end Equations

section Follow

variable (hkeep : Solver.KeepsChain σ) {arm : Chain}
  (harm : arm.positions.length = arm.joints.length) (rotation : Quaternion)
  (c : Option Constraints) {s₀ : σ} (hlive : Solver.NeverCancels s₀)
include hkeep harm hlive

omit hkeep hlive in
/-- A point of a live slice: the worker is put back to `arm`, the call on it does not cancel,
and the state takes the solver and the arm the call leaves. -/
theorem tryPoints_cons_of_live {p : Vec3} (ps : List Vec3) {st : SampleState σ Chain}
    (hstop : st.groupsStopped = false) (hworker : arm.Reconfigured st.worker)
    (hcancel : (Solver.solve st.solver false arm (target rotation p) c).cancelled = false) :
    tryPoints arm.positions rotation c (p :: ps) st =
      let s := Solver.solve st.solver false arm (target rotation p) c
      let st' := { st with solver := s.solver, worker := s.arm }
      match s.outcome with
      | .ok () =>
        tryPoints arm.positions rotation c ps { st' with reached := st.reached ++ [target rotation p] }
      | .error e =>
        if e.isNotConverged then tryPoints arm.positions rotation c ps st'
        else (st', some (.failure (.wrap ("failed to sample point " ++ p.render) e))) := by
  obtain ⟨t, requestCancelled, stopped, worker, reached⟩ := st
  simp only at hstop hworker hcancel
  subst hstop
  -- the reset puts the worker back to `arm` itself
  have hreset : Arm.setUnchecked worker arm.positions = (arm, .ok ()) := by
    rw [Chain.arm_setUnchecked_of_length (by rw [hworker.joints_eq]; exact harm),
      hworker.restore]
  simp only [target] at hcancel ⊢
  simp only [tryPoints, hreset, hcancel, Bool.false_eq_true, if_false, Bool.false_and,
    Bool.or_false, Bool.or_self]
  cases (Solver.solve t false arm (Pose.make p (some (.quaternion rotation))) c).outcome with
  | ok u => rfl
  | error e => cases e.isNotConverged <;> rfl

/-- One slice, in step with the sweep of its points: each point is the sweep's next call. -/
theorem tryPoints_follows (ps : List Vec3) {st : SampleState σ Chain} {w : Swept σ}
    (hf : Follows arm st w) (hw : w.failure = none) (hreach : Solver.Reachable s₀ w.solver) :
    Follows arm (tryPoints arm.positions rotation c ps st).1 (ps.foldl (visit arm rotation c) w) ∧
      (tryPoints arm.positions rotation c ps st).1.requestCancelled = st.requestCancelled ∧
      (tryPoints arm.positions rotation c ps st).2 =
        (ps.foldl (visit arm rotation c) w).failure.map .failure := by
  induction ps generalizing st w with
  | nil => exact ⟨hf, rfl, by simp [tryPoints, hw]⟩
  | cons p ps ih =>
    obtain ⟨t, R, f⟩ := w
    obtain ⟨hsolver, hreached, hstop, hworker⟩ := hf
    simp only at hsolver hreached hw hreach
    subst hw
    have hcancel := hlive _ hreach arm (target rotation p) c
    have harm' := hkeep t false arm (target rotation p) c
    have hreach' := Solver.Reachable.call false arm (target rotation p) c hreach
    rw [tryPoints_cons_of_live harm rotation c ps hstop hworker (hsolver ▸ hcancel), hsolver,
      List.foldl_cons]
    dsimp only
    cases ho : (Solver.solve t false arm (target rotation p) c).outcome with
    | ok u =>
      rw [visit_of_ok arm rotation c ho]
      exact ih ⟨rfl, by rw [hreached], hstop, harm'⟩ rfl hreach'
    | error e =>
      dsimp only
      cases he : e.isNotConverged with
      | true =>
        rw [visit_of_missed arm rotation c ho he, if_pos rfl]
        exact ih ⟨rfl, hreached, hstop, harm'⟩ rfl hreach'
      | false =>
        rw [visit_of_aborted arm rotation c ho he, foldl_visit_of_failed arm rotation c _ rfl,
          if_neg Bool.false_ne_true]
        exact ⟨⟨rfl, hreached, hstop, harm'⟩, rfl, rfl⟩

/-- The slices of a group, in step with the sweep of their grid. -/
theorem trySlices_follows (xs ys zs : List Float) {st : SampleState σ Chain} {w : Swept σ}
    (hf : Follows arm st w) (hw : w.failure = none) (hreach : Solver.Reachable s₀ w.solver) :
    Follows arm (trySlices arm.positions rotation c xs ys zs st).1
        ((gridOf xs ys zs).foldl (visit arm rotation c) w) ∧
      (trySlices arm.positions rotation c xs ys zs st).1.requestCancelled = st.requestCancelled ∧
      (trySlices arm.positions rotation c xs ys zs st).2 =
        ((gridOf xs ys zs).foldl (visit arm rotation c) w).failure := by
  -- slice by slice: each slice keeps the group in step, and a failed slice ends the group as
  -- a failed sweep ignores the points after it
  induction zs generalizing st w with
  | nil => exact ⟨hf, rfl, hw.symm⟩
  | cons z zs ih =>
    obtain ⟨hf1, hrc1, he1⟩ :=
      tryPoints_follows hkeep harm rotation c hlive (slicePoints xs ys z) hf hw hreach
    have hreach1 := reachable_foldl_visit arm rotation c (slicePoints xs ys z) w hreach
    rw [gridOf_cons, List.foldl_append, trySlices_cons]
    generalize tryPoints arm.positions rotation c (slicePoints xs ys z) st = r at hf1 hrc1 he1
    obtain ⟨st1, e1⟩ := r
    generalize (slicePoints xs ys z).foldl (visit arm rotation c) w = w1 at hf1 he1 hreach1
    simp only at hf1 hrc1 he1
    cases hw1 : w1.failure with
    | some f =>
      -- the slice failed: so does the group
      rw [hw1] at he1
      subst he1
      rw [foldl_visit_of_failed arm rotation c w1 hw1, Option.map_some]
      exact ⟨hf1, hrc1, hw1.symm⟩
    | none =>
      rw [hw1] at he1
      subst he1
      rw [Option.map_none]
      obtain ⟨hf2, hrc2, he2⟩ := ih hf1 hw1 hreach1
      exact ⟨hf2, hrc2.trans hrc1, he2⟩

end Follow

/-- Once the groups are stopped, a slice takes no point. -/
theorem tryPoints_of_stopped [Arm α] (initial : List Float) (rotation : Quaternion)
    (c : Option Constraints) (ps : List Vec3) {st : SampleState σ α}
    (hstop : st.groupsStopped = true) :
    (tryPoints initial rotation c ps st).1 = st ∧
      ∀ f, (tryPoints initial rotation c ps st).2 ≠ some (.failure f) := by
  cases ps with
  | nil => simp [tryPoints]
  | cons p ps => simp [tryPoints, hstop]

theorem trySlices_of_stopped [Arm α] (initial : List Float) (rotation : Quaternion)
    (c : Option Constraints) (xs ys zs : List Float) {st : SampleState σ α}
    (hstop : st.groupsStopped = true) :
    trySlices initial rotation c xs ys zs st = (st, none) := by
  induction zs with
  | nil => rfl
  | cons z zs ih =>
    obtain ⟨hst, hnot⟩ := tryPoints_of_stopped initial rotation c (slicePoints xs ys z) hstop
    rw [trySlices_cons]
    generalize tryPoints initial rotation c (slicePoints xs ys z) st = r at hst hnot
    obtain ⟨st1, e1⟩ := r
    simp only at hst hnot
    subst hst
    cases e1 with
    | none => exact ih
    | some e =>
      cases e with
      | quiet => exact ih
      | failure f => exact absurd rfl (hnot f)

/-- **Stopped groups do nothing.** After a failed group the later groups take no point: the
solver, the cancellation, the reached targets and the failures stay as they are. -/
theorem runGroups_of_stopped [Arm α] (arm : α) (initial : List Float) (rotation : Quaternion)
    (c : Option Constraints) (xs ys zs : List Float) (gs : List Parallel.Group) (t : σ)
    (cancelled : Bool) (R : List Pose) (F : List Failure) :
    runGroups arm initial rotation c xs ys zs gs (t, cancelled, true) (R, F) =
      (t, cancelled, R, F) := by
  induction gs generalizing R with
  | nil => rfl
  | cons g gs ih =>
    rw [runGroups_cons, trySlices_of_stopped initial rotation c xs ys _ rfl]
    simp only [List.append_nil]
    exact ih R

section Groups

variable (hkeep : Solver.KeepsChain σ) {arm : Chain}
  (harm : arm.positions.length = arm.joints.length) (rotation : Quaternion)
  (c : Option Constraints) (xs ys zs : List Float) {s₀ : σ} (hlive : Solver.NeverCancels s₀)
include hkeep harm hlive

/-- **The groups follow the sweep.** Run from a live state, the groups leave the solver of
the sweep of their slices' grid and its failure, and, when it did not fail, its targets. -/
theorem runGroups_follows (gs : List Parallel.Group) (t : σ) (cancelled : Bool) (R : List Pose)
    (hreach : Solver.Reachable s₀ t) :
    let r := runGroups arm arm.positions rotation c xs ys zs gs (t, cancelled, false) (R, [])
    let w := sweep arm rotation c t (gridOf xs ys (gs.flatMap (Parallel.Group.slice zs)))
    r.1 = w.solver ∧ r.2.1 = cancelled ∧ r.2.2.2 = w.failure.toList ∧
      (w.failure = none → r.2.2.1 = R ++ w.reached) := by
  -- group by group, the solver threaded through: a live group is the sweep of its slices, and
  -- after a failed one the sweep and the stopped groups both do nothing more
  induction gs generalizing t R with
  | nil => simp [runGroups, sweep]
  | cons g gs ih =>
    -- each group starts on a fresh copy of the arm with nothing reached
    have hstart : Follows arm (⟨t, cancelled, false, Arm.clone arm, []⟩ : SampleState σ Chain)
        ⟨t, [], none⟩ := ⟨rfl, rfl, rfl, Chain.reconfigured_self arm⟩
    obtain ⟨hf1, hrc1, he1⟩ :=
      trySlices_follows hkeep harm rotation c hlive xs ys (g.slice zs) hstart rfl hreach
    have hreach1 := reachable_foldl_visit arm rotation c (gridOf xs ys (g.slice zs)) ⟨t, [], none⟩
      hreach
    rw [runGroups_cons]
    simp only [List.flatMap_cons, gridOf_append, sweep, List.foldl_append]
    generalize trySlices arm.positions rotation c xs ys (g.slice zs)
      ⟨t, cancelled, false, Arm.clone arm, []⟩ = r at hf1 hrc1 he1
    obtain ⟨st1, e1⟩ := r
    generalize (gridOf xs ys (g.slice zs)).foldl (visit arm rotation c) ⟨t, [], none⟩ = w1
      at hf1 he1 hreach1
    simp only at hf1 hrc1 he1
    obtain ⟨t1, R1, f1⟩ := w1
    obtain ⟨hsolver, hreached, hstop, -⟩ := hf1
    simp only at hsolver hreached he1 hreach1
    subst he1 hsolver hreached
    cases e1 with
    | some f =>
      -- the failed group stops the others
      dsimp only
      rw [runGroups_of_stopped, foldl_visit_of_failed arm rotation c ⟨_, _, _⟩ rfl]
      exact ⟨rfl, hrc1, rfl, fun h => (Option.some_ne_none f h).elim⟩
    | none =>
      dsimp only
      rw [hstop, hrc1, foldl_visit_reached]
      obtain ⟨h1, h2, h3, h4⟩ := ih st1.solver (R ++ st1.reached) hreach1
      refine ⟨h1, h2, h3, fun h => ?_⟩
      rw [h4 h, List.append_assoc]

end Groups

/-- **Sampling is one sweep of the grid.** For every solver that changes nothing of a chain
but its values and never cancels a live request, every chain holding one value per joint and
every number of groups: a sample on a live request either fails with the box's failure,
calling nothing, or leaves the solver of the sweep of the box's grid, and fails with the
sweep's failure or returns the sweep's targets. -/
theorem sample_eq_sweep (hkeep : Solver.KeepsChain σ) (s : Sampler σ) {arm : Chain}
    (harm : arm.positions.length = arm.joints.length) (hfactor : 0 < s.factor)
    (hlive : Solver.NeverCancels s.solver) (reference : Pose) (c : Option Constraints)
    (lo hi : Vec3) (step : Float) :
    s.sample false arm reference c lo hi step =
      match checkBox lo hi step with
      | .error f => (s.solver, arm, false, .error f)
      | .ok () =>
        let w := sweep arm reference.rotation c s.solver (boxPoints lo hi step)
        (w.solver, arm, false, match w.failure with
          | some f => .error f
          | none => .ok w.reached) := by
  unfold sample
  cases checkBox lo hi step with
  | error f => rfl
  | ok u =>
    simp only
    have hcover := Parallel.flatMap_slice_groupCount (gridPoints lo.z hi.z step) s.parallelism
      hfactor
    obtain ⟨h1, h2, h3, h4⟩ := runGroups_follows hkeep harm reference.rotation c
      (gridPoints lo.x hi.x step) (gridPoints lo.y hi.y step) (gridPoints lo.z hi.z step) hlive
      (Parallel.groups (gridPoints lo.z hi.z step).length
        (Parallel.groupCount s.factor (gridPoints lo.z hi.z step).length s.parallelism).toNat)
      s.solver false [] .start
    rw [hcover] at h1 h3 h4
    generalize runGroups arm (Arm.positions arm) reference.rotation c (gridPoints lo.x hi.x step)
      (gridPoints lo.y hi.y step) (gridPoints lo.z hi.z step)
      (Parallel.groups (gridPoints lo.z hi.z step).length
        (Parallel.groupCount s.factor (gridPoints lo.z hi.z step).length s.parallelism).toNat)
      (s.solver, false, false) ([], []) = r at h1 h2 h3 h4
    obtain ⟨t, cancelled, R, F⟩ := r
    simp only at h1 h2 h3 h4
    subst h1 h2 h3
    -- the failures of the groups are the sweep's failure, if any
    cases hw : (sweep arm reference.rotation c s.solver (boxPoints lo hi step)).failure with
    | some f =>
      simp only [boxPoints] at hw
      rw [hw]
      rfl
    | none =>
      simp only [boxPoints] at hw
      rw [hw, h4 hw]
      rfl

end Sampler

end Workspace

end ArmReach
