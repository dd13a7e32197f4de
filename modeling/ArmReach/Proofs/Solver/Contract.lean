import ArmReach.Solver.Script
import ArmReach.Solver.Region
/-!
# What a solver may do to a chain

A solver reaches the arm it is handed only through the operations of `Arm`, and on a serial
chain these change nothing but the joint values. The code around solvers (restarts, sampling)
is proved correct for **every** solver that keeps to this, whatever else it does:

* `Chain.Reconfigured a b`: `b` is the chain `a`, possibly holding other joint values;
* `Solver.KeepsChain σ`: every call leaves the chain it was handed reconfigured;
* `Solver.Reachable s₀ s`: some run of calls leads the solver from `s₀` to `s`. What a
  solver does along every run is said of the states it reaches: it never cancels a live
  request (`Solver.NeverCancels`), or the outcome of a call is a function of the chain, the
  goal and the constraints alone (`Solver.Deterministic`).

`Failure.Wraps f e` says that `e` is one of the causes inside `f`: `f` is `e`, `e` with context
in front, or a joined failure with `e` in one part.

The scripted and the region solvers keep the chain. A region solver answers from its region
alone (`RegionSolver.solve_eq_reply`), so it is deterministic, and it never cancels unless
its fault is to cancel, nor fails otherwise than by missing when it has no breaking height.
-/

namespace ArmReach

/-! ### Reconfigured chains -/

namespace Chain

/-- `a.Reconfigured b`: `b` is the chain `a` with possibly other joint values. -/
def Reconfigured (a b : Chain) : Prop := b = { a with positions := b.positions }

@[simp] theorem reconfigured_self (a : Chain) : a.Reconfigured a := rfl

@[simp] theorem reconfigured_with (a : Chain) (q : List Float) :
    a.Reconfigured { a with positions := q } := rfl

theorem Reconfigured.trans {a b d : Chain} (hab : a.Reconfigured b) (hbd : b.Reconfigured d) :
    a.Reconfigured d := by
  unfold Reconfigured at *
  rw [hbd, hab]

theorem Reconfigured.joints_eq {a b : Chain} (h : a.Reconfigured b) : b.joints = a.joints := by
  rw [h]

/-- Putting back the values of `a` into a reconfiguration of `a` gives `a` again. -/
theorem Reconfigured.restore {a b : Chain} (h : a.Reconfigured b) :
    { b with positions := a.positions } = a := by
  rw [h]

@[simp] theorem length_limits (c : Chain) : c.limits.length = c.joints.length := by
  simp [limits]

@[simp] theorem arm_positions (c : Chain) : Arm.positions c = c.positions := rfl

@[simp] theorem arm_limits (c : Chain) : Arm.limits c = c.limits := rfl

@[simp] theorem arm_clone (c : Chain) : Arm.clone c = c := rfl

theorem setUnchecked_eq (c : Chain) (q : List Float) :
    c.setUnchecked q =
      if q.length = c.joints.length then .ok { c with positions := q }
      else .error (.incorrectDof q.length c.joints.length) := by
  by_cases h : q.length = c.joints.length
  · simp [setUnchecked, checkValues, h]; rfl
  · simp [setUnchecked, checkValues, h]; rfl

/-- A checked setting that succeeds gives the chain with the new values. -/
theorem eq_of_setPositions_eq_ok {c c' : Chain} {q : List Float}
    (h : c.setPositions q = .ok c') : c' = { c with positions := q } := by
  simp only [setPositions] at h
  cases hcheck : c.checkValues q true with
  | error e => rw [hcheck] at h; cases h
  | ok u => rw [hcheck] at h; cases h; rfl

/-- An unchecked setting of one value per joint succeeds. -/
theorem arm_setUnchecked_of_length {c : Chain} {q : List Float}
    (h : q.length = c.joints.length) :
    Arm.setUnchecked c q = ({ c with positions := q }, .ok ()) := by
  simp [Arm.setUnchecked, setUnchecked_eq, h, orKeep]

theorem reconfigured_arm_setUnchecked (c : Chain) (q : List Float) :
    c.Reconfigured (Arm.setUnchecked c q).1 := by
  show c.Reconfigured (c.orKeep (c.setUnchecked q)).1
  rw [setUnchecked_eq]
  split <;> simp [orKeep]

theorem reconfigured_arm_setPositions (c : Chain) (q : List Float) :
    c.Reconfigured (Arm.setPositions c q).1 := by
  show c.Reconfigured (c.orKeep (c.setPositions q)).1
  cases h : c.setPositions q with
  | error e => simp [orKeep]
  | ok c' => simp [orKeep, eq_of_setPositions_eq_ok h]

/-- A chain built by `make` holds one value per joint. -/
theorem length_positions_of_make {name : String} {joints : List Joint} {endEffector : Vec3}
    {c : Chain} (h : make name joints endEffector = .ok c) :
    c.positions.length = c.joints.length := by
  simp only [make] at h
  split at h
  · cases h
  · cases hcheck : checkJoints name 0 joints with
    | error e => rw [hcheck] at h; cases h
    | ok u => rw [hcheck] at h; cases h; simp

theorem length_positions_sixAxis : sixAxis.positions.length = sixAxis.joints.length := by
  unfold sixAxis
  split
  · rename_i c hc; exact length_positions_of_make hc
  · rfl

end Chain

/-! ### Solvers along their runs -/

namespace Solved

variable {σ α : Type}

/-- The solve succeeded. -/
def succeeded (s : Solved σ α) : Bool :=
  match s.outcome with
  | .ok () => true
  | .error _ => false

/-- The solve ended in a non-convergence. -/
def missed (s : Solved σ α) : Bool :=
  match s.outcome with
  | .ok () => false
  | .error e => e.isNotConverged

theorem missed_eq_true_iff {s : Solved σ α} :
    s.missed = true ↔ ∃ e, s.outcome = .error e ∧ e.isNotConverged = true := by
  unfold missed
  split <;> simp_all

/-- The solve ended in a failure other than a non-convergence. -/
def aborted (s : Solved σ α) : Bool :=
  match s.outcome with
  | .ok () => false
  | .error e => !e.isNotConverged

theorem aborted_eq_true_iff {s : Solved σ α} :
    s.aborted = true ↔ ∃ e, s.outcome = .error e ∧ e.isNotConverged = false := by
  unfold aborted
  split <;> simp_all

end Solved

namespace Solver

variable {σ : Type} [Solver σ]

variable (σ) in
/-- Every call leaves the chain it is handed with nothing changed but the joint values. -/
def KeepsChain : Prop :=
  ∀ (s : σ) (cancelled : Bool) (arm : Chain) (goal : Pose) (c : Option Constraints),
    arm.Reconfigured (Solver.solve s cancelled arm goal c).arm

/-- The states a solver passes through from `s₀`, over calls on chains. -/
inductive Reachable (s₀ : σ) : σ → Prop
  | start : Reachable s₀ s₀
  | call {s : σ} (cancelled : Bool) (arm : Chain) (goal : Pose) (c : Option Constraints) :
      Reachable s₀ s → Reachable s₀ (Solver.solve s cancelled arm goal c).solver

/-- From `s₀` on, no call cancels a request that is live. -/
def NeverCancels (s₀ : σ) : Prop :=
  ∀ s, Reachable s₀ s → ∀ (arm : Chain) (goal : Pose) (c : Option Constraints),
    (Solver.solve s false arm goal c).cancelled = false

/-- From `s₀` on, the outcome of a call on a live request is a function of the chain, the
goal and the constraints: the same as the outcome of that call made at `s₀`. -/
def Deterministic (s₀ : σ) : Prop :=
  ∀ s, Reachable s₀ s → ∀ (arm : Chain) (goal : Pose) (c : Option Constraints),
    (Solver.solve s false arm goal c).outcome = (Solver.solve s₀ false arm goal c).outcome

/-- From `s₀` on, every call on a live request succeeds or does not converge. -/
def OnlyMisses (s₀ : σ) : Prop :=
  ∀ s, Reachable s₀ s → ∀ (arm : Chain) (goal : Pose) (c : Option Constraints),
    (Solver.solve s false arm goal c).aborted = false

end Solver

/-! ### The test solvers keep the chain -/

theorem ScriptedSolver.keepsChain : Solver.KeepsChain ScriptedSolver := by
  intro s cancelled arm goal c
  show arm.Reconfigured (s.solve cancelled arm).arm
  -- every move reaches the chain through a setting, or leaves it alone
  have hmiss : ∀ (s' : ScriptedSolver) (b : Bool) (f : Failure) (q : Option (List Float)),
      arm.Reconfigured (s'.missWith b arm f q).arm := by
    intro s' b f q
    cases q with
    | none => exact Chain.reconfigured_self arm
    | some q =>
      have h := Chain.reconfigured_arm_setUnchecked arm q
      simp only [ScriptedSolver.missWith]
      split <;> simp_all
  simp only [ScriptedSolver.solve]
  cases s.moves[s.calls]?.getD (.fail none) with
  | converge q => exact Chain.reconfigured_arm_setPositions arm q
  | fail q => exact hmiss _ _ _ q
  | wrappedFail q => exact hmiss _ _ _ q
  | outOfRange => exact Chain.reconfigured_self arm
  | wrongCount => exact Chain.reconfigured_self arm
  | error message => exact Chain.reconfigured_self arm
  | cancel q => exact hmiss _ _ _ q

/-! ### The region solver -/

namespace RegionSolver

variable {α : Type}

/-- The solver after a call: its counts moved on, its region, height and fault kept. -/
def counted (s : RegionSolver) (q : List Float) : RegionSolver :=
  { s with calls := s.calls + 1, dirty := if s.away q then s.dirty + 1 else s.dirty }

/-- What a call gives back besides the solver: the arm, the cancellation and the outcome. -/
def reply [Arm α] (s : RegionSolver) (cancelled : Bool) (arm : α) (goal : Pose) :
    α × Bool × Except Failure Unit :=
  if s.breaks goal then
    match s.fault with
    | .wrongCount => (arm, cancelled, .error (.incorrectDof 0 6))
    | .explode => (arm, cancelled, .error (.plain "engine exploded"))
    | .cancel => (arm, true, .error (.plain "engine stopped"))
  else if s.reaches goal.point then (arm, cancelled, .ok ())
  else
    match Arm.setUnchecked arm ((Arm.limits arm).map fun _ => 9) with
    | (arm, .error e) => (arm, cancelled, .error e)
    | (arm, .ok ()) => (arm, cancelled, .error (.notConverged ⟨1, Vec3.zero, Vec3.zero⟩))

/-- A call counts, then replies from the counted solver. -/
theorem solve_eq_reply [Arm α] (s : RegionSolver) (cancelled : Bool) (arm : α) (goal : Pose) :
    s.solve cancelled arm goal =
      let r := (s.counted (Arm.positions arm)).reply cancelled arm goal
      ⟨s.counted (Arm.positions arm), r.1, r.2.1, r.2.2⟩ := by
  unfold solve reply counted
  generalize ({ s with calls := s.calls + 1,
                       dirty := if s.away (Arm.positions arm) then s.dirty + 1 else s.dirty } :
    RegionSolver) = s'
  dsimp only
  by_cases hb : s'.breaks goal = true
  · rw [if_pos hb, if_pos hb]
    cases s'.fault <;> rfl
  · rw [if_neg hb, if_neg hb]
    by_cases hr : s'.reaches goal.point = true
    · rw [if_pos hr, if_pos hr]
    · rw [if_neg hr, if_neg hr]
      rcases Arm.setUnchecked arm ((Arm.limits arm).map fun _ => 9) with ⟨arm', _ | ⟨⟩⟩ <;> rfl

/-- The states a region solver reaches are its start with other counts. -/
theorem eq_counts_of_reachable {s₀ s : RegionSolver} (h : Solver.Reachable s₀ s) :
    ∃ n m, s = { s₀ with calls := n, dirty := m } := by
  induction h with
  | start => exact ⟨s₀.calls, s₀.dirty, rfl⟩
  | call cancelled arm goal c _ ih =>
    obtain ⟨n, m, rfl⟩ := ih
    have h : (Solver.solve ({ s₀ with calls := n, dirty := m } : RegionSolver) cancelled arm goal
        c).solver = ({ s₀ with calls := n, dirty := m } : RegionSolver).counted arm.positions := by
      show (RegionSolver.solve _ cancelled arm goal).solver = _
      rw [solve_eq_reply]
      rfl
    rw [h]
    exact ⟨_, _, rfl⟩

theorem reconfigured_reply (s : RegionSolver) (cancelled : Bool) (arm : Chain) (goal : Pose) :
    arm.Reconfigured (s.reply cancelled arm goal).1 := by
  unfold reply
  split
  · cases s.fault <;> exact Chain.reconfigured_self arm
  · split
    · exact Chain.reconfigured_self arm
    · -- the arm of a miss is the arm after the unchecked setting
      have h := Chain.reconfigured_arm_setUnchecked arm ((Arm.limits arm).map fun _ => 9)
      split <;> simp_all

/-- Only the cancelling fault cancels. -/
theorem cancelled_reply [Arm α] (s : RegionSolver) (hfault : s.fault ≠ .cancel)
    (cancelled : Bool) (arm : α) (goal : Pose) : (s.reply cancelled arm goal).2.1 = cancelled := by
  unfold reply
  split
  · cases h : s.fault with
    | wrongCount => rfl
    | explode => rfl
    | cancel => exact absurd h hfault
  · split
    · rfl
    · split <;> rfl

/-- Below the breaking height, a chain is reached or missed: the setting of one value per
joint does not fail. -/
theorem aborted_reply (s : RegionSolver) (hz : s.failAtZ = none) (cancelled : Bool)
    (arm : Chain) (goal : Pose) :
    (match (s.reply cancelled arm goal).2.2 with
      | .ok () => false
      | .error e => !e.isNotConverged) = false := by
  have hb : s.breaks goal = false := by simp [breaks, hz]
  have hset : Arm.setUnchecked arm ((Arm.limits arm).map fun _ => 9) =
      ({ arm with positions := (Arm.limits arm).map fun _ => 9 }, .ok ()) :=
    Chain.arm_setUnchecked_of_length (by simp)
  unfold reply
  rw [hb, if_neg Bool.false_ne_true]
  by_cases hr : s.reaches goal.point = true
  · rw [if_pos hr]
  · rw [if_neg hr, hset]
    rfl

theorem keepsChain : Solver.KeepsChain RegionSolver := by
  intro s cancelled arm goal c
  show arm.Reconfigured (s.solve cancelled arm goal).arm
  rw [solve_eq_reply]
  exact reconfigured_reply _ cancelled arm goal

theorem deterministic (s₀ : RegionSolver) : Solver.Deterministic s₀ := by
  intro s hs arm goal c
  obtain ⟨n, m, rfl⟩ := eq_counts_of_reachable hs
  show (RegionSolver.solve _ false arm goal).outcome = (RegionSolver.solve s₀ false arm goal).outcome
  rw [solve_eq_reply, solve_eq_reply]
  rfl

theorem neverCancels (s₀ : RegionSolver) (hfault : s₀.fault ≠ .cancel) :
    Solver.NeverCancels s₀ := by
  intro s hs arm goal c
  obtain ⟨n, m, rfl⟩ := eq_counts_of_reachable hs
  show (RegionSolver.solve _ false arm goal).cancelled = false
  rw [solve_eq_reply]
  exact cancelled_reply s₀ hfault false arm goal

theorem onlyMisses (s₀ : RegionSolver) (hz : s₀.failAtZ = none) : Solver.OnlyMisses s₀ := by
  intro s hs arm goal c
  obtain ⟨n, m, rfl⟩ := eq_counts_of_reachable hs
  show (RegionSolver.solve _ false arm goal : Solved RegionSolver Chain).aborted = false
  rw [solve_eq_reply]
  exact aborted_reply s₀ hz false arm goal

end RegionSolver

/-! ### Causes inside a failure -/

/-- Context in front of a failure does not change whether it is a non-convergence. -/
@[simp] theorem Failure.isNotConverged_wrap (context : String) (e : Failure) :
    (Failure.wrap context e).isNotConverged = e.isNotConverged :=
  rfl

/-- `f.Wraps e`: `e` is `f`, or a cause inside it, behind context or in a part of a join. -/
inductive Failure.Wraps : Failure → Failure → Prop
  | refl (e : Failure) : Failure.Wraps e e
  | wrap {f e : Failure} (context : String) : Failure.Wraps f e → Failure.Wraps (.wrap context f) e
  | left {a e : Failure} (b : Failure) : Failure.Wraps a e → Failure.Wraps (.both a b) e
  | right {b e : Failure} (a : Failure) : Failure.Wraps b e → Failure.Wraps (.both a b) e

end ArmReach
