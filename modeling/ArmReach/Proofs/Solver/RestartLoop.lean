import ArmReach.Solver.Restart
import ArmReach.Proofs.Solver.Contract
/-!
# The restart loop, one try at a time

`RestartSolver.tries` is a loop over tries. Here one try is a function of its own,
`RestartSolver.attempt`, from the loop state before the try (`RestartSolver.Loop`) to either
the end of the solve or the state before the next try, and `tries_succ` shows that the loop is
this step iterated. The calls the loop makes to the inner solver are then the loop states at
which a try gets past the cancellation check: `RestartSolver.calls` lists them, and
`Loop.call` is the call made there (always on a live request).

On a chain handed to a solver that keeps it (`Solver.KeepsChain`), every try is one of five
cases, one lemma each:

* the request is cancelled: the chain is put back and the solve fails with `canceled`;
* the call succeeds: the solve succeeds with the chain the call left;
* the call fails otherwise than by non-convergence: the chain is put back, the failure wrapped
  as `ik try k`;
* the last try does not converge: the chain is put back, the failure returned as it is;
* an earlier try does not converge: the next try starts from the `k`-th draw of the generator,
  moved to the turns nearest the starting configuration, whatever the call did to the chain.

The random draws are `draw limits src k`, the `k`-th draw (from 0) of one value per joint.
-/

namespace ArmReach

/-! ### Draws of joint values -/

/-- The generator after `n` draws of one value per joint. -/
def drawsAfter (limits : List Limit) (src : Random.Source) : Nat → Random.Source
  | 0 => src
  | n + 1 => (randomPositions .double limits (drawsAfter limits src n)).2

/-- The `n`-th draw (from 0) of one value per joint. -/
def draw (limits : List Limit) (src : Random.Source) (n : Nat) : List Float :=
  (randomPositions .double limits (drawsAfter limits src n)).1

private theorem length_foldl_draw (p : Precision) (limits : List Limit)
    (acc : List Float × Random.Source) :
    (limits.foldl (fun (acc : List Float × Random.Source) (l : Limit) =>
      (acc.1 ++ [p.round (if l.continuous then -Elementary.pi + 2 * Elementary.pi * acc.2.float.1
        else l.clamp (l.min + (l.max - l.min) * acc.2.float.1))], acc.2.float.2)) acc).1.length =
      acc.1.length + limits.length := by
  induction limits generalizing acc with
  | nil => simp
  | cons l ls ih => simp only [List.foldl_cons, ih, List.length_append]; simp; omega

/-- A draw holds one value per joint. -/
@[simp] theorem length_randomPositions (p : Precision) (limits : List Limit)
    (src : Random.Source) : (randomPositions p limits src).1.length = limits.length := by
  simpa [randomPositions] using length_foldl_draw p limits ([], src)

/-- With one reference value and one candidate per joint, the nearest turns are found. -/
theorem nearestAngles_of_length {p : Precision} {reference candidate : List Float}
    {limits : List Limit} (hr : reference.length = limits.length)
    (hc : candidate.length = limits.length) :
    nearestAngles p reference candidate limits =
      .ok ((candidate.zip (reference.zip limits)).map fun (c, r, l) =>
        if l.continuous then nearestCongruent p r c else c) := by
  simp [nearestAngles, hr, hc]

theorem length_nearestAngles {p : Precision} {reference candidate q : List Float}
    {limits : List Limit} (h : nearestAngles p reference candidate limits = .ok q) :
    q.length = limits.length := by
  unfold nearestAngles at h
  split at h
  · cases h
  · rename_i hlen
    cases h
    simp only [not_or, ne_eq, Decidable.not_not] at hlen
    simp [hlen.1, hlen.2]

namespace RestartSolver

variable {σ α : Type}

/-! ### The loop as a step function -/

/-- The state of the restart loop before a try: the restart solver (holding the inner
solver's state), whether the request is cancelled, the arm, and the generator once made. -/
structure Loop (σ α : Type) where
  solver : RestartSolver σ
  cancelled : Bool
  arm : α
  source : Option Random.Source

/-- The call a try makes from the loop state `st`: the inner solver on the arm, the request
live. -/
def Loop.call [Solver σ] [Arm α] (goal : Pose) (c : Option Constraints) (st : Loop σ α) :
    Solved σ α :=
  Solver.solve st.solver.inner false st.arm goal c

/-- Try number `k + 1`, with `left` tries after it: the end of the solve, or the loop state
before the next try. This is the body of `tries`. -/
def attempt [Solver σ] [Arm α] (goal : Pose) (c : Option Constraints) (initial : List Float)
    (limits : List Limit) (left k : Nat) (st : Loop σ α) :
    Solved (RestartSolver σ) α ⊕ Loop σ α :=
  let r := st.solver
  if st.cancelled then .inl (giveUp r st.cancelled st.arm initial .canceled) else
  let r := r.note "solving ik"
    [("try", .count (k + 1)), ("of", .count r.maxTries), ("joints", .numbers (Arm.positions st.arm))]
  let s := Solver.solve r.inner st.cancelled st.arm goal c
  let r := { r with inner := s.solver }
  match s.outcome with
  | .ok () =>
    let r := r.note "solved ik" [("try", .count (k + 1)), ("joints", .numbers (Arm.positions s.arm))]
    .inl ⟨r, s.arm, s.cancelled, .ok ()⟩
  | .error e =>
    if !e.isNotConverged then
      .inl (giveUp r s.cancelled s.arm initial (.wrap s!"ik try {k + 1}" e))
    else
    let r := r.note "ik did not converge" [("try", .count (k + 1)), ("error", .failure e)]
    if left = 0 then
      let r := r.note "failed to solve ik, restoring initial joints"
        [("tries", .count r.maxTries), ("joints", .numbers initial)]
      .inl (giveUp r s.cancelled s.arm initial e)
    else
      let (next, source) := randomPositions .double limits (st.source.getD (sourceFor r.seed goal))
      match nearestAngles .double initial next limits with
      | .error f => .inl (giveUp r s.cancelled s.arm initial f)
      | .ok next =>
        match Arm.setUnchecked s.arm next with
        | (arm, .error f) => .inl (giveUp r s.cancelled arm initial f)
        | (arm, .ok ()) => .inr ⟨r, s.cancelled, arm, some source⟩

/-- **The loop is the step iterated.** -/
theorem tries_succ [Solver σ] [Arm α] (goal : Pose) (c : Option Constraints)
    (initial : List Float) (limits : List Limit) (left k : Nat) (r : RestartSolver σ)
    (cancelled : Bool) (arm : α) (source : Option Random.Source) :
    tries goal c initial limits (left + 1) k r cancelled arm source =
      (attempt goal c initial limits left k ⟨r, cancelled, arm, source⟩).elim id
        fun st => tries goal c initial limits left (k + 1) st.solver st.cancelled st.arm
          st.source := by
  simp only [tries, attempt]
  cases cancelled
  case true => rfl
  case false =>
    simp only [Bool.false_eq_true, if_false]
    -- both sides now match on the same call, then on the same draw and restart
    generalize (Solver.solve (r.note _ _).inner false arm goal c : Solved σ α) = s
    rcases s with ⟨inner, arm', cancelled', _ | _⟩
    case ok => rfl
    case error e =>
      simp only
      cases e.isNotConverged
      case false => rfl
      case true =>
        simp only [Bool.not_true, Bool.false_eq_true, if_false]
        by_cases hleft : left = 0
        · simp only [hleft, if_true]; rfl
        · simp only [hleft, if_false]
          generalize randomPositions _ _ _ = d
          obtain ⟨next, src⟩ := d
          simp only
          generalize nearestAngles .double initial next limits = n
          rcases n with f | next
          · rfl
          · simp only
            generalize Arm.setUnchecked arm' next = u
            rcases u with ⟨a2, _ | _⟩ <;> rfl

/-- The loop states from try `k + 1` on, `left` tries at most, at which the inner solver is
called: every try that gets past the cancellation check. -/
def callsFrom [Solver σ] [Arm α] (goal : Pose) (c : Option Constraints) (initial : List Float)
    (limits : List Limit) : (left k : Nat) → Loop σ α → List (Loop σ α)
  | 0, _, _ => []
  | left + 1, k, st =>
    if st.cancelled then [] else
    st :: (attempt goal c initial limits left k st).elim (fun _ => [])
      (callsFrom goal c initial limits left (k + 1))

theorem callsFrom_of_cancelled [Solver σ] [Arm α] (goal : Pose) (c : Option Constraints)
    (initial : List Float) (limits : List Limit) {st : Loop σ α} (h : st.cancelled = true)
    (left k : Nat) : callsFrom goal c initial limits (left + 1) k st = [] := by
  simp [callsFrom, h]

theorem callsFrom_of_live [Solver σ] [Arm α] (goal : Pose) (c : Option Constraints)
    (initial : List Float) (limits : List Limit) {st : Loop σ α} (h : st.cancelled = false)
    (left k : Nat) :
    callsFrom goal c initial limits (left + 1) k st =
      st :: (attempt goal c initial limits left k st).elim (fun _ => [])
        (callsFrom goal c initial limits left (k + 1)) := by
  simp [callsFrom, h]

/-- The first call of a run is made at the state the run starts from. -/
theorem getElem_zero_callsFrom [Solver σ] [Arm α] (goal : Pose) (c : Option Constraints)
    (initial : List Float) (limits : List Limit) {left k : Nat} {st : Loop σ α}
    (h : 0 < (callsFrom goal c initial limits left k st).length) :
    (callsFrom goal c initial limits left k st)[0] = st := by
  cases left with
  | zero => simp [callsFrom] at h
  | succ left =>
    cases hc : st.cancelled
    · simp only [callsFrom_of_live goal c initial limits hc, List.getElem_cons_zero]
    · simp [callsFrom_of_cancelled goal c initial limits hc] at h

/-- No more calls than tries. -/
theorem length_callsFrom_le [Solver σ] [Arm α] (goal : Pose) (c : Option Constraints)
    (initial : List Float) (limits : List Limit) :
    ∀ (left k : Nat) (st : Loop σ α), (callsFrom goal c initial limits left k st).length ≤ left
  | 0, _, _ => by simp [callsFrom]
  | left + 1, k, st => by
    cases h : st.cancelled
    · rw [callsFrom_of_live goal c initial limits h]
      cases attempt goal c initial limits left k st with
      | inl _ => simp
      | inr st' =>
        have := length_callsFrom_le goal c initial limits left (k + 1) st'
        simp only [Sum.elim_inr, List.length_cons]
        omega
    · simp [callsFrom_of_cancelled goal c initial limits h]

/-- The loop state before the first try of a solve. -/
def begin [Arm α] (r : RestartSolver σ) (cancelled : Bool) (arm : α) (goal : Pose) :
    Loop σ α :=
  ⟨r.note "random restart ik" [("arm", .text (Arm.name arm)), ("goal", .text goal.render)],
    cancelled, arm, none⟩

/-- The calls a solve makes to the inner solver, in order. -/
def calls [Solver σ] [Arm α] (r : RestartSolver σ) (cancelled : Bool) (arm : α) (goal : Pose)
    (c : Option Constraints) : List (Loop σ α) :=
  callsFrom goal c (Arm.positions arm) (Arm.limits arm) r.maxTries 0 (r.begin cancelled arm goal)

theorem solve_eq [Solver σ] [Arm α] (r : RestartSolver σ) (cancelled : Bool) (arm : α)
    (goal : Pose) (c : Option Constraints) :
    r.solve cancelled arm goal c =
      tries goal c (Arm.positions arm) (Arm.limits arm) r.maxTries 0
        (r.begin cancelled arm goal).solver cancelled arm none := rfl

@[simp] theorem note_inner (r : RestartSolver σ) (m : String) (fs : List (String × Logging.Value)) :
    (r.note m fs).inner = r.inner := rfl

@[simp] theorem note_seed (r : RestartSolver σ) (m : String) (fs : List (String × Logging.Value)) :
    (r.note m fs).seed = r.seed := rfl

@[simp] theorem note_maxTries (r : RestartSolver σ) (m : String)
    (fs : List (String × Logging.Value)) : (r.note m fs).maxTries = r.maxTries := rfl

/-! ### One try on a chain -/

section Chain

variable {arm₀ : Chain}

/-- Giving up on a reconfiguration of `arm₀` puts `arm₀` back, bit for bit, and fails with the
cause alone. -/
theorem giveUp_restores (harm : arm₀.positions.length = arm₀.joints.length)
    (r : RestartSolver σ) (cancelled : Bool) {arm : Chain} (h : arm₀.Reconfigured arm)
    (cause : Failure) :
    giveUp r cancelled arm arm₀.positions cause = ⟨r, arm₀, cancelled, .error cause⟩ := by
  have hlen : arm₀.positions.length = arm.joints.length := by rw [h.joints_eq]; exact harm
  simp only [giveUp, restore, Chain.arm_setUnchecked_of_length hlen, h.restore]

variable [Solver σ] (goal : Pose) (c : Option Constraints)
variable (harm : arm₀.positions.length = arm₀.joints.length) {st : Loop σ Chain}
  (hst : arm₀.Reconfigured st.arm) (left k : Nat)
include harm hst

theorem attempt_of_cancelled (h : st.cancelled = true) :
    attempt goal c arm₀.positions arm₀.limits left k st =
      .inl ⟨st.solver, arm₀, true, .error .canceled⟩ := by
  simp only [attempt, h, if_true, giveUp_restores harm _ _ hst]

omit harm hst in
theorem attempt_of_succeeded (h : st.cancelled = false)
    (ho : (st.call goal c).outcome = .ok ()) :
    ∃ r, r.inner = (st.call goal c).solver ∧
      attempt goal c arm₀.positions arm₀.limits left k st =
        .inl ⟨r, (st.call goal c).arm, (st.call goal c).cancelled, .ok ()⟩ := by
  simp only [Loop.call] at ho ⊢
  simp only [attempt, h, Bool.false_eq_true, if_false, note_inner, ho]
  exact ⟨_, rfl, rfl⟩

theorem attempt_of_aborted (hkeep : Solver.KeepsChain σ) {e : Failure} (h : st.cancelled = false)
    (ho : (st.call goal c).outcome = .error e) (he : e.isNotConverged = false) :
    ∃ r, r.inner = (st.call goal c).solver ∧
      attempt goal c arm₀.positions arm₀.limits left k st =
        .inl ⟨r, arm₀, (st.call goal c).cancelled, .error (.wrap s!"ik try {k + 1}" e)⟩ := by
  have hkept : arm₀.Reconfigured (st.call goal c).arm := hst.trans (hkeep _ _ _ _ _)
  simp only [Loop.call] at ho hkept ⊢
  simp only [attempt, h, Bool.false_eq_true, if_false, note_inner, ho, he, Bool.not_false,
    if_true, giveUp_restores harm _ _ hkept]
  exact ⟨_, rfl, rfl⟩

theorem attempt_of_missed_last (hkeep : Solver.KeepsChain σ) {e : Failure}
    (h : st.cancelled = false) (ho : (st.call goal c).outcome = .error e)
    (he : e.isNotConverged = true) :
    ∃ r, r.inner = (st.call goal c).solver ∧
      attempt goal c arm₀.positions arm₀.limits 0 k st =
        .inl ⟨r, arm₀, (st.call goal c).cancelled, .error e⟩ := by
  have hkept : arm₀.Reconfigured (st.call goal c).arm := hst.trans (hkeep _ _ _ _ _)
  simp only [Loop.call] at ho hkept ⊢
  simp only [attempt, h, Bool.false_eq_true, if_false, note_inner, ho, he, Bool.not_true,
    if_true, giveUp_restores harm _ _ hkept]
  exact ⟨_, rfl, rfl⟩

/-- **A restart.** After a non-convergence with tries left, the next try starts from the next
draw of the generator (made now if it was not yet), moved to the turns nearest the starting
configuration: whatever the call did to the chain, only its values change. -/
theorem attempt_of_missed (hkeep : Solver.KeepsChain σ) {e : Failure}
    (h : st.cancelled = false) (ho : (st.call goal c).outcome = .error e)
    (he : e.isNotConverged = true) (next : List Float) (source : Random.Source)
    (hdraw : randomPositions .double arm₀.limits
      (st.source.getD (sourceFor st.solver.seed goal)) = (next, source)) :
    ∃ r q, r.inner = (st.call goal c).solver ∧ r.seed = st.solver.seed ∧
      nearestAngles .double arm₀.positions next arm₀.limits = .ok q ∧
      attempt goal c arm₀.positions arm₀.limits (left + 1) k st =
        .inr ⟨r, (st.call goal c).cancelled, { arm₀ with positions := q }, some source⟩ := by
  have hkept : arm₀.Reconfigured (st.call goal c).arm := hst.trans (hkeep _ _ _ _ _)
  have hnext : next.length = arm₀.limits.length := by
    have := length_randomPositions .double arm₀.limits
      (st.source.getD (sourceFor st.solver.seed goal))
    rwa [hdraw] at this
  have hnear := nearestAngles_of_length (p := .double) (by simpa using harm) hnext
  generalize List.map _ _ = q at hnear
  have hlen : q.length = ((st.call goal c).arm).joints.length := by
    rw [length_nearestAngles hnear, hkept.joints_eq, Chain.length_limits]
  simp only [Loop.call] at ho hkept hlen ⊢
  simp only [attempt, h, Bool.false_eq_true, if_false, note_inner, note_seed, ho, he,
    Bool.not_true, Nat.add_one_ne_zero, hdraw, hnear, Chain.arm_setUnchecked_of_length hlen]
  rw [hkept]
  refine ⟨_, q, ?_, ?_, rfl, rfl⟩ <;> rfl

/-- **Every try on a chain**, in one statement: cancelled, succeeded, aborted, out of tries, or
restarted from the next draw. -/
theorem attempt_cases (hkeep : Solver.KeepsChain σ) :
    let o := st.call goal c
    let drawn := randomPositions .double arm₀.limits
      (st.source.getD (sourceFor st.solver.seed goal))
    let step := attempt goal c arm₀.positions arm₀.limits left k st
    (st.cancelled = true ∧ step = .inl ⟨st.solver, arm₀, true, .error .canceled⟩) ∨
    (st.cancelled = false ∧ ∃ r, r.inner = o.solver ∧
      ((o.outcome = .ok () ∧ step = .inl ⟨r, o.arm, o.cancelled, .ok ()⟩) ∨
      (∃ e, o.outcome = .error e ∧ e.isNotConverged = false ∧
        step = .inl ⟨r, arm₀, o.cancelled, .error (.wrap s!"ik try {k + 1}" e)⟩) ∨
      (∃ e, o.outcome = .error e ∧ e.isNotConverged = true ∧ left = 0 ∧
        step = .inl ⟨r, arm₀, o.cancelled, .error e⟩) ∨
      (∃ e q, o.outcome = .error e ∧ e.isNotConverged = true ∧ 0 < left ∧
        r.seed = st.solver.seed ∧
        nearestAngles .double arm₀.positions drawn.1 arm₀.limits = .ok q ∧
        step = .inr ⟨r, o.cancelled, { arm₀ with positions := q }, some drawn.2⟩))) := by
  intro o drawn step
  cases hc : st.cancelled
  case true => exact .inl ⟨rfl, attempt_of_cancelled goal c harm hst left k hc⟩
  case false =>
  refine .inr ⟨rfl, ?_⟩
  cases ho : o.outcome with
  | ok u =>
    obtain ⟨r, hr, h⟩ := attempt_of_succeeded goal c left k hc ho
    exact ⟨r, hr, .inl ⟨rfl, h⟩⟩
  | error e =>
    cases he : e.isNotConverged
    case false =>
      obtain ⟨r, hr, h⟩ := attempt_of_aborted goal c harm hst left k hkeep hc ho he
      exact ⟨r, hr, .inr (.inl ⟨e, rfl, he, h⟩)⟩
    case true =>
      cases left with
      | zero =>
        obtain ⟨r, hr, h⟩ := attempt_of_missed_last goal c harm hst k hkeep hc ho he
        exact ⟨r, hr, .inr (.inr (.inl ⟨e, rfl, he, rfl, h⟩))⟩
      | succ left =>
        obtain ⟨r, q, hr, hseed, hq, h⟩ :=
          attempt_of_missed goal c harm hst left k hkeep hc ho he drawn.1 drawn.2 rfl
        exact ⟨r, hr, .inr (.inr (.inr ⟨e, q, rfl, he, Nat.succ_pos _, hseed, hq, h⟩))⟩

end Chain

end RestartSolver

end ArmReach
