import ArmReach.Proofs.Solver.RestartLoop
/-!
# Restarts: the two states a solve leaves, and the protocol of its tries

A restart solve of a chain `arm₀`, with a solver that keeps the chain (`Solver.KeepsChain`),
is described by the calls it makes (`RestartSolver.calls`) and by how it ends:

* `RunEnds`: the solve either stops at the cancellation check before its first call, or ends
  after its last call as `EndsAfter` says. There are no other exits: a failed restart cannot
  happen on a chain, since every configuration drawn has one value per joint.
* `AtTry`: the loop state of try `k` holds `arm₀` for the first try and, for later tries, the
  `(k - 1)`-th draw of the generator of the goal moved to the turns nearest the starting
  configuration, whatever the calls before did to the chain.

The main statements are `solve_leaves_goal_or_start` (the chain after a solve is the one the
last call left, if the solve succeeded, and `arm₀` bit for bit otherwise) and
`solve_follows_attempt_protocol` (how many calls are made, from which configurations, and
what the solve returns).
-/

namespace ArmReach

namespace RestartSolver

variable {σ : Type}

/-! ### How a solve ends -/

/-- How a solve of `arm₀` ends after its last call `o`, try `n` of at most `tries`: with the
chain and the solver state the call left if it succeeded; otherwise with `arm₀` put back and
the failure of the call wrapped as `ik try n`, or returned as it is when it is a
non-convergence and the tries are used up, or `canceled` when it is a non-convergence that
cancelled the request with tries left. -/
def EndsAfter (arm₀ : Chain) (o : Solved σ Chain) (n tries : Nat)
    (s : Solved (RestartSolver σ) Chain) : Prop :=
  match o.outcome with
  | .ok () => s.arm = o.arm ∧ s.outcome = .ok () ∧ s.solver.inner = o.solver
  | .error e =>
    s.arm = arm₀ ∧
      if e.isNotConverged then
        (n = tries ∧ s.outcome = .error e) ∨
          (n < tries ∧ o.cancelled = true ∧ s.outcome = .error .canceled)
      else s.outcome = .error (.wrap s!"ik try {n}" e)

section EndsAfter

variable {arm₀ : Chain} {o : Solved σ Chain} {n tries : Nat}
  {s : Solved (RestartSolver σ) Chain}

theorem EndsAfter.outcome_ok_iff (h : EndsAfter arm₀ o n tries s) :
    s.outcome = .ok () ↔ o.outcome = .ok () := by
  unfold EndsAfter at h
  split at h
  · rename_i ho; exact ⟨fun _ => ho, fun _ => h.2.1⟩
  · obtain ⟨-, hout⟩ := h
    refine ⟨fun hs => ?_, fun ho => by simp_all⟩
    split at hout
    · rcases hout with ⟨-, hout⟩ | ⟨-, -, hout⟩ <;> simp [hout] at hs
    · simp [hout] at hs

theorem EndsAfter.arm_of_ok (h : EndsAfter arm₀ o n tries s) (ho : o.outcome = .ok ()) :
    s.arm = o.arm := by
  simp only [EndsAfter, ho] at h
  exact h.1

theorem EndsAfter.arm_of_error {e : Failure} (h : EndsAfter arm₀ o n tries s)
    (ho : o.outcome = .error e) : s.arm = arm₀ := by
  simp only [EndsAfter, ho] at h
  exact h.1

/-- A last non-convergence on a live request comes at the last try and is returned as it
is. -/
theorem EndsAfter.of_missed {e : Failure} (h : EndsAfter arm₀ o n tries s)
    (ho : o.outcome = .error e) (he : e.isNotConverged = true) (hlive : o.cancelled = false) :
    n = tries ∧ s.outcome = .error e := by
  simp only [EndsAfter, ho, he, if_true] at h
  rcases h.2 with hend | ⟨-, hcancel, -⟩
  · exact hend
  · rw [hlive] at hcancel; cases hcancel

/-- A last non-convergence that cancelled the request before the last try makes the solve
fail with `canceled`. -/
theorem EndsAfter.of_cancelled {e : Failure} (h : EndsAfter arm₀ o n tries s)
    (ho : o.outcome = .error e) (he : e.isNotConverged = true) (hn : n < tries) :
    s.outcome = .error .canceled := by
  simp only [EndsAfter, ho, he, if_true] at h
  rcases h.2 with ⟨hend, -⟩ | ⟨-, -, hout⟩
  · omega
  · exact hout

/-- Any other last failure is returned wrapped as `ik try n`. -/
theorem EndsAfter.of_aborted {e : Failure} (h : EndsAfter arm₀ o n tries s)
    (ho : o.outcome = .error e) (he : e.isNotConverged = false) :
    s.outcome = .error (.wrap s!"ik try {n}" e) := by
  simp only [EndsAfter, ho, he] at h
  exact h.2

end EndsAfter

variable [Solver σ]

/-- How the run of the restart loop from `st`, at try `k + 1` of at most `tries`, ends after
the calls `cs`: cancelled before any call, with `arm₀` put back, or as `EndsAfter` says of the
last call. -/
def RunEnds (arm₀ : Chain) (goal : Pose) (c : Option Constraints) (st : Loop σ Chain)
    (k tries : Nat) (cs : List (Loop σ Chain)) (s : Solved (RestartSolver σ) Chain) : Prop :=
  (cs = [] ∧ st.cancelled = true ∧ s.arm = arm₀ ∧ s.outcome = .error .canceled) ∨
    ∃ last, cs.getLast? = some last ∧
      EndsAfter arm₀ (last.call goal c) (k + cs.length) tries s


/-- The loop state of try `k` (from 0) of a solve of `arm₀` toward `goal` with the given seed:
`arm₀` itself and no generator yet for the first try; for try `k + 1`, `arm₀` holding the
`k`-th draw of the goal's generator moved to the nearest turns, and the generator drawn
`k + 1` times. -/
def AtTry (arm₀ : Chain) (goal : Pose) (seed : Int) : Nat → Loop σ Chain → Prop
  | 0, st => st.arm = arm₀ ∧ st.source = none ∧ st.solver.seed = seed
  | k + 1, st =>
    nearestAngles .double arm₀.positions (draw arm₀.limits (sourceFor seed goal) k)
        arm₀.limits = .ok st.arm.positions ∧
      arm₀.Reconfigured st.arm ∧
      st.source = some (drawsAfter arm₀.limits (sourceFor seed goal) (k + 1)) ∧
      st.solver.seed = seed

/-- What the calls `cs` of a run from try `k` look like: each at the loop state of its try and
on a live request, and each but the last a non-convergence that left the request live and
handed its solver state to the next call. -/
def TraceFrom (arm₀ : Chain) (goal : Pose) (c : Option Constraints) (seed : Int) (k : Nat)
    (cs : List (Loop σ Chain)) : Prop :=
  ∀ j (h : j < cs.length),
    AtTry arm₀ goal seed (j + k) cs[j] ∧ cs[j].cancelled = false ∧
      ∀ h' : j + 1 < cs.length,
        (cs[j].call goal c).missed = true ∧ (cs[j].call goal c).cancelled = false ∧
          cs[j + 1].solver.inner = (cs[j].call goal c).solver

section Run

variable (goal : Pose) (c : Option Constraints) {arm₀ : Chain}

omit [Solver σ] in
theorem AtTry.reconfigured {seed : Int} {st : Loop σ Chain} :
    ∀ {k : Nat}, AtTry arm₀ goal seed k st → arm₀.Reconfigured st.arm
  | 0, h => by rw [h.1]; exact Chain.reconfigured_self _
  | _ + 1, h => h.2.1

omit [Solver σ] in
/-- The generator a restart at try `k` draws from. -/
theorem AtTry.source_getD {seed : Int} {st : Loop σ Chain} :
    ∀ {k : Nat}, AtTry arm₀ goal seed k st →
      st.source.getD (sourceFor st.solver.seed goal) =
        drawsAfter arm₀.limits (sourceFor seed goal) k
  | 0, h => by rw [h.2.1, h.2.2]; rfl
  | _ + 1, h => by rw [h.2.2.1]; rfl

omit [Solver σ] in
theorem AtTry.seed {seed : Int} {st : Loop σ Chain} :
    ∀ {k : Nat}, AtTry arm₀ goal seed k st → st.solver.seed = seed
  | 0, h => h.2.2
  | _ + 1, h => h.2.2.2

variable (hkeep : Solver.KeepsChain σ) (harm : arm₀.positions.length = arm₀.joints.length)
include hkeep harm

/-- A try that ends the solve ends it as `RunEnds` says, with at most this one call. -/
theorem ends_of_attempt_inl {st : Loop σ Chain} (hst : arm₀.Reconfigured st.arm)
    {left k : Nat} {s : Solved (RestartSolver σ) Chain}
    (h : attempt goal c arm₀.positions arm₀.limits left k st = .inl s) :
    (st.cancelled = true ∧ s.arm = arm₀ ∧ s.outcome = .error .canceled) ∨
      (st.cancelled = false ∧ EndsAfter arm₀ (st.call goal c) (k + 1) (k + left + 1) s) := by
  rcases attempt_cases goal c harm hst left k hkeep with
    ⟨hc, hstep⟩ | ⟨hc, r, hr, ⟨ho, hstep⟩ | ⟨e, ho, he, hstep⟩ | ⟨e, ho, he, hleft, hstep⟩ |
      ⟨e, q, -, -, -, -, -, hstep⟩⟩
  · rw [hstep] at h; cases h
    exact .inl ⟨hc, rfl, rfl⟩
  · rw [hstep] at h; cases h
    refine .inr ⟨hc, ?_⟩
    simp [EndsAfter, ho, hr]
  · rw [hstep] at h; cases h
    refine .inr ⟨hc, ?_⟩
    simp [EndsAfter, ho, he]
  · rw [hstep] at h; cases h
    refine .inr ⟨hc, ?_⟩
    simp [EndsAfter, ho, he, hleft]
  · rw [hstep] at h; cases h

/-- A try that goes on made a call that did not converge, with tries left; the next try gets
the solver state and the cancellation the call left, and a chain reconfigured to the next
draw moved to the nearest turns. -/
theorem restart_of_attempt_inr {st st' : Loop σ Chain} (hst : arm₀.Reconfigured st.arm)
    {left k : Nat} (h : attempt goal c arm₀.positions arm₀.limits left k st = .inr st') :
    let drawn := randomPositions .double arm₀.limits
      (st.source.getD (sourceFor st.solver.seed goal))
    st.cancelled = false ∧ (st.call goal c).missed = true ∧ 0 < left ∧
      st'.cancelled = (st.call goal c).cancelled ∧
      st'.solver.inner = (st.call goal c).solver ∧ st'.solver.seed = st.solver.seed ∧
      arm₀.Reconfigured st'.arm ∧
      nearestAngles .double arm₀.positions drawn.1 arm₀.limits = .ok st'.arm.positions ∧
      st'.source = some drawn.2 := by
  rcases attempt_cases goal c harm hst left k hkeep with
    ⟨-, hstep⟩ | ⟨hc, r, hr, ⟨-, hstep⟩ | ⟨e, -, -, hstep⟩ | ⟨e, -, -, -, hstep⟩ |
      ⟨e, q, ho, he, hleft, hseed, hq, hstep⟩⟩
  · rw [hstep] at h; cases h
  · rw [hstep] at h; cases h
  · rw [hstep] at h; cases h
  · rw [hstep] at h; cases h
  · rw [hstep] at h; cases h
    have hmissed : (st.call goal c).missed = true := by simp [Solved.missed, ho, he]
    exact ⟨hc, hmissed, hleft, rfl, hr, hseed, Chain.reconfigured_with _ _, hq, rfl⟩

/-- A try that ends the solve is where the run ends. -/
theorem runEnds_of_inl {st : Loop σ Chain} (hst : arm₀.Reconfigured st.arm) {left k : Nat}
    {s : Solved (RestartSolver σ) Chain}
    (h : attempt goal c arm₀.positions arm₀.limits left k st = .inl s) :
    RunEnds arm₀ goal c st k (k + left + 1)
      (callsFrom goal c arm₀.positions arm₀.limits (left + 1) k st) s := by
  rcases ends_of_attempt_inl goal c hkeep harm hst h with ⟨hc, harm', hout⟩ | ⟨hc, hends⟩
  · exact .inl ⟨callsFrom_of_cancelled _ _ _ _ hc _ _, hc, harm', hout⟩
  · refine .inr ⟨st, ?_, ?_⟩
    · rw [callsFrom_of_live _ _ _ _ hc, h]; rfl
    · rw [callsFrom_of_live _ _ _ _ hc, h]; simpa using hends

/-- **How every run ends.** By induction on the tries left: a try that ends the solve is one of
the endings of `ends_of_attempt_inl`, and a try that goes on hands a reconfigured chain to the
rest of the run. -/
theorem run_ends :
    ∀ (left k : Nat) (st : Loop σ Chain), arm₀.Reconfigured st.arm →
      RunEnds arm₀ goal c st k (k + left + 1)
        (callsFrom goal c arm₀.positions arm₀.limits (left + 1) k st)
        (tries goal c arm₀.positions arm₀.limits (left + 1) k st.solver st.cancelled st.arm
          st.source) := by
  intro left
  induction left with
  | zero =>
    intro k st hst
    rw [tries_succ]
    cases h : attempt goal c arm₀.positions arm₀.limits 0 k st with
    | inl s => exact runEnds_of_inl goal c hkeep harm hst h
    | inr st' => exact absurd (restart_of_attempt_inr goal c hkeep harm hst h).2.2.1 (by decide)
  | succ left ih =>
    intro k st hst
    rw [tries_succ]
    cases h : attempt goal c arm₀.positions arm₀.limits (left + 1) k st with
    | inl s => exact runEnds_of_inl goal c hkeep harm hst h
    | inr st' =>
      obtain ⟨hc, hmissed, -, hc', -, -, hst', -⟩ :=
        restart_of_attempt_inr goal c hkeep harm hst h
      obtain ⟨e, ho, he⟩ := Solved.missed_eq_true_iff.mp hmissed
      have hcalls := callsFrom_of_live goal c arm₀.positions arm₀.limits hc (left + 1) k
      rw [h, Sum.elim_inr] at hcalls
      simp only [Sum.elim_inr]
      rw [hcalls]
      rcases ih (k + 1) st' hst' with ⟨hnil, hcancel, harm', hout⟩ | ⟨last, hlast, hends⟩
      · -- the next try finds the request cancelled: this call was the last one
        refine .inr ⟨st, by rw [hnil]; rfl, ?_⟩
        rw [hnil]
        simp only [EndsAfter, ho, he, if_true]
        refine ⟨harm', .inr ⟨by simp only [List.length_singleton]; omega, hc' ▸ hcancel, hout⟩⟩
      · have hne : callsFrom goal c arm₀.positions arm₀.limits (left + 1) (k + 1) st' ≠ [] := by
          intro hnil; rw [hnil] at hlast; cases hlast
        refine .inr ⟨last, by rw [List.getLast?_cons, hlast]; rfl, ?_⟩
        simp only [List.length_cons]
        have hn : k + ((callsFrom goal c arm₀.positions arm₀.limits (left + 1) (k + 1) st').length
            + 1) = k + 1 + (callsFrom goal c arm₀.positions arm₀.limits (left + 1) (k + 1)
              st').length := by omega
        rw [hn, show k + (left + 1) + 1 = k + 1 + left + 1 by omega]
        exact hends

/-- A restart from the state of try `k` leads to the state of try `k + 1`. -/
theorem AtTry.next {seed : Int} {st st' : Loop σ Chain} {left k : Nat}
    (hat : AtTry arm₀ goal seed k st)
    (h : attempt goal c arm₀.positions arm₀.limits left k st = .inr st') :
    AtTry arm₀ goal seed (k + 1) st' := by
  obtain ⟨-, -, -, -, -, hseed, hre, hq, hsrc⟩ :=
    restart_of_attempt_inr goal c hkeep harm hat.reconfigured h
  rw [hat.source_getD] at hq hsrc
  exact ⟨hq, hre, hsrc, hseed.trans hat.seed⟩

/-- **The calls of every run.** By induction on the tries left, each restart leading from the
state of one try to the state of the next (`AtTry.next`). -/
theorem run_trace {seed : Int} :
    ∀ (left k : Nat) (st : Loop σ Chain), AtTry arm₀ goal seed k st →
      TraceFrom arm₀ goal c seed k (callsFrom goal c arm₀.positions arm₀.limits left k st)
  | 0, _, _, _ => by simp [TraceFrom, callsFrom]
  | left + 1, k, st, hat => by
    cases hc : st.cancelled
    case true => simp [TraceFrom, callsFrom_of_cancelled goal c _ _ hc]
    case false =>
    rw [callsFrom_of_live goal c _ _ hc]
    cases h : attempt goal c arm₀.positions arm₀.limits left k st with
    | inl s =>
      intro j hj
      simp only [Sum.elim_inl, List.length_singleton, Nat.lt_one_iff] at hj
      subst hj
      exact ⟨by simpa using hat, hc, fun h' => by simp at h'⟩
    | inr st' =>
      obtain ⟨-, hmissed, -, hc', hinner, -⟩ :=
        restart_of_attempt_inr goal c hkeep harm hat.reconfigured h
      have ih := run_trace left (k + 1) st' (hat.next goal c hkeep harm h)
      simp only [Sum.elim_inr]
      intro j hj
      cases j with
      | zero =>
        refine ⟨by simpa using hat, hc, fun h' => ?_⟩
        have h0 : 0 < (callsFrom goal c arm₀.positions arm₀.limits left (k + 1) st').length := by
          simpa using h'
        have hhead := getElem_zero_callsFrom goal c arm₀.positions arm₀.limits h0
        have hlive := (ih 0 h0).2.1
        rw [hhead, hc'] at hlive
        exact ⟨hmissed, hlive, by simp [hhead, hinner]⟩
      | succ j =>
        have hj' : j < (callsFrom goal c arm₀.positions arm₀.limits left (k + 1) st').length := by
          simpa using hj
        obtain ⟨hat', hlive, hnext⟩ := ih j hj'
        refine ⟨by rw [show j + 1 + k = j + (k + 1) by omega]; simpa using hat', by simpa using hlive,
          fun h' => by simpa using hnext (by simpa using h')⟩

end Run

/-! ### A whole solve -/

section Solve

variable (hkeep : Solver.KeepsChain σ) (r : RestartSolver σ) (cancelled : Bool) {arm : Chain}
  (goal : Pose) (c : Option Constraints) (harm : arm.positions.length = arm.joints.length)
include hkeep harm

/-- A solve with at least one try is a run of the loop from `begin`. -/
theorem solve_runEnds (htries : 1 ≤ r.maxTries) :
    RunEnds arm goal c (r.begin cancelled arm goal) 0 r.maxTries (r.calls cancelled arm goal c)
      (r.solve cancelled arm goal c) := by
  obtain ⟨m, hm⟩ : ∃ m, r.maxTries = m + 1 := ⟨r.maxTries - 1, by omega⟩
  have h := run_ends goal c hkeep harm m 0 (r.begin cancelled arm goal)
    (Chain.reconfigured_self _)
  rw [Nat.zero_add, ← hm] at h
  exact h

theorem calls_trace :
    TraceFrom arm goal c r.seed 0 (r.calls cancelled arm goal c) :=
  run_trace goal c hkeep harm r.maxTries 0 (r.begin cancelled arm goal) ⟨rfl, rfl, rfl⟩

/-- Every call is made at a state the inner solver reaches from its state before the solve. -/
theorem reachable_of_mem_calls {st : Loop σ Chain} (hst : st ∈ r.calls cancelled arm goal c) :
    Solver.Reachable r.inner st.solver.inner := by
  obtain ⟨j, hj, rfl⟩ := List.getElem_of_mem hst
  clear hst
  induction j with
  | zero =>
    have h0 : (r.calls cancelled arm goal c)[0] = r.begin cancelled arm goal :=
      getElem_zero_callsFrom goal c _ _ hj
    rw [h0]
    exact .start
  | succ j ih =>
    have hnext := ((calls_trace hkeep r cancelled goal c harm) j (by omega)).2.2 hj
    rw [hnext.2.2]
    exact .call false _ goal c (ih (by omega))

/-- Every call but the last ended in a non-convergence that left the request live. -/
theorem calls_missed_of_succ_lt {j : Nat} (h : j + 1 < (r.calls cancelled arm goal c).length) :
    ((r.calls cancelled arm goal c)[j].call goal c).missed = true ∧
      ((r.calls cancelled arm goal c)[j].call goal c).cancelled = false :=
  let hnext := (calls_trace hkeep r cancelled goal c harm j (by omega)).2.2 h
  ⟨hnext.1, hnext.2.1⟩

/-- The first call starts from the chain as handed. -/
theorem calls_arm_zero (h : 0 < (r.calls cancelled arm goal c).length) :
    (r.calls cancelled arm goal c)[0].arm = arm :=
  (calls_trace hkeep r cancelled goal c harm 0 h).1.1

/-- Call `j + 2` starts from the `j`-th draw of the goal's generator, moved to the turns
nearest the starting configuration. -/
theorem calls_arm_succ {j : Nat} (h : j + 1 < (r.calls cancelled arm goal c).length) :
    arm.Reconfigured (r.calls cancelled arm goal c)[j + 1].arm ∧
      nearestAngles .double arm.positions (draw arm.limits (sourceFor r.seed goal) j)
        arm.limits = .ok (r.calls cancelled arm goal c)[j + 1].arm.positions :=
  let hat := (calls_trace hkeep r cancelled goal c harm (j + 1) h).1
  ⟨hat.2.1, hat.1⟩

/-- The generator is made at the first restart and drawn once at each. -/
theorem calls_source {j : Nat} (h : j < (r.calls cancelled arm goal c).length) :
    (r.calls cancelled arm goal c)[j].source =
      if j = 0 then none else some (drawsAfter arm.limits (sourceFor r.seed goal) j) := by
  have hat := (calls_trace hkeep r cancelled goal c harm j h).1
  cases j with
  | zero => exact hat.2.1
  | succ j => exact hat.2.2.1

/-- A solve whose request is never cancelled ends after its last call, which left the
request live. -/
theorem solve_ends_of_neverCancels (htries : 1 ≤ r.maxTries)
    (hlive : Solver.NeverCancels r.inner) :
    ∃ last, (r.calls false arm goal c).getLast? = some last ∧
      EndsAfter arm (last.call goal c) (r.calls false arm goal c).length r.maxTries
        (r.solve false arm goal c) ∧
      (last.call goal c).cancelled = false := by
  rcases solve_runEnds hkeep r false goal c harm htries with ⟨-, hc, -⟩ | ⟨last, hlast, hends⟩
  · cases hc
  · refine ⟨last, hlast, by simpa using hends, ?_⟩
    exact hlive _ (reachable_of_mem_calls hkeep r false goal c harm
      (List.mem_of_getLast? hlast)) _ _ _

/-- A request cancelled before the solve gets no call and fails with `canceled`. -/
theorem solve_of_cancelled (htries : 1 ≤ r.maxTries) :
    r.calls true arm goal c = [] ∧ (r.solve true arm goal c).outcome = .error .canceled := by
  obtain ⟨m, hm⟩ : ∃ m, r.maxTries = m + 1 := ⟨r.maxTries - 1, by omega⟩
  have hnil : r.calls true arm goal c = [] := by
    simp only [calls, hm]
    exact callsFrom_of_cancelled goal c _ _ rfl m 0
  refine ⟨hnil, ?_⟩
  rcases solve_runEnds hkeep r true goal c harm htries with ⟨-, -, -, hout⟩ | ⟨last, hlast, -⟩
  · exact hout
  · rw [hnil] at hlast; cases hlast

/-- A call that ends in a non-convergence and cancels the request before the last try is the
last call, and the solve fails with `canceled`. -/
theorem solve_stops_at_cancel (htries : 1 ≤ r.maxTries) {j : Nat}
    (h : j < (r.calls cancelled arm goal c).length)
    (hmissed : ((r.calls cancelled arm goal c)[j].call goal c).missed = true)
    (hcancel : ((r.calls cancelled arm goal c)[j].call goal c).cancelled = true)
    (hmore : j + 1 < r.maxTries) :
    (r.calls cancelled arm goal c).length = j + 1 ∧
      (r.solve cancelled arm goal c).outcome = .error .canceled := by
  have hlen : (r.calls cancelled arm goal c).length = j + 1 := by
    rcases Nat.lt_or_ge (j + 1) (r.calls cancelled arm goal c).length with hlt | hge
    · have hlive := (calls_missed_of_succ_lt hkeep r cancelled goal c harm hlt).2
      rw [hcancel] at hlive; cases hlive
    · omega
  refine ⟨hlen, ?_⟩
  obtain ⟨e, ho, he⟩ := Solved.missed_eq_true_iff.mp hmissed
  rcases solve_runEnds hkeep r cancelled goal c harm htries with
    ⟨hnil, -⟩ | ⟨last, hlast, hends⟩
  · simp [hnil] at h
  · -- the last call is call `j`
    have hlastj : last = (r.calls cancelled arm goal c)[j] := by
      rw [List.getLast?_eq_getElem?, hlen, Nat.add_sub_cancel, List.getElem?_eq_getElem h] at hlast
      exact (Option.some.inj hlast).symm
    rw [hlastj, hlen] at hends
    exact hends.of_cancelled ho he (by omega)

end Solve

/-- **A solve leaves the chain in one of two states.** For every solver that changes nothing
of a chain but its values, every chain holding one value per joint, every number of tries
from one on, and every cancellation: if the solve succeeds, the chain is the one the inner
solver left at the last call, which succeeded; if it fails (tries used up, another failure,
or a cancellation), the chain is the one the solve was handed, bit for bit. -/
theorem solve_leaves_goal_or_start (hkeep : Solver.KeepsChain σ) (r : RestartSolver σ)
    (cancelled : Bool) (arm : Chain) (goal : Pose) (c : Option Constraints)
    (harm : arm.positions.length = arm.joints.length) (htries : 1 ≤ r.maxTries) :
    let s := r.solve cancelled arm goal c
    (s.outcome = .ok () → ∃ last, (r.calls cancelled arm goal c).getLast? = some last ∧
        (last.call goal c).outcome = .ok () ∧ s.arm = (last.call goal c).arm) ∧
      ∀ e, s.outcome = .error e → s.arm = arm := by
  intro s
  rcases solve_runEnds hkeep r cancelled goal c harm htries with
    ⟨-, -, harm', hout⟩ | ⟨last, hlast, hends⟩
  · -- cancelled before the first call
    exact ⟨fun h => by simp [s, hout] at h, fun _ _ => harm'⟩
  · refine ⟨fun h => ?_, fun e h => ?_⟩
    · have ho := hends.outcome_ok_iff.mp h
      exact ⟨last, hlast, ho, hends.arm_of_ok ho⟩
    · cases ho : (last.call goal c).outcome with
      | ok u => rw [hends.outcome_ok_iff.mpr ho] at h; cases h
      | error e' => exact hends.arm_of_error ho

/-- The two states at a restart solver over a script that first misses, then converges, on
the six-axis arm. -/
theorem solve_leaves_goal_or_start_of_script :
    let r : RestartSolver ScriptedSolver :=
      ⟨⟨[.fail none, .converge [0, 0, 0, 0, 0, 0]], #[]⟩, 3, 7, {}⟩
    let s := r.solve false Chain.sixAxis Pose.zero none
    Solver.KeepsChain ScriptedSolver ∧
      Chain.sixAxis.positions.length = Chain.sixAxis.joints.length ∧ 1 ≤ r.maxTries ∧
      (s.outcome = .ok () → ∃ last, (r.calls false Chain.sixAxis Pose.zero none).getLast? =
          some last ∧ (last.call Pose.zero none).outcome = .ok () ∧
          s.arm = (last.call Pose.zero none).arm) ∧
      ∀ e, s.outcome = .error e → s.arm = Chain.sixAxis :=
  ⟨ScriptedSolver.keepsChain, Chain.length_positions_sixAxis, by decide,
    solve_leaves_goal_or_start ScriptedSolver.keepsChain _ false Chain.sixAxis Pose.zero none
      Chain.length_positions_sixAxis (by decide)⟩

/-- **The attempt protocol** of a restart solver `r` on a chain, a goal and constraints:

* if the request is never cancelled, the solve makes `k` calls, where `k` is the number of
  tries or the first call that does not end in a non-convergence, whichever comes first; the
  first call starts from the chain as handed, and call `j + 2` from the `j`-th draw of the
  generator seeded by the seed and the goal, moved to the turns nearest the starting
  configuration; the generator is made at the first restart and drawn once at each; the solve
  succeeds iff the last call does, returns the last non-convergence as it is when the tries
  are used up, and otherwise the last failure as `ik try k`;
* if the request is found cancelled before try `j + 1`, exactly `j` calls were made and the
  solve fails with `canceled`. -/
def AttemptProtocol (r : RestartSolver σ) (arm : Chain) (goal : Pose)
    (c : Option Constraints) : Prop :=
  let src := sourceFor r.seed goal
  (Solver.NeverCancels r.inner →
    let cs := r.calls false arm goal c
    let s := r.solve false arm goal c
    ∃ last, cs.getLast? = some last ∧
      -- how many calls
      cs.length ≤ r.maxTries ∧
      (∀ j (h : j + 1 < cs.length), (cs[j].call goal c).missed = true) ∧
      (cs.length = r.maxTries ∨ (last.call goal c).missed = false) ∧
      -- where each call starts
      (∀ h : 0 < cs.length, cs[0].arm = arm) ∧
      (∀ j (h : j + 1 < cs.length), arm.Reconfigured cs[j + 1].arm ∧
        nearestAngles .double arm.positions (draw arm.limits src j) arm.limits =
          .ok cs[j + 1].arm.positions) ∧
      (∀ j (h : j < cs.length),
        cs[j].source = if j = 0 then none else some (drawsAfter arm.limits src j)) ∧
      -- what the solve returns
      (s.outcome = .ok () ↔ (last.call goal c).outcome = .ok ()) ∧
      (∀ e, (last.call goal c).outcome = .error e → e.isNotConverged = true →
        s.outcome = .error e) ∧
      (∀ e, (last.call goal c).outcome = .error e → e.isNotConverged = false →
        s.outcome = .error (.wrap s!"ik try {cs.length}" e))) ∧
  ∀ cancelled : Bool,
    let cs := r.calls cancelled arm goal c
    let s := r.solve cancelled arm goal c
    (cancelled = true → cs = [] ∧ s.outcome = .error .canceled) ∧
    ∀ j (h : j < cs.length), (cs[j].call goal c).missed = true →
      (cs[j].call goal c).cancelled = true → j + 1 < r.maxTries →
      cs.length = j + 1 ∧ s.outcome = .error .canceled

/-- **A restart solver follows the attempt protocol** for every solver that changes nothing of
a chain but its values, every chain holding one value per joint and every number of tries
from one on. -/
theorem solve_follows_attempt_protocol (hkeep : Solver.KeepsChain σ) (r : RestartSolver σ)
    (arm : Chain) (goal : Pose) (c : Option Constraints)
    (harm : arm.positions.length = arm.joints.length) (htries : 1 ≤ r.maxTries) :
    r.AttemptProtocol arm goal c := by
  unfold AttemptProtocol
  intro src
  refine ⟨fun hlive => ?_, fun cancelled => ⟨?_, ?_⟩⟩
  · obtain ⟨last, hlast, hends, hlive'⟩ :=
      solve_ends_of_neverCancels hkeep r goal c harm htries hlive
    -- the last call missed only if it was the last try
    have hcount : (r.calls false arm goal c).length = r.maxTries ∨
        (last.call goal c).missed = false := by
      cases hmissed : (last.call goal c).missed
      · exact .inr rfl
      · obtain ⟨e, ho, he⟩ := Solved.missed_eq_true_iff.mp hmissed
        exact .inl (hends.of_missed ho he hlive').1
    exact ⟨last, hlast, length_callsFrom_le goal c _ _ _ _ _,
      fun j h => (calls_missed_of_succ_lt hkeep r false goal c harm h).1, hcount,
      calls_arm_zero hkeep r false goal c harm, fun j h => calls_arm_succ hkeep r false goal c harm h,
      fun j h => calls_source hkeep r false goal c harm h, hends.outcome_ok_iff,
      fun e ho he => (hends.of_missed ho he hlive').2, fun e ho he => hends.of_aborted ho he⟩
  · rintro rfl
    exact solve_of_cancelled hkeep r goal c harm htries
  · intro j h hmissed hcancel hmore
    exact solve_stops_at_cancel hkeep r cancelled goal c harm htries h hmissed hcancel hmore

/-- The attempt protocol at a restart solver over a script that first misses, then
converges, on the six-axis arm. -/
theorem solve_follows_attempt_protocol_of_script :
    let r : RestartSolver ScriptedSolver :=
      ⟨⟨[.fail none, .converge [0, 0, 0, 0, 0, 0]], #[]⟩, 3, 7, {}⟩
    Solver.KeepsChain ScriptedSolver ∧
      Chain.sixAxis.positions.length = Chain.sixAxis.joints.length ∧ 1 ≤ r.maxTries ∧
      r.AttemptProtocol Chain.sixAxis Pose.zero none :=
  ⟨ScriptedSolver.keepsChain, Chain.length_positions_sixAxis, by decide,
    solve_follows_attempt_protocol ScriptedSolver.keepsChain _ Chain.sixAxis Pose.zero none
      Chain.length_positions_sixAxis (by decide)⟩

end RestartSolver

end ArmReach
