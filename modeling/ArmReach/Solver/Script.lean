import ArmReach.Solver.Basic
/-!
# Scripted solvers

A scripted solver plays back a fixed list of outcomes, one per call, and records the
configuration the arm had at each call. It stands in for a real solver when what is studied is
the code around a solver (restarts, sampling). Calls beyond the script do not converge.

A call numbered `n` that does not converge reports `n` attempts and a position residual of
`(n, 0, 0)`.
-/

namespace ArmReach

/-- One scripted outcome. -/
inductive Move where
  /-- Sets the arm to `q`, checked, and succeeds when that does. -/
  | converge (q : List Float)
  /-- Sets the arm to `q` unchecked, if given, and does not converge; a refused setting is the
  outcome instead. -/
  | fail (q : Option (List Float))
  /-- As `fail`, with the failure wrapped in the context `wrapped`. -/
  | wrappedFail (q : Option (List Float))
  /-- Reports joint 1 at 9, outside its range. -/
  | outOfRange
  /-- Reports no joint values given for the arm's joints. -/
  | wrongCount
  /-- Fails with a plain message. -/
  | error (message : String)
  /-- As `fail`, and cancels the request. -/
  | cancel (q : Option (List Float))
  deriving Inhabited

/-- A solver that plays back `moves`, with the starting configuration of every call so far. -/
structure ScriptedSolver where
  moves : List Move
  starts : Array (List Float) := #[]
  deriving Inhabited

namespace ScriptedSolver

variable {α : Type}

/-- The number of calls so far. -/
def calls (s : ScriptedSolver) : Nat := s.starts.size

/-- The failure of call `n` that does not converge. -/
def miss (n : Nat) : Failure := .notConverged ⟨n, ⟨n.toFloat, 0, 0⟩, ⟨0, 0, 0⟩⟩

/-- Sets the arm unchecked when a configuration is given, then fails with `f` unless the
setting was refused, whose failure comes instead. -/
def missWith [Arm α] (s : ScriptedSolver) (cancelled : Bool) (arm : α) (f : Failure) :
    Option (List Float) → Solved ScriptedSolver α
  | some q =>
    match Arm.setUnchecked arm q with
    | (arm, .ok ()) => ⟨s, arm, cancelled, .error f⟩
    | (arm, .error e) => ⟨s, arm, cancelled, .error e⟩
  | none => ⟨s, arm, cancelled, .error f⟩

/-- One call: the next move played on the arm. -/
def solve [Arm α] (s : ScriptedSolver) (cancelled : Bool) (arm : α) : Solved ScriptedSolver α :=
  let n := s.calls + 1
  let s' := { s with starts := s.starts.push (Arm.positions arm) }
  match s.moves[s.calls]?.getD (.fail none) with
  | .converge q =>
    let (arm, outcome) := Arm.setPositions arm q
    ⟨s', arm, cancelled, outcome⟩
  | .fail q => missWith s' cancelled arm (miss n) q
  | .wrappedFail q => missWith s' cancelled arm (.wrap "wrapped" (miss n)) q
  | .outOfRange =>
    ⟨s', arm, cancelled, .error (.outOfBounds 1 9 ((Arm.limits arm).getD 1 default))⟩
  | .wrongCount => ⟨s', arm, cancelled, .error (.incorrectDof 0 (Arm.limits arm).length)⟩
  | .error message => ⟨s', arm, cancelled, .error (.plain message)⟩
  | .cancel q => missWith s' true arm (miss n) q

end ScriptedSolver

/-- A scripted solver is a solver; it ignores the goal and the constraints. -/
instance : Solver ScriptedSolver where
  solve s cancelled arm _ _ := s.solve cancelled arm

end ArmReach
