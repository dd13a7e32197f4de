import ArmReach.Solver.Basic
/-!
# Region solvers

A region solver reaches exactly the goals whose position lies in a half-open box
`[lo, hi)`, without moving the arm; for any other goal it moves the arm to all nines (unchecked)
and does not converge. It stands in for a real solver when what is studied is the code that
calls solvers over many goals (sampling), because which goals succeed is then known in advance.

It can be told to break down from a height on: every goal with `z` at or above `failAtZ` gets
the chosen fault instead of an answer. It counts its calls, and the calls that found the arm
away from its `home` configuration.
-/

namespace ArmReach

/-- How a region solver breaks down. -/
inductive RegionFault where
  /-- Reports no joint values given for six joints. -/
  | wrongCount
  /-- Fails with `engine exploded`. -/
  | explode
  /-- Cancels the request and fails with `engine stopped`. -/
  | cancel
  deriving Inhabited, DecidableEq

/-- A solver that reaches the goals inside a box. -/
structure RegionSolver where
  lo : Vec3
  hi : Vec3
  failAtZ : Option Float := none
  fault : RegionFault := .wrongCount
  home : List Float
  calls : Nat := 0
  dirty : Nat := 0

namespace RegionSolver

variable {α : Type}

/-- Whether a position lies in the box `[lo, hi)`. -/
def reaches (s : RegionSolver) (p : Vec3) : Bool :=
  s.lo.x ≤ p.x && p.x < s.hi.x && s.lo.y ≤ p.y && p.y < s.hi.y && s.lo.z ≤ p.z && p.z < s.hi.z

/-- Whether the arm is away from home: some joint value differs. -/
def away (s : RegionSolver) (q : List Float) : Bool :=
  q.length != s.home.length || (q.zip s.home).any fun (a, b) => a != b

/-- Whether a goal is at or above the breaking height. -/
def breaks (s : RegionSolver) (goal : Pose) : Bool :=
  match s.failAtZ with
  | some z => goal.point.z ≥ z
  | none => false

/-- One call. -/
def solve [Arm α] (s : RegionSolver) (cancelled : Bool) (arm : α) (goal : Pose) :
    Solved RegionSolver α :=
  let s := { s with calls := s.calls + 1,
                    dirty := if s.away (Arm.positions arm) then s.dirty + 1 else s.dirty }
  if s.breaks goal then
    match s.fault with
    | .wrongCount => ⟨s, arm, cancelled, .error (.incorrectDof 0 6)⟩
    | .explode => ⟨s, arm, cancelled, .error (.plain "engine exploded")⟩
    | .cancel => ⟨s, arm, true, .error (.plain "engine stopped")⟩
  else if s.reaches goal.point then ⟨s, arm, cancelled, .ok ()⟩
  else
    match Arm.setUnchecked arm ((Arm.limits arm).map fun _ => 9) with
    | (arm, .error e) => ⟨s, arm, cancelled, .error e⟩
    | (arm, .ok ()) =>
      ⟨s, arm, cancelled, .error (.notConverged ⟨1, Vec3.zero, Vec3.zero⟩)⟩

end RegionSolver

/-- A region solver is a solver; it ignores the constraints. -/
instance : Solver RegionSolver where
  solve s cancelled arm goal _ := s.solve cancelled arm goal

end ArmReach
